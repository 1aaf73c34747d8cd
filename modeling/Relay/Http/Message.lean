import Relay.Execution.Trace
import Relay.Text.Case

/-!
# Requests and responses

What travels between nodes. Header names compare without regard to the case of letters. A transport
carries a request to wherever its URL leads and brings the response back, or a reason why there is
none.
-/

namespace Relay

/-- A request. -/
structure HttpRequest where
  method : String := "GET"
  /-- The address: a complete URL on the way, a path and a query at its end. -/
  url : String
  headers : List (String × String) := []
  body : Option Json := none

/-- A response. -/
structure HttpResponse where
  status : Nat
  body : String

/-- A way to the other nodes. -/
abbrev Transport := HttpRequest → Reply (Except String HttpResponse)

namespace Http

/-- Characters of methods and header names besides letters and digits. -/
def tokenMarks : List Char :=
  ['!', '#', '$', '%', '&', '\'', '*', '+', '-', '.', '^', '_', '\x60', '|', '~']

/-- Whether a text can be a method or the name of a header. -/
def isToken (s : String) : Bool :=
  !s.isEmpty && s.toList.all fun c => c.isAlphanum || tokenMarks.contains c

/-- Whether a text can be the value of a header: no control characters but the tab. -/
def isFieldValue (s : String) : Bool :=
  s.toList.all fun c => c = '\t' || (32 ≤ c.toNat && c.toNat != 127)

/-- Whether a text consists of spaces, tabs and visible ASCII characters. -/
def isVisibleAscii (s : String) : Bool :=
  s.toList.all fun c => c = '\t' || (32 ≤ c.toNat && c.toNat < 127)

/-- A text with its ASCII letters in lower case. -/
def lowerAscii (s : String) : String :=
  s.map Char.toLower

/-- A text with its ASCII letters in upper case. -/
def upperAscii (s : String) : String :=
  s.map Char.toUpper

/-- A method in capitals, if it is one. -/
def method? (s : String) : Option String :=
  if isToken s then some (upperAscii s) else none

/-- The reason phrases of the statuses that nodes use. -/
def reason : Nat → String
  | 200 => "200 OK"
  | 400 => "400 Bad Request"
  | 500 => "500 Internal Server Error"
  | status => toString status

end Http

/-- The value of the first header of a name. -/
def HttpRequest.header? (r : HttpRequest) (name : String) : Option String :=
  (r.headers.find? fun header => Http.lowerAscii header.1 = name).map (·.2)

namespace HttpResponse

/-- A response with a JSON body. -/
def json (status : Nat) (j : Json) : HttpResponse :=
  ⟨status, j.compact⟩

/-- Whether the request was successful. -/
def isSuccess (response : HttpResponse) : Bool :=
  200 ≤ response.status && response.status < 300

end HttpResponse

/-- The result of a computation that is given up after some time. What would happen later does not
happen. -/
def Reply.within {ε α : Type} (limit : Nat) (late : ε) (reply : Reply (Except ε α)) :
    Reply (Except ε α) :=
  if reply.effects.elapsed ≤ limit then reply
  else
    ⟨.error late, {
      elapsed := limit
      events := reply.effects.events.filter fun event => event.1 < limit
      tasks := reply.effects.tasks.filter fun task => task.launched < limit }⟩

end Relay
