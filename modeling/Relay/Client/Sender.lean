import Relay.Execution.Interpreter
import Relay.Http.Message
import Relay.Node.Identity
import Relay.Json.Parser

/-!
# Sending requests over a transport

The sender finds out where a request goes, adds the payload to its headers and reads the answer.
Headers that cannot be sent are left out, and the payload goes before any header of its name.
-/

namespace Relay

namespace Http

/-- Whether a body holds nothing but ASCII blanks. -/
def isBlankBody (body : String) : Bool :=
  body.toList.all fun c => c = ' ' || c = '\t' || c = '\n' || c = '\x0c' || c = '\r'

/-- The value in a body; an empty body stands for null. -/
def parseBody? (body : String) : Option Json :=
  if isBlankBody body then some .null else Json.parse? body

/-- The headers that can be sent, by names in lower case. Of several spellings of a name the last
one stays. -/
def sendableHeaders (headers : List (String × String)) : Dict String :=
  Dict.ofList ((headers.filter fun header => isToken header.1 && isFieldValue header.2).map
    fun header => (lowerAscii header.1, header.2))

end Http

/-- What sends requests. -/
structure Sender where
  directory : Directory
  /-- How long an answer may take. -/
  patienceMs : Nat := 30000
  net : Transport

namespace Sender

/-- The headers of a request with its payload. -/
def headers (r : Request) : List (String × String) :=
  ((Http.sendableHeaders r.headers.entries).insert payloadHeader (Payload.encode r.actions)).entries

/-- The URL that a target leads to. -/
def resolve (s : Sender) (target : Target) : Except DispatchError String :=
  match s.directory.resolve target with
  | some url => .ok url
  | none =>
    match target with
    | .node name _ => .error (.unknownNode name)
    | .url address => .error (.invalidTarget (.badAddress address))

/-- The message that carries a request. -/
def message (s : Sender) (r : Request) : Except DispatchError HttpRequest := do
  let url ← s.resolve r.target
  match Http.method? r.method with
  | none => .error (.invalidTarget (.badMethod r.method))
  | some method => return { method, url, headers := headers r, body := r.body }

/-- The value in a response, whatever its status. -/
def read (url : String) (response : HttpResponse) : Except DispatchError Json :=
  match Http.parseBody? response.body with
  | some value => .ok value
  | none => .error (.undecodable url "invalid JSON")

/-- Send a request and read the answer. -/
def dispatch (s : Sender) : Dispatcher := fun r =>
  match s.message r with
  | .error e => ⟨.error e, {}⟩
  | .ok message =>
    let reply := (s.net message).within s.patienceMs "operation timed out"
    match reply.result with
    | .error reason => ⟨.error (.transport reason), reply.effects⟩
    | .ok response => ⟨read message.url response, reply.effects⟩

end Sender

end Relay
