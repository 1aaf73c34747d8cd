import Relay.Client.Sender
import Relay.Http.Address
import Relay.Json.Record

/-!
# Talking to one node

From outside a node can be asked for its health and for a greeting, and an invocation can be
triggered.
-/

namespace Relay

/-- Why a node has no good answer. -/
inductive ClientError where
  | connection (reason : String)
  | http (status : Nat) (message : String)
  | deserialization (reason : String)
  | badMethod (method : String)
  | payload (cause : PayloadError)

/-- The error in words. -/
def ClientError.message : ClientError → String
  | connection reason => "connection error: " ++ reason
  | http status message => "HTTP " ++ toString status ++ ": " ++ message
  | deserialization reason => "deserialization error: " ++ reason
  | badMethod method => "configuration error: invalid HTTP method: " ++ method
  | payload cause => cause.message

/-- The health of a node. -/
structure Health where
  status : String
  service : String
deriving DecidableEq

namespace Health

/-- Whether the node is well. -/
def isOk (h : Health) : Bool :=
  h.status = "ok"

/-- Health as JSON. -/
def toJson (h : Health) : Json :=
  Json.ofFields [("status", .string h.status), ("service", .string h.service)]

/-- Read health. -/
def ofJson? (j : Json) : Option Health := do
  let r ← Record.ofJson? ["status", "service"] j
  let status ← r.required "status" Json.asString?
  let service ← r.required "service" Json.asString?
  return { status, service }

end Health

/-- A client of one node. -/
structure NodeClient where
  baseUrl : String
  patienceMs : Nat := 30000
  net : Transport

namespace NodeClient

/-- The address without slashes at its end. -/
def trimSlashes (url : String) : String :=
  String.ofList (url.toList.reverse.dropWhile (· = '/')).reverse

/-- A client of the node at an address. -/
def ofAddress (address : String) (net : Transport) : NodeClient :=
  { baseUrl := trimSlashes address, net }

/-- Send a request. -/
def exchange (c : NodeClient) (r : HttpRequest) : Reply (Except ClientError HttpResponse) :=
  let reply := (c.net r).within c.patienceMs "operation timed out"
  ⟨reply.result.mapError .connection, reply.effects⟩

/-- Ask an endpoint that answers with a record of a known form. -/
def ask {α : Type} (c : NodeClient) (place failure : String) (read : Json → Option α) :
    Reply (Except ClientError α) :=
  let reply := c.exchange { url := c.baseUrl ++ place }
  let result := do
    let response ← reply.result
    if response.isSuccess then
      match (Json.parse? response.body).bind read with
      | some value => return value
      | none => .error (.deserialization "invalid body")
    else .error (.http response.status (failure ++ ": " ++ Http.reason response.status))
  ⟨result, reply.effects⟩

/-- Ask for the health of the node. -/
def health (c : NodeClient) : Reply (Except ClientError Health) :=
  c.ask "/api/v1/health" "Health check failed" Health.ofJson?

/-- Ask for a greeting. -/
def greet (c : NodeClient) (name : Option String) : Reply (Except ClientError String) :=
  let query :=
    match name with
    | some name => "?name=" ++ Http.formEscape name
    | none => ""
  c.ask ("/api/v1/greet" ++ query) "Greet failed" fun j => do
    let r ← Record.ofJson? ["message"] j
    r.required "message" Json.asString?

/-- What a refusing response says. -/
def refusal (response : HttpResponse) : String :=
  let told := do
    let r ← Record.ofJson? ["error"] (← Json.parse? response.body)
    r.required "error" Json.asString?
  told.getD ("Trigger failed: " ++ Http.reason response.status)

/-- Send actions to the node and read what they return. -/
def trigger (c : NodeClient) (method path : String) (actions : List Action) (body : Option Json) :
    Reply (Except ClientError Json) :=
  match Http.method? method with
  | none => ⟨.error (.badMethod method), {}⟩
  | some verb =>
    let reply := c.exchange {
      method := verb
      url := c.baseUrl ++ path
      headers := [(payloadHeader, Payload.encode actions)]
      body }
    let result := do
      let response ← reply.result
      if response.isSuccess then
        match Http.parseBody? response.body with
        | some value => return value
        | none => .error (.deserialization "invalid body")
      else .error (.http response.status (refusal response))
    ⟨result, reply.effects⟩

end NodeClient

end Relay
