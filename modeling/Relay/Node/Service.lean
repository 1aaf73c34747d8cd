import Relay.Node.Config
import Relay.Http.Message
import Relay.Http.Address

/-!
# What a node answers

A node tells how it is and greets by name. Every other request is an invocation: the actions in its
payload header run on a store of their own, whatever the method and the path.
-/

namespace Relay

/-- What keeps a node from starting, or a request from being answered. -/
inductive NodeError where
  | config (fault : ConfigFault)
  | io (reason : String)
  | payload (cause : PayloadError)

namespace NodeError

/-- The error in words. -/
def message : NodeError → String
  | config fault => "configuration error: " ++ fault.message
  | io reason => "io error: " ++ reason
  | payload cause => cause.message

/-- The status of the response that reports the error. -/
def status : NodeError → Nat
  | config _ => 500
  | io _ => 500
  | payload _ => 400

/-- What the response tells of the error. Why a payload is refused is not told. -/
def shown : NodeError → String
  | config fault => fault.message
  | io reason => reason
  | payload .missing => PayloadError.missing.message
  | payload (.malformed _) => "Invalid simulation payload"
  | payload (.unencodable _) => "Invalid simulation payload"

/-- The response that reports the error. -/
def response (e : NodeError) : HttpResponse :=
  .json e.status (Json.ofFields [("error", .string e.shown)])

end NodeError

/-- A running node. -/
structure Service where
  name : String
  interpreter : Interpreter
  limits : PayloadLimits := {}

/-- What a node tells about its health. -/
def healthBody (name : String) : Json :=
  Json.ofFields [("status", .string "ok"), ("service", .string name)]

/-- A greeting; without a name it is for the world. -/
def greeting (name : Option String) : String :=
  let whom :=
    match name with
    | none => "World"
    | some name => if name.isEmpty then "World" else name
  "Hello, " ++ whom ++ "!"

/-- The response to a request for a greeting. A name may be given once. -/
def greet (query : String) : HttpResponse :=
  match (Http.formPairs query).filter (·.1 = "name") with
  | [] => .json 200 (Json.ofFields [("message", .string (greeting none))])
  | [(_, name)] => .json 200 (Json.ofFields [("message", .string (greeting (some name)))])
  | _ => ⟨400, "Failed to deserialize query string: duplicate field `name`"⟩

namespace Service

/-- The actions that a request ships. -/
def receive (s : Service) (r : HttpRequest) : Except PayloadError (List Action) :=
  match r.header? payloadHeader with
  | none => .error .missing
  | some header =>
    if Http.isVisibleAscii header then (Payload.decode s.limits header).mapError .malformed
    else .error (.malformed (.described "header is not ASCII"))

/-- Run the actions that a request ships. -/
def invoke (s : Service) (r : HttpRequest) : Reply HttpResponse :=
  match s.receive r with
  | .error e => ⟨(NodeError.payload e).response, {}⟩
  | .ok actions =>
    let reply := s.interpreter.run actions
    ⟨.json 200 reply.result, reply.effects⟩

/-- Answer a request by its method and path. -/
def route (s : Service) (r : HttpRequest) : Reply HttpResponse :=
  let place := Http.Place.ofUrl r.url
  if r.method = "GET" ∨ r.method = "HEAD" then
    if place.path = "/api/v1/health" then ⟨.json 200 (healthBody s.name), {}⟩
    else if place.path = "/api/v1/greet" then ⟨greet place.query, {}⟩
    else s.invoke r
  else s.invoke r

/-- Answer a request. Every origin may send requests, so a question for the options is answered at
once; the answer to a request for the head has no body. -/
def handle (s : Service) (r : HttpRequest) : Reply HttpResponse :=
  if r.method = "OPTIONS" then ⟨⟨200, ""⟩, {}⟩
  else
    let reply := s.route r
    if r.method = "HEAD" then ⟨{ reply.result with body := "" }, reply.effects⟩ else reply

end Service

end Relay
