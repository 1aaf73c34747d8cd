import Relay.Payload

/-!
# Requests to other nodes

A call becomes a request: where it goes, how it is made and which actions it ships. A request that
gets no usable answer fails with a cause; `DispatchError.message` puts it into words.
-/

namespace Relay

/-- Why a request cannot be addressed. -/
inductive TargetFlaw where
  /-- A call with neither an origin nor a node. -/
  | noTarget (label : String)
  | badMethod (method : String)
  /-- An address that is no URL. -/
  | badAddress (address : String)

/-- Why a request has no answer. -/
inductive DispatchError where
  | unknownNode (name : String)
  | invalidTarget (flaw : TargetFlaw)
  | payload (cause : PayloadError)
  | transport (reason : String)
  | undecodable (url reason : String)

/-- A request to a node. -/
structure Request where
  target : Target
  method : String := "GET"
  headers : Dict String := Dict.empty
  body : Option Json := none
  actions : List Action := []

/-- The flaw in words. -/
def TargetFlaw.message : TargetFlaw → String
  | noTarget label => "http action '" ++ label ++ "' has neither origin nor node"
  | badMethod method => "invalid method: " ++ method
  | badAddress address => address

namespace DispatchError

/-- The error in words. -/
def message : DispatchError → String
  | unknownNode name => "unknown node: " ++ name
  | invalidTarget flaw => "invalid target: " ++ flaw.message
  | payload cause => "payload encoding failed: " ++ cause.message
  | transport reason => "transport error: " ++ reason
  | undecodable url reason => "undecodable response from " ++ url ++ ": " ++ reason

/-- The code of every such error in failure values. -/
def code (_ : DispatchError) : String :=
  "DISPATCH_FAILURE"

end DispatchError

/-- The request that a call makes. -/
def Request.ofCall (call : Call) (shipped : List Action) : Except DispatchError Request :=
  match call.target? with
  | none => .error (.invalidTarget (.noTarget call.label))
  | some target =>
    .ok {
      target
      method := call.method
      headers := call.headers
      body := call.body
      actions := shipped }

end Relay
