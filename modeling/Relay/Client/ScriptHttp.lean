import Relay.Client.Sender

/-!
# Requests of scripts

The http object of scripts sends plain requests, without a payload, and reads the answers whatever
their status.
-/

namespace Relay

/-- Answer the requests of scripts over a transport. -/
def scriptHttp (patienceMs : Nat) (net : Transport) (call : Script.HttpCall) : Script.HttpReply :=
  let context := call.method ++ " " ++ call.url ++ ": "
  match Http.method? call.method with
  | none => ⟨0, .error ("invalid HTTP method: " ++ call.method)⟩
  | some method =>
    let reply :=
      (net { method, url := call.url, body := call.body }).within patienceMs "operation timed out"
    let result :=
      match reply.result with
      | .error reason => .error (context ++ reason)
      | .ok response =>
        match Http.parseBody? response.body with
        | some value => .ok value
        | none => .error (context ++ "invalid JSON: ")
    ⟨reply.effects.elapsed, result⟩

end Relay
