import Relay.Json.Record

/-!
# What actions leave behind

A step that only has a side effect acknowledges it with a value. An unknown kind of action answers
with a note, and an invocation that is abandoned answers with a failure value in place of a result.
-/

namespace Relay

/-- The acknowledgement of a step. -/
inductive Ack where
  | logged (message : String)
  | waited (duration : UInt64)
  | set (key : String) (value : Json)

namespace Ack

/-- An acknowledgement as JSON. -/
def toJson : Ack → Json
  | logged message => Json.ofFields [("status", .string "logged"), ("message", .string message)]
  | waited duration =>
    Json.ofFields [("status", .string "waited"), ("duration", Json.ofUInt64 duration)]
  | set key value =>
    Json.ofFields [("status", .string "set"), ("key", .string key), ("value", value)]

/-- Read the fields of an acknowledgement with the given status. -/
def ofStatus? (status : String) (rest : Json) : Option Ack :=
  match status with
  | "logged" => do
    let r ← Record.ofJson? ["message"] rest
    return logged (← r.required "message" Json.asString?)
  | "waited" => do
    let r ← Record.ofJson? ["duration"] rest
    return waited (← r.required "duration" Json.asUInt64?)
  | "set" => do
    let r ← Record.ofJson? ["key", "value"] rest
    return set (← r.required "key" Json.asString?) (← r.required "value" some)
  | _ => none

/-- Read an acknowledgement. Written as an array, it starts with its status. -/
def ofJson? : Json → Option Ack
  | .object fields =>
    match fields.lookup "status" with
    | some (.string status) => ofStatus? status (.object fields)
    | _ => none
  | .array (.string status :: rest) => ofStatus? status (.array rest)
  | _ => none

end Ack

/-- The note about a kind of action that is not known. -/
def unknownKind (kind : String) : Json :=
  Json.ofFields [("error", .string ("Unknown action type: " ++ kind))]

/-- The value that stands for the result of an abandoned invocation. -/
def failureValue (message code : String) : Json :=
  Json.ofFields [("error", .string message), ("code", .string code)]

end Relay
