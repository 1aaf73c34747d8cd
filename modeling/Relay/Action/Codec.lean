import Relay.Action.Basic
import Relay.Json.Printer

/-!
# Actions as JSON

An action is an object whose `type` names its kind. The fields of the kind stand next to `repeat`,
`wait` and `verbose`, which are written only when they differ from their defaults. Reading takes
the type first, then the three options, then the fields of the kind.
-/

namespace Relay

/-- Why JSON is not an action. -/
inductive DecodeError where
  /-- A value has the wrong type. -/
  | wrongType
  | missingField (name : String)
  /-- The type of an action is not a string. -/
  | kindNotString (got : Json)
  /-- One of the options has the wrong type. -/
  | badOption (name : String)
  /-- A field of the named kind is wrong. -/
  | badKind (kind : String) (cause : DecodeError)

/-- The reason in words; a wrong type is not described further. -/
def DecodeError.message : DecodeError → String
  | wrongType => ""
  | missingField name => "missing field `" ++ name ++ "`"
  | kindNotString got => "action type must be a string, got " ++ got.compact
  | badOption name => "invalid `" ++ name ++ "`: "
  | badKind kind cause => "invalid " ++ kind ++ " action: " ++ cause.message

namespace Call

/-- The fields of a call in the order in which a positional record lists them. -/
def fieldNames : List String :=
  ["name", "description", "origin", "node", "path", "method", "headers", "body", "actions",
    "saveToContext", "startDelaySeconds"]

/-- Read a call; every field has a default. -/
def ofRecord? (r : Record) : Option Call := do
  let body ← r.optional "body" some
  let description ← r.optional "description" Json.asString?
  let headers ← r.withDefault "headers" Dict.empty (Json.asDict? Json.asString?)
  let method ← r.withDefault "method" "GET" Json.asString?
  let name ← r.optional "name" Json.asString?
  let node ← r.optional "node" Json.asString?
  let origin ← r.optional "origin" Json.asString?
  let path ← r.withDefault "path" "" Json.asString?
  let saveTo ← r.optional "saveToContext" Json.asString?
  let startDelay ← r.withDefault "startDelaySeconds" 0 Json.asFloat?
  return { name, description, origin, node, path, method, headers, body, saveTo, startDelay }

/-- A field that is written only when there is a value. -/
def optionalField (name : String) (value : Option Json) : List (String × Json) :=
  match value with
  | some value => [(name, value)]
  | none => []

/-- The fields of a call that ships the given actions. A delay that is next to nothing is left out.
-/
def toFields (call : Call) (shipped : Json) : List (String × Json) :=
  let headers :=
    if call.headers.entries.isEmpty then none
    else some (Json.object (call.headers.map Json.string).entries)
  let delay :=
    if call.startDelay.abs < Decimal.epsilon then none else some (Json.float call.startDelay)
  optionalField "name" (call.name.map .string) ++
    optionalField "description" (call.description.map .string) ++
    optionalField "origin" (call.origin.map .string) ++
    optionalField "node" (call.node.map .string) ++
    [("path", .string call.path), ("method", .string call.method)] ++
    optionalField "headers" headers ++
    optionalField "body" call.body ++
    [("actions", shipped)] ++
    optionalField "saveToContext" (call.saveTo.map .string) ++
    optionalField "startDelaySeconds" delay

end Call

/-- The fields of a step, without its type. -/
def Step.toFields : Step → List (String × Json)
  | log message => Call.optionalField "message" (message.map .string)
  | wait duration => Call.optionalField "duration" (duration.map Json.ofUInt64)
  | set key value => [("key", .string key), ("value", value)]
  | code source => [("source", .string source)]
  | ret data => [("data", data)]
  | unknown _ => []

/-- The options that differ from their defaults. -/
def Mode.toFields (mode : Mode) : List (String × Json) :=
  (if mode.repeats = 1 then [] else [("repeat", Json.ofNat mode.repeats.toNat)]) ++
    (if mode.wait then [] else [("wait", .bool false)]) ++
    (if mode.verbose then [("verbose", .bool true)] else [])

namespace Action

mutual

/-- An action as JSON. -/
def toJson : Action → Json
  | step mode s =>
    Json.ofFields (("type", .string s.kind) :: s.toFields ++ mode.toFields)
  | call mode c shipped =>
    Json.ofFields (("type", .string "http") :: c.toFields (.array (toJsonList shipped)) ++
      mode.toFields)
  | group mode members =>
    Json.ofFields (("type", .string "multi") :: ("actions", .array (toJsonList members)) ::
      mode.toFields)

/-- Actions as JSON, in order. -/
def toJsonList : List Action → List Json
  | [] => []
  | a :: rest => a.toJson :: toJsonList rest

end

/-- Read an option: an absent or null option takes its default. -/
def readOption {α : Type} (fields : List (String × Json)) (name : String) (default : α)
    (read : Json → Option α) : Except DecodeError α :=
  match fields.lookup name with
  | none => .ok default
  | some .null => .ok default
  | some value =>
    match read value with
    | some value => .ok value
    | none => .error (.badOption name)

/-- Read a field that has to be there. -/
def readRequired (fields : List (String × Json)) (name : String) :
    Except DecodeError String :=
  match fields.lookup name with
  | none => .error (.missingField name)
  | some (.string s) => .ok s
  | some _ => .error .wrongType

/-- Read the part of an action that is specific to its kind. `children` reads the nested actions
and is asked only by the kinds that have some. -/
def readKind (kind : String) (mode : Mode) (fields : List (String × Json))
    (children : Unit → Except DecodeError (List Action)) : Except DecodeError Action := do
  let r : Record := ⟨fields⟩
  let known {α : Type} (value : Option α) : Except DecodeError α :=
    match value with
    | some value => .ok value
    | none => .error .wrongType
  match kind with
  | "log" => return step mode (.log (← known (r.optional "message" Json.asString?)))
  | "wait" => return step mode (.wait (← known (r.optional "duration" Json.asUInt64?)))
  | "set" => return step mode (.set (← readRequired fields "key")
      ((fields.lookup "value").getD .null))
  | "code" => return step mode (.code (← readRequired fields "source"))
  | "http" =>
    let shipped ← children ()
    return call mode (← known (Call.ofRecord? r)) shipped
  | "return" => return step mode (.ret ((fields.lookup "data").getD .null))
  | "multi" => return group mode (← children ())
  | kind => return step mode (.unknown kind)

/-- Read an action from the fields of its object. -/
def ofFields (fields : List (String × Json))
    (children : Unit → Except DecodeError (List Action)) : Except DecodeError Action :=
  match fields.lookup "type" with
  | none => .error (.missingField "type")
  | some (.string kind) => do
    let repeats ← readOption fields "repeat" 1 Json.asUInt32?
    let wait ← readOption fields "wait" true Json.asBool?
    let verbose ← readOption fields "verbose" false Json.asBool?
    match readKind kind { repeats, wait, verbose } fields children with
    | .ok a => .ok a
    | .error cause => .error (.badKind kind cause)
  | some other => .error (.kindNotString other)

mutual

/-- Read an action. -/
def ofJson : Json → Except DecodeError Action
  | .object fields => ofFields fields fun _ => ofActionsField fields
  | _ => .error .wrongType

/-- Read the nested actions out of the fields of an action; an absent field holds none. -/
def ofActionsField : List (String × Json) → Except DecodeError (List Action)
  | [] => .ok []
  | (key, value) :: rest => if key = "actions" then ofJsonList value else ofActionsField rest

/-- Read an array of actions. -/
def ofJsonList : Json → Except DecodeError (List Action)
  | .array items => ofItems items
  | _ => .error .wrongType

/-- Read the items of an array of actions; the first one that is wrong is reported. -/
def ofItems : List Json → Except DecodeError (List Action)
  | [] => .ok []
  | item :: rest =>
    match ofJson item with
    | .error e => .error e
    | .ok a =>
      match ofItems rest with
      | .error e => .error e
      | .ok as => .ok (a :: as)

end

end Action

end Relay
