import Relay.Action.Codec
import Relay.Json.Parser
import Relay.Base64
import Relay.Text.Blank

/-!
# Payloads

The actions for the next node travel in a request header, as base64 of their compact JSON text. A
node does not trust what it receives: the length of the header, the nesting of the actions and the
repetitions of each of them have limits.
-/

namespace Relay

/-- The name of the request header that holds the payload. -/
def payloadHeader : String := "x-simulation-payload"

/-- What a node accepts. -/
structure PayloadLimits where
  /-- The greatest length of the header value in bytes. -/
  maxBytes : Nat := 262144
  /-- The greatest depth of the actions; a flat list has depth one. -/
  maxDepth : Nat := 32
  /-- The greatest number of repetitions of any action. -/
  maxRepeat : UInt32 := 10000
deriving DecidableEq

/-- Why a payload is refused. -/
inductive PayloadFlaw where
  | tooLong (bytes limit : Nat)
  | notBase64
  | notJson
  /-- Neither an object nor an array. -/
  | notActions (got : Json)
  | badAction (cause : DecodeError)
  | tooDeep (depth limit : Nat)
  | tooOften (repeats : UInt32) (kind : String) (limit : UInt32)
  /-- A flaw that was found elsewhere and is known by its description. -/
  | described (reason : String)

/-- What can go wrong with the payload of a request. -/
inductive PayloadError where
  | missing
  | malformed (flaw : PayloadFlaw)
  /-- Actions that have no written form. -/
  | unencodable (reason : String)

namespace PayloadLimits

/-- The fields in the order in which a positional record lists them. -/
def fieldNames : List String := ["max_bytes", "max_depth", "max_repeat"]

/-- Read limits; every field has a default. -/
def ofJson? (j : Json) : Option PayloadLimits := do
  let r ← Record.ofJson? fieldNames j
  let maxBytes ← r.withDefault "max_bytes" 262144 Json.asCount?
  let maxDepth ← r.withDefault "max_depth" 32 Json.asCount?
  let maxRepeat ← r.withDefault "max_repeat" 10000 Json.asUInt32?
  return { maxBytes, maxDepth, maxRepeat }

/-- Limits as JSON. -/
def toJson (limits : PayloadLimits) : Json :=
  Json.ofFields [("max_bytes", Json.ofNat limits.maxBytes),
    ("max_depth", Json.ofNat limits.maxDepth), ("max_repeat", Json.ofNat limits.maxRepeat.toNat)]

end PayloadLimits

/-- A JSON value by its kind, in messages. -/
def Json.kindText : Json → String
  | .null => "null"
  | .bool _ => "a boolean"
  | .int _ => "a number"
  | .float _ => "a number"
  | .string _ => "a string"
  | .array _ => "an array"
  | .object _ => "an object"

namespace PayloadFlaw

/-- The flaw in words. -/
def message : PayloadFlaw → String
  | tooLong bytes limit => "payload is " ++ toString bytes ++ " bytes, limit is " ++ toString limit
  | notBase64 => "invalid base64: "
  | notJson => "invalid JSON: "
  | notActions got => "expected an action or a list of actions, got " ++ got.kindText
  | badAction cause => cause.message
  | tooDeep depth limit =>
    "nesting depth " ++ toString depth ++ " exceeds limit " ++ toString limit
  | tooOften repeats kind limit =>
    "repeat " ++ toString repeats.toNat ++ " on " ++ kind ++ " action exceeds limit " ++
      toString limit.toNat
  | described reason => reason

end PayloadFlaw

namespace PayloadError

/-- The error in words. -/
def message : PayloadError → String
  | missing => "Missing X-Simulation-Payload header"
  | malformed flaw => "malformed simulation payload: " ++ flaw.message
  | unencodable reason => "failed to encode simulation payload: " ++ reason

/-- The code of the error in failure values. -/
def code : PayloadError → String
  | missing => "MISSING_PAYLOAD"
  | malformed _ => "MALFORMED_PAYLOAD"
  | unencodable _ => "PAYLOAD_ENCODE"

end PayloadError

namespace Payload

mutual

/-- The first action, in the order in which they are written, that repeats too often; it is returned
as its number of repetitions and its kind. -/
def tooOften? (limit : UInt32) : Action → Option (UInt32 × String)
  | .step mode s => if limit < mode.repeats then some (mode.repeats, s.kind) else none
  | .call mode _ shipped =>
    if limit < mode.repeats then some (mode.repeats, "http") else tooOftenIn? limit shipped
  | .group mode members =>
    if limit < mode.repeats then some (mode.repeats, "multi") else tooOftenIn? limit members

/-- The first action of a list, or below it, that repeats too often. -/
def tooOftenIn? (limit : UInt32) : List Action → Option (UInt32 × String)
  | [] => none
  | a :: rest =>
    match tooOften? limit a with
    | some found => some found
    | none => tooOftenIn? limit rest

end

/-- Check actions against the limits; depth goes before repetitions. -/
def validate (limits : PayloadLimits) (actions : List Action) : Except PayloadFlaw Unit :=
  let depth := Action.depthList actions
  if limits.maxDepth < depth then .error (.tooDeep depth limits.maxDepth)
  else
    match tooOftenIn? limits.maxRepeat actions with
    | some (repeats, kind) => .error (.tooOften repeats kind limits.maxRepeat)
    | none => .ok ()

/-- The header value that ships actions. -/
def encode (actions : List Action) : String :=
  Base64.encode (Json.array (Action.toJsonList actions)).compact.toUTF8.toList

/-- The JSON value that bytes write as text. -/
def jsonOfBytes? (bytes : List UInt8) : Option Json :=
  (String.fromUTF8? ⟨bytes.toArray⟩).bind Json.parse?

/-- The actions in a JSON value: a list of them, or a single one. -/
def actionsOfJson : Json → Except PayloadFlaw (List Action)
  | .array items => (Action.ofItems items).mapError .badAction
  | .object fields => ((Action.ofJson (.object fields)).map ([·])).mapError .badAction
  | other => .error (.notActions other)

/-- Read and check a header value. -/
def decode (limits : PayloadLimits) (header : String) : Except PayloadFlaw (List Action) := do
  let header := Text.trim header
  if limits.maxBytes < header.utf8ByteSize then
    .error (.tooLong header.utf8ByteSize limits.maxBytes)
  let some bytes := Base64.decode? header | .error .notBase64
  let some value := jsonOfBytes? bytes | .error .notJson
  let actions ← actionsOfJson value
  validate limits actions
  return actions

end Payload

end Relay
