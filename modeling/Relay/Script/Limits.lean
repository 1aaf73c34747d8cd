import Relay.Script.Error
import Relay.Json.Record

/-!
# Limits of the sandbox

How long a script may run and how much it may hold.
-/

namespace Relay.Script

/-- The limits of every script that a sandbox runs. -/
structure Limits where
  /-- The time for one run in milliseconds. -/
  timeoutMs : Nat := 3000
  maxSourceBytes : Nat := 65536
  /-- The greatest string that a script may build. -/
  maxStringBytes : Nat := 1048576
  /-- The greatest size of a value, and of all that one run holds together. -/
  maxValueBytes : Nat := 8388608
  /-- How deep the text of a script may nest. -/
  maxNesting : Nat := 64
deriving DecidableEq

namespace Limits

/-- How deep lists and maps may nest in a value. -/
def maxDepth : Nat := 128

/-- The fields in the order in which a positional record lists them. -/
def fieldNames : List String :=
  ["timeout_ms", "max_source_bytes", "max_string_bytes", "max_value_bytes", "max_nesting"]

/-- Read limits; every field has a default. -/
def ofJson? (j : Json) : Option Limits := do
  let r ← Record.ofJson? fieldNames j
  let timeoutMs ← r.withDefault "timeout_ms" 3000 Json.asCount?
  let maxSourceBytes ← r.withDefault "max_source_bytes" 65536 Json.asCount?
  let maxStringBytes ← r.withDefault "max_string_bytes" 1048576 Json.asCount?
  let maxValueBytes ← r.withDefault "max_value_bytes" 8388608 Json.asCount?
  let maxNesting ← r.withDefault "max_nesting" 64 Json.asCount?
  return { timeoutMs, maxSourceBytes, maxStringBytes, maxValueBytes, maxNesting }

/-- Limits as JSON. -/
def toJson (limits : Limits) : Json :=
  Json.ofFields [("timeout_ms", Json.ofNat limits.timeoutMs),
    ("max_source_bytes", Json.ofNat limits.maxSourceBytes),
    ("max_string_bytes", Json.ofNat limits.maxStringBytes),
    ("max_value_bytes", Json.ofNat limits.maxValueBytes),
    ("max_nesting", Json.ofNat limits.maxNesting)]

/-- The first flaw of the limits, if they have one. -/
def flaw? (limits : Limits) : Option ConfigFlaw :=
  if limits.timeoutMs < 1 then some .timeoutTooShort
  else if 60000 < limits.timeoutMs then some (.timeoutTooLong limits.timeoutMs)
  else if limits.maxSourceBytes = 0 then some .noSourceBytes
  else if limits.maxStringBytes = 0 then some .noStringBytes
  else if limits.maxValueBytes = 0 then some .noValueBytes
  else if limits.maxNesting = 0 ∨ 256 < limits.maxNesting then
    some (.nestingOutOfRange limits.maxNesting)
  else none

/-- The size of a value that a script may build. -/
def measure (limits : Limits) (v : Value) : Except ScriptError Nat := do
  if let .string s := v then
    if limits.maxStringBytes < s.utf8ByteSize then
      .error (.fault (.stringTooLong s.utf8ByteSize limits.maxStringBytes))
  match v.footprint maxDepth with
  | none => .error (.fault (.tooDeep maxDepth))
  | some bytes =>
    if limits.maxValueBytes < bytes then
      .error (.fault (.valueTooLarge bytes limits.maxValueBytes))
    else return bytes

/-- A value, if a script may build it. -/
def accept (limits : Limits) (v : Value) : Except ScriptError Value :=
  match limits.measure v with
  | .ok _ => .ok v
  | .error e => .error e

end Limits

end Relay.Script
