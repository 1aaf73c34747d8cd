import Relay.Json.Basic

/-!
# Reading typed data out of JSON

Settings, node identities and requests are records with named fields. A record is written as an
object, whose unknown fields are ignored, or as an array of its field values in declaration order,
which may end early. A field that is absent takes its default; a field that is present must have
its type, and only an optional field may be null.
-/

namespace Relay

namespace Json

/-- A string. -/
def asString? : Json → Option String
  | string s => some s
  | _ => none

/-- A truth value. -/
def asBool? : Json → Option Bool
  | bool b => some b
  | _ => none

/-- A natural number below a bound. -/
def asNatBelow? (bound : Nat) : Json → Option Nat
  | int n => if 0 ≤ n.val ∧ n.val < bound then some n.val.toNat else none
  | _ => none

/-- An unsigned number of 16 bits. -/
def asUInt16? (j : Json) : Option UInt16 :=
  (j.asNatBelow? UInt16.size).map UInt16.ofNat

/-- An unsigned number of 32 bits. -/
def asUInt32? (j : Json) : Option UInt32 :=
  (j.asNatBelow? UInt32.size).map UInt32.ofNat

/-- An unsigned number of 64 bits. -/
def asUInt64? (j : Json) : Option UInt64 :=
  (j.asNatBelow? UInt64.size).map UInt64.ofNat

/-- A count of 64 bits as a natural number. -/
def asCount? (j : Json) : Option Nat :=
  j.asNatBelow? UInt64.size

/-- A double; an integer is converted. -/
def asFloat? : Json → Option Float
  | float x => some x
  | int n => some (Float.ofInt n.val)
  | _ => none

/-- An array whose items all have one type. -/
def asList? {α : Type} (item : Json → Option α) : Json → Option (List α)
  | array items => items.mapM item
  | _ => none

/-- An object whose values all have one type. -/
def asDict? {α : Type} (value : Json → Option α) : Json → Option (Dict α)
  | object fields => do
    let entries ← fields.mapM fun field => (value field.2).map (Prod.mk field.1)
    return Dict.ofList entries
  | _ => none

end Json

/-- Field values by field name. -/
structure Record where
  fields : List (String × Json)

namespace Record

/-- The fields of a record with the given field names. -/
def ofJson? (names : List String) : Json → Option Record
  | .object fields => some ⟨fields⟩
  | .array items => if items.length ≤ names.length then some ⟨names.zip items⟩ else none
  | _ => none

/-- A field that has to be there. -/
def required {α : Type} (r : Record) (name : String) (read : Json → Option α) : Option α :=
  (r.fields.lookup name).bind read

/-- A field with a default. -/
def withDefault {α : Type} (r : Record) (name : String) (default : α) (read : Json → Option α) :
    Option α :=
  match r.fields.lookup name with
  | none => some default
  | some value => read value

/-- A field that may be absent or null. -/
def optional {α : Type} (r : Record) (name : String) (read : Json → Option α) :
    Option (Option α) :=
  match r.fields.lookup name with
  | none => some none
  | some .null => some none
  | some value => (read value).map some

end Record

end Relay
