import Relay.Json.Printer
import Relay.Decimal.Layout

/-!
# Values of scripts

What script expressions stand for. Values are like JSON, except that integers are signed words of
64 bits and doubles may be infinite or not a number. Converting JSON to a value turns a greater
integer into a double, and converting back turns a double that is not finite into null.
-/

namespace Relay.Script

/-- A value. The keys of a map ascend. -/
inductive Value where
  | null
  | bool (b : Bool)
  | int (n : Int64)
  | float (x : Float)
  | string (s : String)
  | list (items : List Value)
  | map (entries : List (String × Value))
deriving Inhabited

/-- The type of a value, as messages name it. -/
inductive ValueType where
  | null
  | bool
  | int
  | float
  | string
  | list
  | map
deriving DecidableEq, Repr

/-- The name of a type. -/
def ValueType.text : ValueType → String
  | null => "null"
  | bool => "bool"
  | int => "int"
  | float => "float"
  | string => "string"
  | list => "list"
  | map => "map"

/-- The double that is nearest to an integer. -/
def nearestDouble (n : Int64) : Float :=
  Float.ofInt n.toInt

namespace Value

/-- The type of a value. -/
def type : Value → ValueType
  | null => .null
  | bool _ => .bool
  | int _ => .int
  | float _ => .float
  | string _ => .string
  | list _ => .list
  | map _ => .map

/-- An exact integer of JSON: a word if it fits, else the nearest double. -/
def ofExactInt (n : ExactInt) : Value :=
  if n.val < 0x8000_0000_0000_0000 then int (Int64.ofInt n.val)
  else float (UInt64.ofNat n.val.toNat).toFloat

mutual

/-- The value of JSON. -/
def ofJson : Json → Value
  | .null => null
  | .bool b => bool b
  | .int n => ofExactInt n
  | .float x => float x
  | .string s => string s
  | .array items => list (ofJsonItems [] items)
  | .object fields => map (ofJsonFields [] fields)

/-- The values of items, after those that are converted, which are held last first. -/
def ofJsonItems (converted : List Value) : List Json → List Value
  | [] => converted.reverse
  | item :: rest => ofJsonItems (ofJson item :: converted) rest

/-- The values of fields, after those that are converted, which are held last first. -/
def ofJsonFields (converted : List (String × Value)) :
    List (String × Json) → List (String × Value)
  | [] => converted.reverse
  | (key, value) :: rest => ofJsonFields ((key, ofJson value) :: converted) rest

end

mutual

/-- A value as JSON. -/
def toJson : Value → Json
  | null => .null
  | bool b => .bool b
  | int n => .int (.ofInt64 n)
  | float x => if x.isFinite then .float x else .null
  | string s => .string s
  | list items => .array (toJsonItems [] items)
  | map entries => .object (toJsonEntries [] entries)

/-- Items as JSON, after those that are converted, which are held last first. -/
def toJsonItems (converted : List Json) : List Value → List Json
  | [] => converted.reverse
  | item :: rest => toJsonItems (toJson item :: converted) rest

/-- Entries as JSON, after those that are converted, which are held last first. -/
def toJsonEntries (converted : List (String × Json)) :
    List (String × Value) → List (String × Json)
  | [] => converted.reverse
  | (key, value) :: rest => toJsonEntries ((key, toJson value) :: converted) rest

end

mutual

/-- Whether two values are the same in type and content: an integer is never the same as a double,
and a double that is not a number is not even the same as itself. -/
def same : Value → Value → Bool
  | null, null => true
  | bool a, bool b => a == b
  | int a, int b => a == b
  | float a, float b => a == b
  | string a, string b => a == b
  | list xs, list ys => sameItems xs ys
  | map xs, map ys => sameEntries xs ys
  | _, _ => false

/-- Whether two lists have the same items in order. -/
def sameItems : List Value → List Value → Bool
  | [], [] => true
  | x :: xs, y :: ys => if same x y then sameItems xs ys else false
  | _, _ => false

/-- Whether two maps have the same entries. -/
def sameEntries : List (String × Value) → List (String × Value) → Bool
  | [], [] => true
  | (j, x) :: xs, (k, y) :: ys =>
    if j = k then (if same x y then sameEntries xs ys else false) else false
  | _, _ => false

end

/-- Values that count as true: all but null, false, zero, not-a-number and the empty string. -/
def truthy : Value → Bool
  | null => false
  | bool b => b
  | int n => n != 0
  | float x => !(x == 0) && !x.isNaN
  | string s => !s.isEmpty
  | list _ => true
  | map _ => true

/-- A double as text: plain notation, and zero without a sign. -/
def floatText (x : Float) : String :=
  if x == 0 then "0" else Decimal.plain x

/-- A value as text: strings as they are, lists and maps as JSON. -/
def display : Value → String
  | null => "null"
  | bool b => if b then "true" else "false"
  | int n => toString n.toInt
  | float x => floatText x
  | string s => s
  | list items => (toJson (list items)).compact
  | map entries => (toJson (map entries)).compact

/-- The bytes that every value counts for. -/
def slotBytes : Nat := 32

mutual

/-- The size of a value: a slot for each value in it, and the bytes of its strings and keys. There
is none for lists and maps that nest deeper than allowed. -/
def footprint (depth : Nat) : Value → Option Nat
  | null => some slotBytes
  | bool _ => some slotBytes
  | int _ => some slotBytes
  | float _ => some slotBytes
  | string s => some (slotBytes + s.utf8ByteSize)
  | list items =>
    match depth with
    | 0 => none
    | depth + 1 => footprintItems depth slotBytes items
  | map entries =>
    match depth with
    | 0 => none
    | depth + 1 => footprintEntries depth slotBytes entries

/-- The size of items, added to a size. -/
def footprintItems (depth total : Nat) : List Value → Option Nat
  | [] => some total
  | item :: rest =>
    match footprint depth item with
    | none => none
    | some bytes => footprintItems depth (total + bytes) rest

/-- The size of entries, added to a size. -/
def footprintEntries (depth total : Nat) : List (String × Value) → Option Nat
  | [] => some total
  | (key, value) :: rest =>
    match footprint depth value with
    | none => none
    | some bytes => footprintEntries depth (total + key.utf8ByteSize + bytes) rest

end

end Value

/-- A step into a value: by name or by position. -/
inductive Key where
  | name (s : String)
  | position (n : Nat)
deriving DecidableEq, Repr

/-- The key of a map entry that a step addresses: a position stands for its digits. -/
def Key.text : Key → String
  | name s => s
  | position n => toString n

end Relay.Script
