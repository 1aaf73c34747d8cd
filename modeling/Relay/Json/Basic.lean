import Relay.Dict

/-!
# JSON values

The data that requests, stores and answers are made of. Numbers come in two kinds: integers that
fit a signed or an unsigned machine word are kept exactly, and all other numbers are doubles. The
entries of an object ascend by key (`Json.Ordered`); every operation of the library keeps them so.
-/

namespace Relay

/-- An integer that JSON text keeps exactly. -/
structure ExactInt where
  val : Int
  least : -0x8000_0000_0000_0000 ≤ val := by omega
  greatest : val < 0x1_0000_0000_0000_0000 := by omega
deriving DecidableEq

namespace ExactInt

/-- The integer, if it is in range. -/
def ofInt? (n : Int) : Option ExactInt :=
  if h : -0x8000_0000_0000_0000 ≤ n ∧ n < 0x1_0000_0000_0000_0000 then some ⟨n, h.1, h.2⟩ else none

/-- A natural number below `2 ^ 64`. -/
def ofUInt64 (n : UInt64) : ExactInt :=
  ⟨n.toNat, by omega, by have := n.toNat_lt; omega⟩

/-- A signed machine word. -/
def ofInt64 (n : Int64) : ExactInt :=
  ⟨n.toInt, n.le_toInt, by have := n.toInt_lt; omega⟩

@[simp] theorem ofInt?_val (n : ExactInt) : ofInt? n.val = some n := by
  rw [ofInt?, dif_pos ⟨n.least, n.greatest⟩]

end ExactInt

/-- A JSON value. -/
inductive Json where
  | null
  | bool (b : Bool)
  | int (n : ExactInt)
  | float (x : Float)
  | string (s : String)
  | array (items : List Json)
  | object (fields : List (String × Json))
deriving Inhabited

namespace Json

/-- An object of the given entries in ascending order; the last entry of a key stays. -/
def ofFields (fields : List (String × Json)) : Json :=
  object (Fields.ofList fields)

/-- A natural number below `2 ^ 64`. -/
def ofUInt64 (n : UInt64) : Json :=
  int (.ofUInt64 n)

/-- A number of things or milliseconds; a count too large for an exact integer is a double. -/
def ofNat (n : Nat) : Json :=
  ((ExactInt.ofInt? n).map int).getD (float n.toFloat)

theorem ofNat_of_val {exact : ExactInt} {n : Nat} (same : exact.val = n) : ofNat n = int exact := by
  rw [ofNat, ← same, ExactInt.ofInt?_val]
  rfl

/-- The value of a field of an object. -/
def field? (j : Json) (key : String) : Option Json :=
  match j with
  | object fields => fields.lookup key
  | _ => none

mutual

/-- The keys of every object in the value ascend. -/
def Ordered : Json → Prop
  | null => True
  | bool _ => True
  | int _ => True
  | float _ => True
  | string _ => True
  | array items => OrderedItems items
  | object fields => Fields.Ascending fields ∧ OrderedFields fields

/-- Every item is ordered. -/
def OrderedItems : List Json → Prop
  | [] => True
  | item :: rest => item.Ordered ∧ OrderedItems rest

/-- The value of every field is ordered. -/
def OrderedFields : List (String × Json) → Prop
  | [] => True
  | (_, value) :: rest => value.Ordered ∧ OrderedFields rest

end

mutual

/-- How deep arrays and objects nest. -/
def depth : Json → Nat
  | null => 0
  | bool _ => 0
  | int _ => 0
  | float _ => 0
  | string _ => 0
  | array items => 1 + depthItems 0 items
  | object fields => 1 + depthFields 0 fields

/-- The greatest depth of the items, or the given one if that is greater. -/
def depthItems (greatest : Nat) : List Json → Nat
  | [] => greatest
  | item :: rest => depthItems (max greatest item.depth) rest

/-- The greatest depth of the fields, or the given one if that is greater. -/
def depthFields (greatest : Nat) : List (String × Json) → Nat
  | [] => greatest
  | (_, value) :: rest => depthFields (max greatest value.depth) rest

end

/-- Values that count as something: all but null, false, zero, what is not a number, and the empty
text. -/
def truthy : Json → Bool
  | null => false
  | bool b => b
  | int n => n.val != 0
  | float x => !(x == 0 || x.isNaN)
  | string s => !s.isEmpty
  | array _ => true
  | object _ => true

end Json

end Relay
