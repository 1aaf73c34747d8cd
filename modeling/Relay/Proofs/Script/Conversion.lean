import Relay.Proofs.Json.Leaves
import Relay.Proofs.Json.RoundTrip
import Relay.Proofs.Script.Footprint

/-! # Values and JSON

A script holds JSON as a value and gives it back as JSON. Arrays, objects, keys and strings come
back as they were, and an integer beyond the signed words comes back as the nearest double,
`toJson_ofJson`. Nothing else is lost on the way in and back, and on the way out and back nothing
but doubles that are not finite, `conversion_lossless`.
-/

namespace Relay

namespace Json

/-- A double as JSON, null if it is not finite. -/
def ofFloat (x : Float) : Json :=
  if x.isFinite then .float x else .null

/-- What a leaf has become when a script gives it back. -/
def narrow : Json → Json
  | .int n =>
    if n.val < 0x8000_0000_0000_0000 then .int n
    else ofFloat (UInt64.ofNat n.val.toNat).toFloat
  | .float x => ofFloat x
  | other => other

/-- What a value has become when a script gives it back. -/
def narrowed (j : Json) : Json :=
  j.mapLeaves narrow

/-- A script can hold the leaf as it is: an integer is a signed word and a double is finite. -/
def Holdable : Json → Prop
  | .int n => n.val < 0x8000_0000_0000_0000
  | .float x => x.isFinite = true
  | _ => True

theorem ofFloat_ne_int (x : Float) (n : ExactInt) : ofFloat x ≠ .int n := by
  rw [ofFloat]
  split <;> exact nofun

theorem narrow_eq_self_iff (leaf : Json) : leaf.narrow = leaf ↔ leaf.Holdable := by
  cases leaf with
  | int n =>
    rw [narrow, Holdable]
    split
    · rename_i fits
      exact iff_of_true rfl fits
    · rename_i great
      exact iff_of_false (ofFloat_ne_int _ n) great
  | float x =>
    rw [narrow, Holdable, ofFloat]
    split
    · rename_i finite
      exact iff_of_true rfl finite
    · rename_i infinite
      exact iff_of_false nofun infinite
  | _ => exact iff_of_true rfl trivial

/-- A script gives a value back as it was exactly if it can hold each of its leaves. -/
theorem narrowed_eq_self_iff (j : Json) : j.narrowed = j ↔ ∀ leaf ∈ j.leaves, leaf.Holdable := by
  rw [narrowed, mapLeaves_eq_self_iff]
  exact forall₂_congr fun leaf _ => narrow_eq_self_iff leaf

end Json

namespace Script.Value

/-- A signed word that is written as an exact integer comes back. -/
theorem ofExactInt_ofInt64 (n : Int64) : ofExactInt (.ofInt64 n) = int n := by
  have fits : (ExactInt.ofInt64 n).val < 0x8000_0000_0000_0000 := n.toInt_lt
  rw [ofExactInt, if_pos fits]
  exact congrArg int (Int64.ofInt_toInt n)

theorem toJson_ofExactInt (n : ExactInt) : (ofExactInt n).toJson = Json.narrow (.int n) := by
  obtain ⟨val, least, greatest⟩ := n
  rw [ofExactInt, Json.narrow]
  split
  · rename_i fits
    simp only [toJson, ExactInt.ofInt64, Int64.toInt_ofInt_of_le least fits]
  · rfl

mutual

/-- A value of JSON that a script has held and gives back. -/
theorem toJson_ofJson (j : Json) : (ofJson j).toJson = j.narrowed := by
  cases j with
  | int n => exact toJson_ofExactInt n
  | array items =>
    rw [ofJson, toJson, toJsonItems_eq, ofJsonItems_eq]
    exact congrArg Json.array (toJson_ofJson_items items)
  | object fields =>
    rw [ofJson, toJson, toJsonEntries_eq, ofJsonFields_eq]
    exact congrArg Json.object (toJson_ofJson_fields fields)
  | _ => rfl

theorem toJson_ofJson_items (items : List Json) :
    (items.map ofJson).map toJson = Json.mapLeavesItems Json.narrow items := by
  cases items with
  | nil => rfl
  | cons item rest =>
    rw [List.map_cons, List.map_cons, toJson_ofJson, toJson_ofJson_items, Json.mapLeavesItems]
    rfl

theorem toJson_ofJson_fields (fields : List (String × Json)) :
    (fields.map fun field => (field.1, ofJson field.2)).map
        (fun entry => (entry.1, toJson entry.2)) =
      Json.mapLeavesFields Json.narrow fields := by
  cases fields with
  | nil => rfl
  | cons field rest =>
    rw [List.map_cons, List.map_cons, toJson_ofJson, toJson_ofJson_fields, Json.mapLeavesFields]
    rfl

end

/-! ## Values written as JSON -/

mutual

/-- Every double in the value has a property. -/
def EveryFloat (p : Float → Prop) : Value → Prop
  | null => True
  | bool _ => True
  | int _ => True
  | float x => p x
  | string _ => True
  | list items => EveryFloatItems p items
  | map entries => EveryFloatEntries p entries

/-- Every double in the items has a property. -/
def EveryFloatItems (p : Float → Prop) : List Value → Prop
  | [] => True
  | item :: rest => item.EveryFloat p ∧ EveryFloatItems p rest

/-- Every double in the entries has a property. -/
def EveryFloatEntries (p : Float → Prop) : List (String × Value) → Prop
  | [] => True
  | (_, value) :: rest => value.EveryFloat p ∧ EveryFloatEntries p rest

end

mutual

theorem EveryFloat.imp {p q : Float → Prop} (weaker : ∀ x, p x → q x) {v : Value}
    (every : v.EveryFloat p) : v.EveryFloat q := by
  cases v with
  | float x => exact weaker x every
  | list items => exact EveryFloatItems.imp weaker every
  | map entries => exact EveryFloatEntries.imp weaker every
  | _ => trivial

theorem EveryFloatItems.imp {p q : Float → Prop} (weaker : ∀ x, p x → q x) {items : List Value}
    (every : EveryFloatItems p items) : EveryFloatItems q items := by
  cases items with
  | nil => trivial
  | cons item rest => exact ⟨EveryFloat.imp weaker every.1, EveryFloatItems.imp weaker every.2⟩

theorem EveryFloatEntries.imp {p q : Float → Prop} (weaker : ∀ x, p x → q x)
    {entries : List (String × Value)} (every : EveryFloatEntries p entries) :
    EveryFloatEntries q entries := by
  cases entries with
  | nil => trivial
  | cons entry rest => exact ⟨EveryFloat.imp weaker every.1, EveryFloatEntries.imp weaker every.2⟩

end

mutual

/-- A value comes back from JSON as it was exactly if its doubles are finite. -/
theorem stored_eq_self_iff (v : Value) : v.stored = v ↔ v.EveryFloat (·.isFinite = true) := by
  cases v with
  | int n => exact iff_of_true (ofExactInt_ofInt64 n) trivial
  | float x =>
    rw [stored, toJson, EveryFloat]
    split
    · rename_i finite
      exact iff_of_true rfl finite
    · rename_i infinite
      exact iff_of_false nofun infinite
  | list items =>
    rw [stored_list, list.injEq]
    exact storedItems_eq_self_iff items
  | map entries =>
    rw [stored_map, map.injEq]
    exact storedEntries_eq_self_iff entries
  | _ => exact iff_of_true rfl trivial

theorem storedItems_eq_self_iff (items : List Value) :
    items.map stored = items ↔ EveryFloatItems (·.isFinite = true) items := by
  cases items with
  | nil => exact iff_of_true rfl trivial
  | cons item rest =>
    rw [List.map_cons, List.cons.injEq, stored_eq_self_iff, storedItems_eq_self_iff]
    exact Iff.rfl

theorem storedEntries_eq_self_iff (entries : List (String × Value)) :
    (entries.map fun entry => (entry.1, entry.2.stored)) = entries ↔
      EveryFloatEntries (·.isFinite = true) entries := by
  cases entries with
  | nil => exact iff_of_true rfl trivial
  | cons entry rest =>
    rw [List.map_cons, List.cons.injEq, Prod.mk.injEq, stored_eq_self_iff,
      storedEntries_eq_self_iff, and_iff_right rfl]
    exact Iff.rfl

end

mutual

/-- JSON has no other numbers than the value it is made of. -/
theorem integral_toJson {v : Value} (none : v.EveryFloat fun _ => False) : v.toJson.Integral := by
  cases v with
  | float x => exact none.elim
  | list items =>
    rw [toJson, toJsonItems_eq]
    exact integral_toJsonItems none
  | map entries =>
    rw [toJson, toJsonEntries_eq]
    exact integral_toJsonEntries none
  | _ => trivial

theorem integral_toJsonItems {items : List Value} (none : EveryFloatItems (fun _ => False) items) :
    Json.IntegralItems (items.map toJson) := by
  cases items with
  | nil => trivial
  | cons item rest => exact ⟨integral_toJson none.1, integral_toJsonItems none.2⟩

theorem integral_toJsonEntries {entries : List (String × Value)}
    (none : EveryFloatEntries (fun _ => False) entries) :
    Json.IntegralFields (entries.map fun entry => (entry.1, entry.2.toJson)) := by
  cases entries with
  | nil => trivial
  | cons entry rest => exact ⟨integral_toJson none.1, integral_toJsonEntries none.2⟩

end

mutual

/-- A value nests as deep as the JSON that is made of it. -/
theorem depth_toJson (v : Value) : v.toJson.depth = v.levels := by
  cases v with
  | float x =>
    rw [toJson]
    split <;> rfl
  | list items =>
    rw [toJson, toJsonItems_eq, levels, ← Nat.zero_max (levelsItems items)]
    exact congrArg (1 + ·) (depthItems_toJson 0 items)
  | map entries =>
    rw [toJson, toJsonEntries_eq, levels, ← Nat.zero_max (levelsEntries entries)]
    exact congrArg (1 + ·) (depthFields_toJson 0 entries)
  | _ => rfl

theorem depthItems_toJson (greatest : Nat) (items : List Value) :
    Json.depthItems greatest (items.map toJson) = max greatest (levelsItems items) := by
  cases items with
  | nil => exact (Nat.max_zero greatest).symm
  | cons item rest =>
    rw [List.map_cons, Json.depthItems, depthItems_toJson, depth_toJson, levelsItems,
      Nat.max_assoc]

theorem depthFields_toJson (greatest : Nat) (entries : List (String × Value)) :
    Json.depthFields greatest (entries.map fun entry => (entry.1, entry.2.toJson)) =
      max greatest (levelsEntries entries) := by
  cases entries with
  | nil => exact (Nat.max_zero greatest).symm
  | cons entry rest =>
    rw [List.map_cons, Json.depthFields, depthFields_toJson, depth_toJson, levelsEntries,
      Nat.max_assoc]

end

/-- A value comes back from JSON exactly if its doubles are finite, as those of JSON are, and JSON
comes back from a script exactly if its integers are signed words. However that is, the size of a
value stays: there is none if lists and maps nest deeper than allowed, and otherwise it counts 32
bytes for each value in the tree and the bytes of all strings and keys. -/
theorem conversion_lossless (v : Value) (j : Json) (depth : Nat) :
    (ofJson v.toJson = v ↔ v.EveryFloat (·.isFinite = true)) ∧
      ((ofJson j).toJson = j ↔ ∀ leaf ∈ j.leaves, leaf.Holdable) ∧
      (ofJson v.toJson).footprint depth = v.footprint depth ∧
      v.footprint depth =
        if v.levels ≤ depth then some (32 * v.parts.length + textBytes v.texts) else none := by
  refine ⟨stored_eq_self_iff v, ?_, footprint_stored depth v, footprint_eq depth v⟩
  rw [toJson_ofJson]
  exact Json.narrowed_eq_self_iff j

end Script.Value

end Relay
