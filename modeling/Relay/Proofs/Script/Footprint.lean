import Relay.Proofs.Loops
import Relay.Script.Value

/-! # Sizes of values

A value has a size for a depth exactly if it nests no deeper, and the size counts a slot for each
value in its tree and the bytes of each string and key, `footprint_eq`. Written as JSON and read
again a value may change, where a number cannot be kept, but its size does not, `footprint_stored`.
-/

namespace Relay.Script.Value

mutual

/-- How deep lists and maps nest in a value. -/
def levels : Value → Nat
  | list items => 1 + levelsItems items
  | map entries => 1 + levelsEntries entries
  | _ => 0

/-- How deep lists and maps nest in items. -/
def levelsItems : List Value → Nat
  | [] => 0
  | item :: rest => max item.levels (levelsItems rest)

/-- How deep lists and maps nest in entries. -/
def levelsEntries : List (String × Value) → Nat
  | [] => 0
  | (_, value) :: rest => max value.levels (levelsEntries rest)

end

mutual

/-- Only nesting keeps a value from having a size. -/
theorem footprint_isSome_iff (depth : Nat) (v : Value) :
    (v.footprint depth).isSome = true ↔ v.levels ≤ depth := by
  cases v with
  | list items =>
    cases depth with
    | zero => simp [footprint, levels]
    | succ depth =>
      rw [footprint, footprintItems_isSome_iff, levels]
      omega
  | map entries =>
    cases depth with
    | zero => simp [footprint, levels]
    | succ depth =>
      rw [footprint, footprintEntries_isSome_iff, levels]
      omega
  | _ => simp [footprint, levels]

theorem footprintItems_isSome_iff (depth total : Nat) (items : List Value) :
    (footprintItems depth total items).isSome = true ↔ levelsItems items ≤ depth := by
  cases items with
  | nil => simp [footprintItems, levelsItems]
  | cons item rest =>
    have first := footprint_isSome_iff depth item
    rw [footprintItems, levelsItems, Nat.max_le, ← first]
    cases item.footprint depth with
    | none => simp
    | some bytes => simpa using footprintItems_isSome_iff depth (total + bytes) rest

theorem footprintEntries_isSome_iff (depth total : Nat) (entries : List (String × Value)) :
    (footprintEntries depth total entries).isSome = true ↔ levelsEntries entries ≤ depth := by
  cases entries with
  | nil => simp [footprintEntries, levelsEntries]
  | cons entry rest =>
    obtain ⟨key, value⟩ := entry
    have first := footprint_isSome_iff depth value
    rw [footprintEntries, levelsEntries, Nat.max_le, ← first]
    cases value.footprint depth with
    | none => simp
    | some bytes =>
      simpa using footprintEntries_isSome_iff depth (total + key.utf8ByteSize + bytes) rest

end

theorem levels_le_of_footprint {depth bytes : Nat} {v : Value}
    (size : v.footprint depth = some bytes) : v.levels ≤ depth := by
  rw [← footprint_isSome_iff, size]
  rfl

/-! ## What a size counts -/

mutual

/-- The size of a value, however deep it nests. -/
def size : Value → Nat
  | string s => slotBytes + s.utf8ByteSize
  | list items => slotBytes + sizeItems items
  | map entries => slotBytes + sizeEntries entries
  | _ => slotBytes

def sizeItems : List Value → Nat
  | [] => 0
  | item :: rest => item.size + sizeItems rest

def sizeEntries : List (String × Value) → Nat
  | [] => 0
  | (key, value) :: rest => key.utf8ByteSize + value.size + sizeEntries rest

end

mutual

/-- A value that nests no deeper than it may has its size. -/
theorem footprint_of_levels {depth : Nat} {v : Value} (shallow : v.levels ≤ depth) :
    v.footprint depth = some v.size := by
  cases v with
  | list items =>
    rw [levels] at shallow
    cases depth with
    | zero => omega
    | succ depth => exact footprintItems_of_levels slotBytes (by omega)
  | map entries =>
    rw [levels] at shallow
    cases depth with
    | zero => omega
    | succ depth => exact footprintEntries_of_levels slotBytes (by omega)
  | _ => rfl

theorem footprintItems_of_levels {depth : Nat} (total : Nat) {items : List Value}
    (shallow : levelsItems items ≤ depth) :
    footprintItems depth total items = some (total + sizeItems items) := by
  cases items with
  | nil => rfl
  | cons item rest =>
    obtain ⟨first, others⟩ := Nat.max_le.1 shallow
    rw [footprintItems, footprint_of_levels first, sizeItems, ← Nat.add_assoc]
    exact footprintItems_of_levels _ others

theorem footprintEntries_of_levels {depth : Nat} (total : Nat) {entries : List (String × Value)}
    (shallow : levelsEntries entries ≤ depth) :
    footprintEntries depth total entries = some (total + sizeEntries entries) := by
  cases entries with
  | nil => rfl
  | cons entry rest =>
    obtain ⟨key, value⟩ := entry
    obtain ⟨first, others⟩ := Nat.max_le.1 shallow
    rw [footprintEntries, footprint_of_levels first, sizeEntries, ← Nat.add_assoc, ← Nat.add_assoc]
    exact footprintEntries_of_levels _ others

end

theorem footprint_eq_some_iff {depth bytes : Nat} {v : Value} :
    v.footprint depth = some bytes ↔ v.levels ≤ depth ∧ v.size = bytes := by
  constructor
  · intro sized
    have shallow := levels_le_of_footprint sized
    rw [footprint_of_levels shallow] at sized
    exact ⟨shallow, Option.some.inj sized⟩
  · rintro ⟨shallow, rfl⟩
    exact footprint_of_levels shallow

mutual

/-- The values in the tree of a value: itself and all that it holds. -/
def parts : Value → List Value
  | list items => list items :: partsItems items
  | map entries => map entries :: partsEntries entries
  | v => [v]

/-- The values in the trees of items. -/
def partsItems : List Value → List Value
  | [] => []
  | item :: rest => item.parts ++ partsItems rest

/-- The values in the trees of entries. -/
def partsEntries : List (String × Value) → List Value
  | [] => []
  | (_, value) :: rest => value.parts ++ partsEntries rest

end

mutual

/-- The strings and the keys in the tree of a value. -/
def texts : Value → List String
  | string s => [s]
  | list items => textsItems items
  | map entries => textsEntries entries
  | _ => []

/-- The strings and the keys in the trees of items. -/
def textsItems : List Value → List String
  | [] => []
  | item :: rest => item.texts ++ textsItems rest

/-- The keys of entries with the strings and the keys in their trees. -/
def textsEntries : List (String × Value) → List String
  | [] => []
  | (key, value) :: rest => key :: (value.texts ++ textsEntries rest)

end

/-- The bytes of texts. -/
def textBytes : List String → Nat
  | [] => 0
  | s :: rest => s.utf8ByteSize + textBytes rest

@[simp] theorem textBytes_nil : textBytes [] = 0 := rfl

@[simp] theorem textBytes_cons (s : String) (texts : List String) :
    textBytes (s :: texts) = s.utf8ByteSize + textBytes texts := rfl

@[simp] theorem textBytes_append (texts others : List String) :
    textBytes (texts ++ others) = textBytes texts + textBytes others := by
  induction texts with
  | nil => exact (Nat.zero_add _).symm
  | cons s rest ih => rw [List.cons_append, textBytes_cons, textBytes_cons, ih, Nat.add_assoc]

mutual

/-- A size counts a slot for each value and the bytes of each string and key. -/
theorem size_eq (v : Value) : v.size = slotBytes * v.parts.length + textBytes v.texts := by
  cases v with
  | list items =>
    rw [size, parts, texts, sizeItems_eq, List.length_cons, Nat.mul_succ]
    omega
  | map entries =>
    rw [size, parts, texts, sizeEntries_eq, List.length_cons, Nat.mul_succ]
    omega
  | _ => simp [size, parts, texts]

theorem sizeItems_eq (items : List Value) :
    sizeItems items = slotBytes * (partsItems items).length + textBytes (textsItems items) := by
  cases items with
  | nil => rfl
  | cons item rest =>
    rw [sizeItems, partsItems, textsItems, size_eq, sizeItems_eq, List.length_append, Nat.mul_add,
      textBytes_append]
    omega

theorem sizeEntries_eq (entries : List (String × Value)) :
    sizeEntries entries =
      slotBytes * (partsEntries entries).length + textBytes (textsEntries entries) := by
  cases entries with
  | nil => rfl
  | cons entry rest =>
    rw [sizeEntries, partsEntries, textsEntries, size_eq, sizeEntries_eq, List.length_append,
      Nat.mul_add, textBytes_cons, textBytes_append]
    omega

end

theorem footprint_eq (depth : Nat) (v : Value) :
    v.footprint depth =
      if v.levels ≤ depth then some (slotBytes * v.parts.length + textBytes v.texts) else none := by
  split
  · rename_i shallow
    rw [footprint_of_levels shallow, size_eq]
  · rename_i deep
    rw [← Option.not_isSome_iff_eq_none, footprint_isSome_iff]
    exact deep

/-! ## Values written as JSON and read again -/

theorem ofJsonItems_eq (converted : List Value) (items : List Json) :
    ofJsonItems converted items = converted.reverse ++ items.map ofJson := by
  apply loop_eq_map
  · exact fun _ => rfl
  · exact fun _ _ _ => rfl

theorem ofJsonFields_eq (converted : List (String × Value)) (fields : List (String × Json)) :
    ofJsonFields converted fields =
      converted.reverse ++ fields.map fun field => (field.1, ofJson field.2) := by
  apply loop_eq_map
  · exact fun _ => rfl
  · exact fun _ _ _ => rfl

theorem toJsonItems_eq (converted : List Json) (items : List Value) :
    toJsonItems converted items = converted.reverse ++ items.map toJson := by
  apply loop_eq_map
  · exact fun _ => rfl
  · exact fun _ _ _ => rfl

theorem toJsonEntries_eq (converted : List (String × Json)) (entries : List (String × Value)) :
    toJsonEntries converted entries =
      converted.reverse ++ entries.map fun entry => (entry.1, toJson entry.2) := by
  apply loop_eq_map
  · exact fun _ => rfl
  · exact fun _ _ _ => rfl

/-- A value as it comes back from JSON. -/
def stored (v : Value) : Value :=
  ofJson v.toJson

theorem stored_list (items : List Value) : (list items).stored = list (items.map stored) := by
  rw [stored, toJson, toJsonItems_eq, ofJson, ofJsonItems_eq, List.reverse_nil, List.nil_append,
    List.reverse_nil, List.nil_append, List.map_map]
  rfl

theorem stored_map (entries : List (String × Value)) :
    (map entries).stored = map (entries.map fun entry => (entry.1, entry.2.stored)) := by
  rw [stored, toJson, toJsonEntries_eq, ofJson, ofJsonFields_eq, List.reverse_nil,
    List.nil_append, List.reverse_nil, List.nil_append, List.map_map]
  rfl

mutual

/-- A value that comes back from JSON has kept its size. -/
theorem footprint_stored (depth : Nat) (v : Value) :
    v.stored.footprint depth = v.footprint depth := by
  cases v with
  | int n =>
    simp only [stored, toJson, ofJson, ofExactInt]
    split <;> rfl
  | float x =>
    simp only [stored, toJson]
    split <;> rfl
  | list items =>
    rw [stored_list]
    cases depth with
    | zero => rfl
    | succ depth => exact footprintItems_stored depth slotBytes items
  | map entries =>
    rw [stored_map]
    cases depth with
    | zero => rfl
    | succ depth => exact footprintEntries_stored depth slotBytes entries
  | _ => rfl

theorem footprintItems_stored (depth total : Nat) (items : List Value) :
    footprintItems depth total (items.map stored) = footprintItems depth total items := by
  cases items with
  | nil => rfl
  | cons item rest =>
    rw [List.map_cons, footprintItems, footprintItems, footprint_stored]
    cases item.footprint depth with
    | none => rfl
    | some bytes => exact footprintItems_stored depth (total + bytes) rest

theorem footprintEntries_stored (depth total : Nat) (entries : List (String × Value)) :
    footprintEntries depth total (entries.map fun entry => (entry.1, entry.2.stored)) =
      footprintEntries depth total entries := by
  cases entries with
  | nil => rfl
  | cons entry rest =>
    obtain ⟨key, value⟩ := entry
    rw [List.map_cons, footprintEntries, footprintEntries, footprint_stored]
    cases value.footprint depth with
    | none => rfl
    | some bytes => exact footprintEntries_stored depth (total + key.utf8ByteSize + bytes) rest

end

end Relay.Script.Value
