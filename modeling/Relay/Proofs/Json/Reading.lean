import Relay.Proofs.Json.RoundTrip

/-! # What reading gives

Whatever a text looks like, the value that is read from it has the fields of its objects in
ascending order and nests no deeper than the reader may go. One turn of the loops over items and
over fields keeps this of what was read so far.
-/

namespace Relay.Json

open Text (Reader skipSpace)

theorem orderedItems_iff {items : List Json} :
    OrderedItems items ↔ ∀ item ∈ items, item.Ordered := by
  induction items with
  | nil => simp [OrderedItems]
  | cons item rest ih => simp [OrderedItems, ih]

theorem orderedFields_iff {fields : List (String × Json)} :
    OrderedFields fields ↔ ∀ field ∈ fields, field.2.Ordered := by
  induction fields with
  | nil => simp [OrderedFields]
  | cons field rest ih => simp [OrderedFields, ih]

/-- The fields of every object ascend, and arrays and objects nest at most so many levels. -/
def Tidy (levels : Nat) (j : Json) : Prop :=
  j.Ordered ∧ j.depth ≤ levels

theorem tidy_array {levels : Nat} {items : List Json} (tidy : ∀ item ∈ items, item.Tidy levels) :
    (array items).Tidy (levels + 1) := by
  constructor
  · apply orderedItems_iff.2
    intro item member
    exact (tidy item member).1
  · refine depth_array_le.2 ⟨levels, rfl, ?_⟩
    intro item member
    exact (tidy item member).2

theorem tidy_object {levels : Nat} {fields : List (String × Json)}
    (ascending : Fields.Ascending fields) (tidy : ∀ field ∈ fields, field.2.Tidy levels) :
    (object fields).Tidy (levels + 1) := by
  constructor
  · refine ⟨ascending, orderedFields_iff.2 ?_⟩
    intro field member
    exact (tidy field member).1
  · refine depth_object_le.2 ⟨levels, rfl, ?_⟩
    intro field member
    exact (tidy field member).2

theorem Tidy.items {levels : Nat} {items : List Json} (tidy : (array items).Tidy levels) :
    ∃ level, levels = level + 1 ∧ ∀ item ∈ items, item.Tidy level := by
  obtain ⟨ordered, shallow⟩ := tidy
  obtain ⟨level, same, inside⟩ := depth_array_le.1 shallow
  refine ⟨level, same, ?_⟩
  intro item member
  exact ⟨orderedItems_iff.1 ordered item member, inside item member⟩

theorem Tidy.fields {levels : Nat} {fields : List (String × Json)}
    (tidy : (object fields).Tidy levels) :
    ∃ level, levels = level + 1 ∧ ∀ field ∈ fields, field.2.Tidy level := by
  obtain ⟨⟨-, ordered⟩, shallow⟩ := tidy
  obtain ⟨level, same, inside⟩ := depth_object_le.1 shallow
  refine ⟨level, same, ?_⟩
  intro field member
  exact ⟨orderedFields_iff.1 ordered field member, inside field member⟩

private theorem readItems_tidy {levels : Nat} {item : Reader Json}
    (reads : ∀ s j rest, item s = some (j, rest) → j.Tidy levels) {bound s : List Char}
    {taken items : List Json} {rest : List Char} (before : ∀ j ∈ taken, j.Tidy levels)
    (read : readItems item bound taken s = some (items, rest)) : ∀ j ∈ items, j.Tidy levels := by
  induction bound generalizing s taken with
  | nil => simp [readItems] at read
  | cons b bound ih =>
    simp only [readItems, Option.bind_eq_bind, Option.bind_eq_some_iff] at read
    obtain ⟨⟨value, after⟩, one, read⟩ := read
    have now : ∀ j ∈ value :: taken, j.Tidy levels :=
      List.forall_mem_cons.2 ⟨reads s value after one, before⟩
    split at read
    · exact ih now read
    · cases read
      intro j member
      exact now j (List.mem_reverse.1 member)
    · cases read

private theorem readFields_tidy {levels : Nat} {item : Reader Json}
    (reads : ∀ s j rest, item s = some (j, rest) → j.Tidy levels) {bound s : List Char}
    {taken fields : List (String × Json)} {rest : List Char}
    (before : Fields.Ascending taken ∧ ∀ field ∈ taken, field.2.Tidy levels)
    (read : readFields item bound taken s = some (fields, rest)) :
    Fields.Ascending fields ∧ ∀ field ∈ fields, field.2.Tidy levels := by
  induction bound generalizing s taken with
  | nil => simp [readFields] at read
  | cons b bound ih =>
    simp only [readFields] at read
    split at read
    · simp only [Option.bind_eq_bind, Option.bind_eq_some_iff] at read
      obtain ⟨⟨key, named⟩, -, read⟩ := read
      split at read
      · obtain ⟨⟨value, after⟩, one, read⟩ := Option.bind_eq_some_iff.1 read
        have now : Fields.Ascending (Fields.insert key value taken) ∧
            ∀ field ∈ Fields.insert key value taken, field.2.Tidy levels := by
          refine ⟨Fields.ascending_insert before.1, ?_⟩
          intro field member
          rcases Fields.mem_insert member with rfl | old
          · exact reads _ value after one
          · exact before.2 field old
        dsimp only at read
        split at read
        · exact ih now read
        · cases read
          exact now
        · cases read
      · cases read
    · cases read

/-- Every number is read as an exact integer or as a double. -/
theorem readNumber_cases {s rest : List Char} {j : Json} (read : readNumber s = some (j, rest)) :
    (∃ n, j = int n) ∨ ∃ x, j = float x := by
  have double {text : NumberText} {f : Float → Float}
      (found : text.toFloat?.map (fun x => float (f x)) = some j) : ∃ x, j = float x := by
    obtain ⟨x, -, rfl⟩ := Option.map_eq_some_iff.1 found
    exact ⟨f x, rfl⟩
  have whole {n : Int} (found : (ExactInt.ofInt? n).map int = some j) : ∃ n, j = int n := by
    obtain ⟨exact, -, rfl⟩ := Option.map_eq_some_iff.1 found
    exact ⟨exact, rfl⟩
  have value {text : NumberText} {negative : Bool} (valued : text.value? negative = some j) :
      (∃ n, j = int n) ∨ ∃ x, j = float x := by
    simp only [NumberText.value?] at valued
    split at valued
    · split at valued
      · split at valued
        · exact .inr (double valued)
        · exact (Option.or_eq_some_iff.1 valued).imp whole fun found => double found.2
      · exact (Option.or_eq_some_iff.1 valued).imp whole fun found => double found.2
    · exact .inr (double valued)
  unfold readNumber at read
  split at read <;>
  · simp only [Option.bind_eq_bind, Option.bind_eq_some_iff, Option.pure_def, Option.some.injEq,
      Prod.mk.injEq] at read
    obtain ⟨⟨text, after⟩, -, _, valued, rfl, -⟩ := read
    exact value valued

private theorem readNumber_tidy {s rest : List Char} {j : Json} (levels : Nat)
    (read : readNumber s = some (j, rest)) : j.Tidy levels := by
  rcases readNumber_cases read with ⟨n, rfl⟩ | ⟨x, rfl⟩ <;> exact ⟨trivial, Nat.zero_le _⟩

private theorem readValueWith_tidy {levels : Nat} {nested : Option (Reader Json)}
    (reads : ∀ item, nested = some item → 0 < levels ∧
      ∀ s j rest, item s = some (j, rest) → j.Tidy (levels - 1))
    {s rest : List Char} {j : Json} (read : readValueWith nested s = some (j, rest)) :
    j.Tidy levels := by
  simp only [readValueWith] at read
  split at read
  · cases read; exact ⟨trivial, Nat.zero_le _⟩
  · cases read; exact ⟨trivial, Nat.zero_le _⟩
  · cases read; exact ⟨trivial, Nat.zero_le _⟩
  · obtain ⟨⟨text, after⟩, -, same⟩ := Option.map_eq_some_iff.1 read
    cases same
    exact ⟨trivial, Nat.zero_le _⟩
  · obtain ⟨item, given, read⟩ := Option.bind_eq_some_iff.1 read
    obtain ⟨room, inside⟩ := reads item given
    obtain ⟨level, rfl⟩ : ∃ level, levels = level + 1 := ⟨levels - 1, by omega⟩
    split at read
    · cases read
      exact tidy_array (List.forall_mem_nil _)
    · obtain ⟨⟨items, after⟩, more, same⟩ := Option.map_eq_some_iff.1 read
      cases same
      exact tidy_array (readItems_tidy inside (List.forall_mem_nil _) more)
  · obtain ⟨item, given, read⟩ := Option.bind_eq_some_iff.1 read
    obtain ⟨room, inside⟩ := reads item given
    obtain ⟨level, rfl⟩ : ∃ level, levels = level + 1 := ⟨levels - 1, by omega⟩
    split at read
    · cases read
      exact tidy_object List.Pairwise.nil (List.forall_mem_nil _)
    · obtain ⟨⟨fields, after⟩, more, same⟩ := Option.map_eq_some_iff.1 read
      cases same
      obtain ⟨ascending, tidy⟩ := readFields_tidy inside
        ⟨List.Pairwise.nil, List.forall_mem_nil _⟩ more
      exact tidy_object ascending tidy
  · exact readNumber_tidy levels read

/-- A value that is read within some levels is ordered and nests at most so deep. -/
theorem readValue_tidy {levels : Nat} {s rest : List Char} {j : Json}
    (read : readValue levels s = some (j, rest)) : j.Tidy levels := by
  induction levels generalizing s rest j with
  | zero =>
    refine readValueWith_tidy (fun item given => ?_) read
    cases given
  | succ level ih =>
    refine readValueWith_tidy (fun item given => ?_) read
    cases given
    exact ⟨Nat.succ_pos level, fun s j rest inner => ih inner⟩

theorem parse?_tidy {text : String} {j : Json} (parsed : parse? text = some j) :
    j.Tidy nestingLimit := by
  simp only [parse?, parseNested?, Option.bind_eq_bind, Option.bind_eq_some_iff] at parsed
  obtain ⟨⟨value, rest⟩, read, parsed⟩ := parsed
  split at parsed
  · cases parsed
    exact readValue_tidy read
  · cases parsed

end Relay.Json
