import Relay.Proofs.Json.Reading

/-! # Levels of reading

A reader that may go deeper reads what it read before in the same way, `readValue_mono`. So the
nesting of a written value alone decides whether its text is read: with a level for each array and
object inside one another it is read back, and with one level less it is refused,
`parse?_compact_eq`.
-/

namespace Relay.Json

open Text (Reader skipSpace)

/-- A reader reads all that another one reads, in the same way. -/
def Covers {α : Type} (wide narrow : Reader α) : Prop :=
  ∀ ⦃s : List Char⦄ ⦃read : α × List Char⦄, narrow s = some read → wide s = some read

variable {wide narrow : Reader Json}

theorem Covers.readItems (covers : Covers wide narrow) (bound : List Char) (taken : List Json) :
    Covers (Json.readItems wide bound taken) (Json.readItems narrow bound taken) := by
  induction bound generalizing taken with
  | nil => exact nofun
  | cons _ bound ih =>
    intro s result read
    simp only [Json.readItems, Option.bind_eq_bind, Option.bind_eq_some_iff] at read ⊢
    obtain ⟨⟨value, rest⟩, first, read⟩ := read
    refine ⟨(value, rest), covers first, ?_⟩
    split at read
    · exact ih _ read
    · exact read
    · cases read

theorem Covers.readFields (covers : Covers wide narrow) (bound : List Char)
    (taken : List (String × Json)) :
    Covers (Json.readFields wide bound taken) (Json.readFields narrow bound taken) := by
  induction bound generalizing taken with
  | nil => exact nofun
  | cons _ bound ih =>
    intro s result read
    simp only [Json.readFields] at read ⊢
    split at read
    · simp only [Option.bind_eq_bind, Option.bind_eq_some_iff] at read ⊢
      obtain ⟨⟨key, rest⟩, named, read⟩ := read
      refine ⟨(key, rest), named, ?_⟩
      split at read
      · simp only [Option.bind_eq_some_iff] at read ⊢
        obtain ⟨⟨value, rest⟩, first, read⟩ := read
        refine ⟨(value, rest), covers first, ?_⟩
        split at read
        · exact ih _ read
        · exact read
        · cases read
      · cases read
    · cases read

/-- A reader of values covers another one if the reader inside it, if there is one, does. -/
theorem Covers.readValueWith {wide narrow : Option (Reader Json)}
    (covers : ∀ inner ∈ narrow, ∃ outer ∈ wide, Covers outer inner) :
    Covers (Json.readValueWith wide) (Json.readValueWith narrow) := by
  intro s result read
  simp only [Json.readValueWith] at read ⊢
  split at read
  · exact read
  · exact read
  · exact read
  · exact read
  · obtain ⟨inner, given, read⟩ := Option.bind_eq_some_iff.1 read
    obtain ⟨outer, there, covers⟩ := covers inner given
    refine Option.bind_eq_some_iff.2 ⟨outer, there, ?_⟩
    split at read
    · exact read
    · obtain ⟨items, more, same⟩ := Option.map_eq_some_iff.1 read
      exact Option.map_eq_some_iff.2 ⟨items, covers.readItems _ _ more, same⟩
  · obtain ⟨inner, given, read⟩ := Option.bind_eq_some_iff.1 read
    obtain ⟨outer, there, covers⟩ := covers inner given
    refine Option.bind_eq_some_iff.2 ⟨outer, there, ?_⟩
    split at read
    · exact read
    · obtain ⟨fields, more, same⟩ := Option.map_eq_some_iff.1 read
      exact Option.map_eq_some_iff.2 ⟨fields, covers.readFields _ _ more, same⟩
  · exact read

/-- With more levels a value is read in the same way. -/
theorem readValue_mono {levels more : Nat} (fits : levels ≤ more) :
    Covers (readValue more) (readValue levels) := by
  induction levels generalizing more with
  | zero => cases more <;> exact Covers.readValueWith nofun
  | succ level ih =>
    obtain ⟨further, rfl⟩ : ∃ n, more = n + 1 := ⟨more - 1, by omega⟩
    apply Covers.readValueWith
    rintro _ ⟨⟩
    exact ⟨_, rfl, ih (by omega)⟩

/-- A written value is read back exactly if it nests no deeper than JSON text may. -/
theorem parse?_compact_eq {j : Json} (ordered : j.Ordered) (integral : j.Integral) :
    parse? j.compact = if j.depth ≤ nestingLimit then some j else none := by
  split
  · rename_i shallow
    exact parse?_compact ordered integral shallow
  · rename_i deep
    -- With levels enough the text is read as the value, so with fewer it is not read as another.
    apply Option.eq_none_iff_forall_ne_some.2
    intro value parsed
    simp only [parse?, parseNested?, Option.bind_eq_bind, Option.bind_eq_some_iff] at parsed
    obtain ⟨⟨other, rest⟩, read, -⟩ := parsed
    rw [toList_compact] at read
    have whole := readValue_chars j ordered integral j.depth (Nat.le_refl _) [] endsNumber_nil
    rw [List.append_nil] at whole
    have again := readValue_mono (Nat.le_of_lt (Nat.not_le.1 deep)) read
    cases whole.symm.trans again
    exact deep (readValue_tidy read).2

end Relay.Json
