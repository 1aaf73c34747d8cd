import Mathlib.Data.List.Infix
import Relay.Script.Builtin

/-! # Splitting and joining texts

A separator that is not empty is searched for from the left, and behind each place where it is found
the search goes on. So it cuts a text into pieces inside of which it does not begin, not even to end
in the text behind them, `cuts_split`. Whatever the separator is, joining puts the pieces together
again, `callFunction_join_split`.
-/

namespace Relay

namespace Text

/-- No separator begins inside of the piece, not even one that goes on in the text behind it. -/
def Apart (separator piece text : List Char) : Prop :=
  ∀ back, back ≠ [] → back <:+ piece → ¬ separator <+: back ++ text

/-- The separator, searched for from the left, cuts the text into the pieces. -/
inductive Cuts (separator : List Char) : List Char → List (List Char) → Prop
  | last {piece : List Char} (apart : Apart separator piece []) : Cuts separator piece [piece]
  | cut {piece text : List Char} {pieces : List (List Char)}
      (apart : Apart separator piece (separator ++ text)) (cuts : Cuts separator text pieces) :
      Cuts separator (piece ++ separator ++ text) (piece :: pieces)

section Cuts

variable {separator piece text : List Char} {pieces : List (List Char)}

theorem apart_nil (separator text : List Char) : Apart separator [] text :=
  fun _ some back => absurd (List.suffix_nil.1 back) some

theorem Apart.concat {c : Char} (apart : Apart separator piece (c :: text))
    (none : ¬ separator <+: c :: text) : Apart separator (piece ++ [c]) text := by
  intro back some inside
  obtain rfl | ⟨before, rfl, within⟩ := List.suffix_concat_iff.1 inside
  · exact absurd rfl some
  · rw [List.append_assoc, List.singleton_append]
    cases before with
    | nil => exact none
    | cons d ds => exact apart _ (List.cons_ne_nil d ds) within

theorem Apart.lacks_separator (some : separator ≠ []) (apart : Apart separator piece text) :
    ¬ separator <:+: piece := by
  rintro ⟨before, behind, rfl⟩
  have back : separator ++ behind <:+ before ++ separator ++ behind := by
    rw [List.append_assoc]
    exact List.suffix_append _ _
  refine apart _ (List.append_ne_nil_of_left_ne_nil some behind) back ?_
  rw [List.append_assoc]
  exact List.prefix_append _ _

theorem Cuts.ne_nil (cuts : Cuts separator text pieces) : pieces ≠ [] := by
  cases cuts <;> exact List.cons_ne_nil _ _

theorem Cuts.lacks_separator (some : separator ≠ []) (cuts : Cuts separator text pieces) :
    ∀ piece ∈ pieces, ¬ separator <:+: piece := by
  induction cuts with
  | last apart => exact List.forall_mem_singleton.2 (apart.lacks_separator some)
  | cut apart _ ih => exact List.forall_mem_cons.2 ⟨apart.lacks_separator some, ih⟩

/-- The pieces with the separator between them are the text. -/
theorem Cuts.intercalate (cuts : Cuts separator text pieces) :
    separator.intercalate pieces = text := by
  induction cuts with
  | last _ => exact List.intercalate_singleton
  | @cut piece text pieces _ cuts ih =>
    rw [List.intercalate_cons_of_ne_nil cuts.ne_nil, ih]

end Cuts

theorem splitFrom_append (separator : List Char) (skip : Nat) (piece : List Char)
    (pieces : List String) (text : List Char) :
    splitFrom separator skip piece pieces text =
      pieces.reverse ++ splitFrom separator skip piece [] text := by
  induction text generalizing skip piece pieces with
  | nil => exact List.reverse_cons
  | cons c rest ih =>
    cases skip with
    | succ skip => exact ih skip piece pieces
    | zero =>
      rw [splitFrom, splitFrom]
      split
      · rw [ih _ _ (_ :: pieces), ih _ _ [_], List.reverse_cons, List.append_assoc]
        rfl
      · exact ih 0 (c :: piece) pieces

theorem cuts_splitFrom {separator : List Char} (some : separator ≠ []) (skip : Nat)
    (piece text : List Char) (apart : Apart separator piece.reverse (text.drop skip)) :
    Cuts separator (piece.reverse ++ text.drop skip)
      ((splitFrom separator skip piece [] text).map String.toList) := by
  induction text generalizing skip piece with
  | nil =>
    rw [List.drop_nil] at apart ⊢
    rw [List.append_nil]
    simpa [splitFrom] using Cuts.last apart
  | cons c rest ih =>
    cases skip with
    | succ skip => exact ih skip piece apart
    | zero =>
      rw [List.drop_zero] at apart ⊢
      rw [splitFrom]
      split
      · rename_i found
        obtain ⟨after, taken⟩ := Option.isSome_iff_exists.1 found
        have shape := afterWord?_eq_some_iff.1 taken
        obtain ⟨d, ds, rfl⟩ := List.exists_cons_of_ne_nil some
        obtain ⟨rfl, rfl⟩ := List.cons.inj shape
        have behind : (ds.append after).drop ds.length = after := List.drop_left
        have further := ih ds.length [] (apart_nil _ _)
        rw [List.reverse_nil, List.nil_append, behind] at further
        rw [splitFrom_append]
        simpa using Cuts.cut apart further
      · rename_i missed
        have none : ¬ separator <+: c :: rest := by
          rintro ⟨after, shape⟩
          rw [afterWord?_eq_some_iff.2 shape.symm] at missed
          exact missed rfl
        have further := ih 0 (c :: piece)
        rw [List.drop_zero, List.reverse_cons, List.append_assoc] at further
        exact further (apart.concat none)

/-- A separator that is not empty cuts a text into what it is split into. -/
theorem cuts_split {separator : String} (some : separator ≠ "") (s : String) :
    Cuts separator.toList s.toList ((split separator s).map String.toList) := by
  have word : separator.toList ≠ [] := mt String.toList_eq_nil_iff.1 some
  rw [split, if_neg (mt String.isEmpty_iff.1 some)]
  exact cuts_splitFrom word 0 [] s.toList (apart_nil _ _)

/-- Of two places that overlap, the left one cuts. -/
example : split "aa" "aaab" = ["", "ab"] := rfl

theorem join_eq_intercalate (separator : String) (pieces : List String) :
    join separator pieces = separator.intercalate pieces := by
  cases pieces with
  | nil => exact String.intercalate_nil.symm
  | cons first rest =>
    rw [join]
    induction rest generalizing first with
    | nil => exact String.intercalate_singleton.symm
    | cons next rest ih =>
      rw [List.foldl_cons, ih, String.intercalate_cons_append, String.intercalate_cons_cons]

private theorem nil_intercalate (pieces : List (List Char)) :
    [].intercalate pieces = pieces.flatten := by
  induction pieces with
  | nil => rfl
  | cons first rest ih =>
    cases rest with
    | nil => rw [List.intercalate_singleton, List.flatten_singleton]
    | cons next rest =>
      rw [List.intercalate_cons_cons, ih, List.append_nil, List.flatten_cons (l := first)]

theorem split_empty (s : String) : split "" s = "" :: s.toList.map String.singleton ++ [""] := rfl

theorem split_ne_nil (separator s : String) : split separator s ≠ [] := by
  by_cases none : separator = ""
  · rw [none, split_empty]
    exact List.cons_ne_nil _ _
  · exact fun empty => (cuts_split none s).ne_nil (congrArg (List.map String.toList) empty)

theorem join_split (separator s : String) : join separator (split separator s) = s := by
  rw [join_eq_intercalate, ← String.toList_inj, String.toList_intercalate]
  by_cases none : separator = ""
  · subst none
    have single : String.toList ∘ String.singleton = fun c => [c] :=
      funext fun c => String.toList_singleton c
    have chars : (s.toList.map (String.toList ∘ String.singleton)).flatten = s.toList := by
      rw [single, ← List.flatMap_def, List.flatMap_singleton']
    rw [split_empty, String.toList_empty, nil_intercalate]
    simp [chars]
  · exact (cuts_split none s).intercalate

end Text

namespace Script

open Text

/-- Joining undoes splitting. -/
theorem callFunction_join_split (s separator : String) :
    ∃ pieces : List String, pieces ≠ [] ∧
      callFunction "split" [.string s, .string separator] = .ok (.list (pieces.map .string)) ∧
      callFunction "join" [.list (pieces.map .string), .string separator] = .ok (.string s) ∧
      (separator ≠ "" → ∀ piece ∈ pieces, ¬ separator.toList <:+: piece.toList) := by
  refine ⟨split separator s, split_ne_nil separator s, rfl, ?_, fun some piece member => ?_⟩
  · change Except.ok _ = _
    rw [List.map_map]
    simp [Function.comp_def, Value.display, join_split]
  · have word : separator.toList ≠ [] := mt String.toList_eq_nil_iff.1 some
    exact (cuts_split some s).lacks_separator word _ (List.mem_map_of_mem member)

end Script
end Relay
