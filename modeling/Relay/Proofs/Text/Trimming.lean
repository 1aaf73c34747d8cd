import Mathlib.Data.List.TakeWhile
import Relay.Text.Blank
import Relay.Text.Scan

/-! # Trimmed texts

A text that starts and ends with characters that are not blank is its own trim, and what trimming
leaves of a text is such a text or nothing.
-/

namespace Relay.Text

/-- The text starts with a character that is not blank. -/
def StartsSolid (text : List Char) : Prop :=
  ∃ c cs, text = c :: cs ∧ isBlank c = false

/-- The text ends with a character that is not blank. -/
def EndsSolid (text : List Char) : Prop :=
  ∃ cs c, text = cs ++ [c] ∧ isBlank c = false

theorem StartsSolid.append {text : List Char} (solid : StartsSolid text) (more : List Char) :
    StartsSolid (text ++ more) := by
  obtain ⟨c, cs, rfl, visible⟩ := solid
  exact ⟨c, cs ++ more, rfl, visible⟩

theorem EndsSolid.prepend {text : List Char} (solid : EndsSolid text) (before : List Char) :
    EndsSolid (before ++ text) := by
  obtain ⟨cs, c, rfl, visible⟩ := solid
  exact ⟨before ++ cs, c, (List.append_assoc _ _ _).symm, visible⟩

theorem endsSolid_append {c : Char} (before : List Char) (visible : isBlank c = false) :
    EndsSolid (before ++ [c]) :=
  ⟨before, c, rfl, visible⟩

theorem trimChars_solid {text : List Char} (starts : StartsSolid text) (ends : EndsSolid text) :
    trimChars text = text := by
  obtain ⟨c, cs, shape, visible⟩ := starts
  obtain ⟨ds, d, shape', visible'⟩ := ends
  have front : text.dropWhile isBlank = text := by
    rw [shape]
    exact List.dropWhile_cons_of_neg (Bool.not_eq_true _ ▸ visible)
  have back : text.reverse.dropWhile isBlank = text.reverse := by
    rw [shape', List.reverse_append]
    exact List.dropWhile_cons_of_neg (Bool.not_eq_true _ ▸ visible')
  rw [trimChars, front, trimEndChars, back, List.reverse_reverse]

/-- Of spaces alone nothing is left. -/
theorem trimChars_spaces {text : List Char} (spaces : skipSpace text = []) :
    trimChars text = [] := by
  have front : text.dropWhile isBlank = [] := by
    induction text with
    | nil => rfl
    | cons c cs ih =>
      cases space : isSpace c with
      | false =>
        rw [skipSpace_visible cs space] at spaces
        cases spaces
      | true =>
        have blank : isBlank c = true := by
          simp only [isSpace, Bool.or_eq_true, decide_eq_true_eq] at space
          rcases space with ((rfl | rfl) | rfl) | rfl <;> rfl
        rw [skipSpace_blank cs space] at spaces
        rw [List.dropWhile_cons_of_pos blank, ih spaces]
  rw [trimChars, front]
  rfl

/-- What is left ends with a character that is not blank, if anything is. -/
theorem endsSolid_trimChars (s : List Char) : trimChars s = [] ∨ EndsSolid (trimChars s) := by
  rw [trimChars, trimEndChars]
  generalize (s.dropWhile isBlank).reverse = text
  have stops := List.head?_dropWhile_not isBlank text
  cases left : text.dropWhile isBlank with
  | nil => exact .inl rfl
  | cons c cs =>
    rw [left] at stops
    exact .inr ⟨cs.reverse, c, List.reverse_cons, stops⟩

theorem blank_of_trimChars {s : List Char} (nothing : trimChars s = []) :
    ∀ c ∈ s, isBlank c = true := by
  rw [trimChars, trimEndChars, List.reverse_eq_nil_iff, List.dropWhile_eq_nil_iff] at nothing
  intro c member
  rw [← List.takeWhile_append_dropWhile (p := isBlank) (l := s)] at member
  rcases List.mem_append.1 member with front | back
  · exact List.mem_takeWhile_imp front
  · exact nothing c (List.mem_reverse.2 back)

/-- A trimmed text has no blank rest. -/
theorem eq_nil_of_trimmed {front rest : List Char}
    (trimmed : trimChars (front ++ rest) = front ++ rest) (nothing : trimChars rest = []) :
    rest = [] := by
  have blank := blank_of_trimChars nothing
  rcases List.eq_nil_or_concat rest with empty | ⟨init, c, shape⟩
  · exact empty
  · rw [List.concat_eq_append] at shape
    have last := blank c (shape ▸ List.mem_append_right _ List.mem_cons_self)
    rcases endsSolid_trimChars (front ++ rest) with none | ⟨cs, d, whole, visible⟩
    · rw [trimmed] at none
      exact (List.append_eq_nil_iff.1 none).2
    · rw [trimmed, shape, ← List.append_assoc] at whole
      obtain ⟨-, same⟩ := List.append_inj' whole rfl
      cases same
      rw [last] at visible
      cases visible

end Relay.Text
