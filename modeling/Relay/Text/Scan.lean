/-!
# Walking along the characters of a text

What every reader of text shares: skipping the spaces between tokens, taking a fixed word off the
front, and the value of a hexadecimal digit.
-/

namespace Relay.Text

/-- A reader takes characters from the front of the text, or refuses it. -/
abbrev Reader (α : Type) := List Char → Option (α × List Char)

/-- The value of a hexadecimal digit in either case. -/
def hexDigit? (c : Char) : Option Nat :=
  if c.isDigit then some (c.toNat - '0'.toNat)
  else if 'a' ≤ c ∧ c ≤ 'f' then some (c.toNat - 'a'.toNat + 10)
  else if 'A' ≤ c ∧ c ≤ 'F' then some (c.toNat - 'A'.toNat + 10)
  else none

/-- The characters that may stand between tokens: space, tab and the two line ends. -/
def isSpace (c : Char) : Bool :=
  c = ' ' || c = '\t' || c = '\n' || c = '\r'

/-- The text without the spaces at its front. -/
def skipSpace (s : List Char) : List Char :=
  s.dropWhile isSpace

theorem skipSpace_blank {c : Char} (s : List Char) (blank : isSpace c = true) :
    skipSpace (c :: s) = skipSpace s :=
  List.dropWhile_cons_of_pos blank

theorem skipSpace_visible {c : Char} (s : List Char) (visible : isSpace c = false) :
    skipSpace (c :: s) = c :: s :=
  List.dropWhile_cons_of_neg (Bool.not_eq_true _ ▸ visible)

theorem skipSpace_append {blanks : List Char} (s : List Char)
    (blank : ∀ c ∈ blanks, isSpace c = true) : skipSpace (blanks ++ s) = skipSpace s :=
  List.dropWhile_append_of_pos blank

theorem skipSpace_skipSpace (s : List Char) : skipSpace (skipSpace s) = skipSpace s := by
  induction s with
  | nil => rfl
  | cons c s ih =>
    cases shown : isSpace c with
    | true => rw [skipSpace_blank s shown, ih]
    | false => rw [skipSpace_visible s shown, skipSpace_visible s shown]

theorem skipSpace_suffix (s : List Char) : skipSpace s <:+ s :=
  List.dropWhile_suffix _

/-- The text after a word at its front. -/
def afterWord? : List Char → List Char → Option (List Char)
  | [], s => some s
  | _ :: _, [] => none
  | w :: word, c :: s => if w = c then afterWord? word s else none

theorem afterWord?_append (word s : List Char) : afterWord? word (word ++ s) = some s := by
  induction word with
  | nil => rfl
  | cons w word ih => simp [afterWord?, ih]

theorem afterWord?_eq_some_iff {word s rest : List Char} :
    afterWord? word s = some rest ↔ s = word ++ rest := by
  constructor
  · intro found
    induction word generalizing s with
    | nil => simpa [afterWord?] using found
    | cons w word ih =>
      cases s with
      | nil => simp [afterWord?] at found
      | cons c s =>
        simp only [afterWord?] at found
        split at found
        · rename_i same
          subst same
          rw [ih found, List.cons_append]
        · simp at found
  · rintro rfl
    exact afterWord?_append word rest

end Relay.Text
