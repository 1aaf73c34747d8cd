import Relay.Decimal.Layout

/-! # The text of a double

Whatever its layout, a finite double is written with digits, a point, signs and the letter of an
exponent, and with one of them at least.
-/

namespace Relay.Decimal

/-- A character that numbers are written with. -/
def inNumber (c : Char) : Bool :=
  c.isDigit || ['-', '+', '.', 'e', 'E'].contains c

theorem inNumber_of_isDigit {c : Char} (digit : c.isDigit = true) : inNumber c = true := by
  rw [inNumber, digit, Bool.true_or]

private theorem isDigit_ofScaled (count : Nat) (exponent : Int) :
    ∀ c ∈ (Digits.ofScaled count exponent).digits, c.isDigit = true := by
  intro c member
  rw [Digits.ofScaled] at member
  split at member
  · exact absurd member List.not_mem_nil
  · have written : c ∈ (Nat.toDigits 10 count).reverse :=
      (List.dropWhile_sublist _).mem (List.mem_reverse.1 member)
    exact Nat.isDigit_of_mem_toDigits (by decide) (by decide) (List.mem_reverse.1 written)

private theorem forall_getD {P : Digits → Prop} {found : Option Digits} {other : Digits}
    (here : ∀ d, found = some d → P d) (absent : P other) : P (found.getD other) := by
  cases found with
  | none => exact absent
  | some d => exact here d rfl

theorem isDigit_shortest (tie : Tie) (x : Float) :
    ∀ c ∈ (shortest tie x).digits, c.isDigit = true := by
  simp only [shortest]
  split
  · exact List.forall_mem_nil _
  · apply forall_getD (P := fun d => ∀ c ∈ d.digits, c.isDigit = true) _ (isDigit_ofScaled _ _)
    intro d found
    obtain ⟨extra, -, chosen⟩ := List.exists_of_findSome?_eq_some found
    obtain ⟨count, -, rfl⟩ := Option.map_eq_some_iff.1 chosen
    exact isDigit_ofScaled _ _

section Digits

variable {d : Digits}

private theorem positional_inNumber (digits : ∀ c ∈ d.digits, c.isDigit = true)
    (keepsPoint : Bool) : ∀ c ∈ d.positional keepsPoint, inNumber c = true := by
  have tail : ∀ c ∈ (if keepsPoint then ['.', '0'] else []), inNumber c = true := by
    cases keepsPoint <;> simp [inNumber]
  have zeros (n : Nat) : ∀ c ∈ List.replicate n '0', inNumber c = true := by
    intro c member
    rw [List.eq_of_mem_replicate member]
    rfl
  have own : ∀ c ∈ d.digits, inNumber c = true :=
    fun c member => inNumber_of_isDigit (digits c member)
  simp only [Digits.positional]
  split
  · exact List.forall_mem_cons.2 ⟨rfl, tail⟩
  · split
    · simp only [List.forall_mem_append]
      exact ⟨⟨by simp [inNumber], zeros _⟩, own⟩
    · split
      · simp only [List.forall_mem_append]
        exact ⟨⟨own, zeros _⟩, tail⟩
      · simp only [List.forall_mem_append, List.forall_mem_cons]
        exact ⟨fun c member => own c (List.mem_of_mem_take member), rfl,
          fun c member => own c (List.mem_of_mem_drop member)⟩

private theorem scientific_inNumber (digits : ∀ c ∈ d.digits, c.isDigit = true) :
    ∀ c ∈ d.scientific, inNumber c = true := by
  have own : ∀ c ∈ d.digits, inNumber c = true :=
    fun c member => inNumber_of_isDigit (digits c member)
  have sign : inNumber (if d.point - 1 < 0 then '-' else '+') = true := by
    split <;> rfl
  simp only [Digits.scientific, List.forall_mem_append, List.forall_mem_cons]
  refine ⟨⟨fun c member => own c (List.mem_of_mem_take member), ?_⟩, rfl, sign, ?_⟩
  · split
    · exact List.forall_mem_nil _
    · refine List.forall_mem_cons.2 ⟨rfl, fun c member => ?_⟩
      exact own c (List.mem_of_mem_drop member)
  · intro c member
    exact inNumber_of_isDigit (Nat.isDigit_of_mem_toDigits (by decide) (by decide) member)

private theorem positional_ne_nil (d : Digits) (keepsPoint : Bool) :
    d.positional keepsPoint ≠ [] := by
  simp only [Digits.positional]
  split
  · exact List.cons_ne_nil _ _
  · rename_i some
    have digits : d.digits ≠ [] := fun none => some (by rw [none]; rfl)
    split
    · simp
    · split <;> simp [digits]

theorem write_inNumber (layout : Layout) (digits : ∀ c ∈ d.digits, c.isDigit = true) :
    ∀ c ∈ layout.write d, inNumber c = true := by
  rw [Layout.write]
  split
  · exact positional_inNumber digits _
  · split
    · exact positional_inNumber digits _
    · exact scientific_inNumber digits

theorem write_ne_nil (layout : Layout) (d : Digits) : layout.write d ≠ [] := by
  rw [Layout.write]
  split
  · exact positional_ne_nil d _
  · split
    · exact positional_ne_nil d _
    · simp [Digits.scientific]

end Digits

/-- A double in a layout is a text of characters of numbers. -/
theorem signed_inNumber (layout : Layout) (x : Float) :
    ∃ c cs, (layout.signed x).toList = c :: cs ∧ ∀ d ∈ c :: cs, inNumber d = true := by
  have magnitude := write_inNumber layout (isDigit_shortest layout.tie x)
  obtain ⟨c, cs, text⟩ :=
    List.exists_cons_of_ne_nil (write_ne_nil layout (shortest layout.tie x))
  rw [text] at magnitude
  simp only [Layout.signed]
  split
  · exact ⟨c, cs, by rw [String.toList_ofList, text], magnitude⟩
  · refine ⟨'-', c :: cs, ?_, List.forall_mem_cons.2 ⟨rfl, magnitude⟩⟩
    simp only [text, String.toList_append, String.toList_ofList]
    rfl

end Relay.Decimal
