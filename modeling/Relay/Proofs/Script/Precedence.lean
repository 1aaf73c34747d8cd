import Relay.Proofs.Script.PrintedReading
import Relay.Proofs.Text.Trimming

/-! # Precedence, associativity and literals

The text of a plain expression is an expression on its own: it neither starts nor ends with a blank,
so nothing is trimmed, and it is read as the expression it was printed from, whatever the layout.
Only the nesting limit may stand in the way, and it does not if the expression is low.
-/

namespace Relay.Script

open Relay.Script.Parser Relay.Script.Grammar
open Relay.Text (StartsSolid EndsSolid endsSolid_append trimChars_solid trimChars_spaces)

/-! ### Trimming -/

/-- No letter or digit is blank. -/
theorem not_isNameChar_of_isBlank {c : Char} (blank : Text.isBlank c = true) :
    isNameChar c = false := by
  have apart : ∀ blank ∈ Text.blankRanges, ∀ letters ∈ Text.alphanumericRanges,
      letters.2 < blank.1 ∨ blank.2 < letters.1 := by
    decide +kernel
  have ascii : ∀ n < 0x80, Text.isBlank (Char.ofNat n) = true →
      isNameChar (Char.ofNat n) = false := by
    decide +kernel
  by_cases small : c.toNat < 0x80
  · have same := ascii c.toNat small
    rw [Char.ofNat_toNat] at same
    exact same blank
  · obtain ⟨range, member, low, high⟩ := Text.inRanges_iff.1 blank
    have other : Text.isAlphanumeric c = false := by
      rw [Text.isAlphanumeric, if_neg small]
      cases letter : Text.inRanges Text.alphanumericRanges c with
      | false => rfl
      | true =>
        obtain ⟨letters, inside, first, last⟩ := Text.inRanges_iff.1 letter
        rcases apart range member letters inside with before | after <;> omega
    have large {d : Char} (plain : d.toNat < 0x80) : c ≠ d := by
      rintro rfl
      exact small plain
    simp only [isNameChar, other, large (d := '_') (by decide), large (d := '$') (by decide),
      Bool.false_or, decide_false]

private theorem not_isBlank_of_isNameChar {c : Char} (letter : isNameChar c = true) :
    Text.isBlank c = false := by
  cases blank : Text.isBlank c with
  | false => rfl
  | true =>
    rw [not_isNameChar_of_isBlank blank] at letter
    cases letter

private theorem solid_letters {text : List Char} (some : text ≠ [])
    (all : ∀ c ∈ text, isNameChar c = true) : StartsSolid text ∧ EndsSolid text := by
  obtain ⟨c, cs, shape⟩ := List.exists_cons_of_ne_nil some
  have first := not_isBlank_of_isNameChar (all c (shape ▸ List.mem_cons_self))
  have last := not_isBlank_of_isNameChar (all _ (List.getLast_mem some))
  exact ⟨⟨c, cs, shape, first⟩, ⟨_, _, (List.dropLast_concat_getLast some).symm, last⟩⟩

private theorem solid_name {name : String} (shape : IsName name) :
    StartsSolid name.toList ∧ EndsSolid name.toList := by
  obtain ⟨c, cs, letters, start, rest⟩ := shape
  rw [letters]
  exact solid_letters (List.cons_ne_nil c cs)
    (List.forall_mem_cons.2 ⟨isNameChar_of_isNameStart start, rest⟩)

private theorem solid_digits (n : Nat) :
    StartsSolid (Nat.toDigits 10 n) ∧ EndsSolid (Nat.toDigits 10 n) :=
  solid_letters Nat.toDigits_ne_nil fun c member =>
    isNameChar_of_isDigit (Json.isDigit_toDigits n c member)

private theorem startsSolid_guarded {bare : Prop} [Decidable bare] {text : List Char}
    (solid : StartsSolid text) : StartsSolid (guarded bare text) := by
  rw [guarded]
  split
  · exact solid
  · exact ⟨'(', _, rfl, by decide⟩

private theorem endsSolid_guarded {bare : Prop} [Decidable bare] {text : List Char}
    (solid : EndsSolid text) : EndsSolid (guarded bare text) := by
  rw [guarded]
  split
  · exact solid
  · exact endsSolid_append _ (by decide)

section Printed

variable (layout : Layout)

/-- Nothing is trimmed at the front of a text. -/
theorem startsSolid_printed : (e : Expr) → e.Plain → StartsSolid (e.printed layout)
  | .null, _ => ⟨'n', _, rfl, by decide⟩
  | .bool true, _ => ⟨'t', _, rfl, by decide⟩
  | .bool false, _ => ⟨'f', _, rfl, by decide⟩
  | .int n, _ => (solid_digits n.toNatClampNeg).1
  | .string _, _ => ⟨'"', _, rfl, by decide⟩
  | .list _, _ => ⟨'[', _, rfl, by decide⟩
  | .map _, _ => ⟨'\x7b', _, rfl, by decide⟩
  | .ident _, identifier => (solid_name identifier.shape).1
  | .call _ _, ⟨identifier, _⟩ => by
    rw [Expr.printed, List.append_assoc]
    exact (solid_name identifier.shape).1.append _
  | .field base _, ⟨plain, _⟩ => (startsSolid_guarded (startsSolid_printed base plain)).append _
  | .index base _, ⟨plain, _⟩ => by
    rw [Expr.printed, List.append_assoc]
    exact (startsSolid_guarded (startsSolid_printed base plain)).append _
  | .unary op _, _ => ⟨sign op, _, rfl, by cases op <;> decide⟩
  | .binary _ left _, ⟨first, _⟩ => by
    rw [Expr.printed, List.append_assoc]
    exact (startsSolid_guarded (startsSolid_printed left first)).append _
  | .conditional condition _ _, ⟨test, _⟩ => by
    simp only [Expr.printed, List.append_assoc]
    exact (startsSolid_guarded (startsSolid_printed condition test)).append _

/-- Nothing is trimmed at the end of a text. -/
theorem endsSolid_printed : (e : Expr) → e.Plain → EndsSolid (e.printed layout)
  | .null, _ => ⟨['n', 'u', 'l'], 'l', rfl, by decide⟩
  | .bool true, _ => ⟨['t', 'r', 'u'], 'e', rfl, by decide⟩
  | .bool false, _ => ⟨['f', 'a', 'l', 's'], 'e', rfl, by decide⟩
  | .int n, _ => (solid_digits n.toNatClampNeg).2
  | .string _, _ => endsSolid_append _ (by decide)
  | .list _, _ => endsSolid_append _ (by decide)
  | .map _, _ => endsSolid_append _ (by decide)
  | .ident _, identifier => (solid_name identifier.shape).2
  | .call _ _, _ => endsSolid_append _ (by decide)
  | .field _ _, ⟨_, shape⟩ => by
    exact ((solid_name shape).2.prepend ['.']).prepend _
  | .index _ _, _ => endsSolid_append _ (by decide)
  | .unary op operand, plain => by
    exact (endsSolid_guarded (endsSolid_printed operand plain)).prepend [sign op]
  | .binary _ _ right, ⟨_, second⟩ => by
    exact ((endsSolid_guarded (endsSolid_printed right second)).prepend [' ']).prepend _
  | .conditional _ _ no, ⟨_, _, second⟩ => by
    rw [Expr.printed]
    exact (endsSolid_printed no second).prepend _

end Printed

/-! ### Expressions on their own -/

/-- An expression on its own is what the parser reads of a text that neither starts nor ends with a
blank, if it leaves nothing of it. -/
theorem parseExpr_solid {code rest : List Char} {e : Expr} (first : StartsSolid code)
    (last : EndsSolid code) (read : (ofLevels defaultNesting).expression code = .ok (e, rest))
    (blank : Text.trimChars rest = []) : parseExpr (String.ofList code) = .ok e := by
  have solid := trimChars_solid first last
  obtain ⟨c, cs, rfl, -⟩ := first
  rw [parseExpr, String.toList_ofList, solid]
  dsimp only
  rw [read]
  dsimp only
  rw [blank]

theorem parseExpr_solid_tooDeep {code : List Char} (first : StartsSolid code)
    (last : EndsSolid code) (deep : (ofLevels defaultNesting).expression code = .error .tooDeep) :
    parseExpr (String.ofList code) = .error (.tooDeep defaultNesting) := by
  have solid := trimChars_solid first last
  obtain ⟨c, cs, rfl, -⟩ := first
  rw [parseExpr, String.toList_ofList, solid]
  dsimp only
  rw [deep]

/-- One level more than the nesting of a plain expression is enough for its text. -/
theorem expression_printed (layout : Layout) {e : Expr} (plain : e.Plain) {levels : Nat}
    (enough : e.nesting < levels) : ∃ rest,
      (ofLevels levels).expression (e.printed layout) = .ok (e, rest) ∧
        Text.trimChars rest = [] := by
  have whole := (readsAs_printed layout e plain).whole e.held_le_nesting (rank_le e)
  have answers := (whole [] final_nil).reads
  rw [List.append_nil] at answers
  obtain ⟨left, answer, shown⟩ := answers levels enough
  exact ⟨left, answer, trimChars_spaces shown⟩

/-- The text of a plain expression is read as the expression, or it nests too deep. The default
levels are enough if the nesting of the expression is below them, and so for every expression of
height at most nine; one level more than its nesting is enough for any. -/
theorem parseExpr_printed (layout : Layout) {e : Expr} (plain : e.Plain) :
    (parseExpr (String.ofList (e.printed layout)) = .ok e ∨
      parseExpr (String.ofList (e.printed layout)) = .error (.tooDeep defaultNesting)) ∧
    (e.nesting < defaultNesting → parseExpr (String.ofList (e.printed layout)) = .ok e) ∧
    (e.height ≤ 9 → parseExpr (String.ofList (e.printed layout)) = .ok e) ∧
    ∀ levels, e.nesting < levels → ∃ rest,
      (ofLevels levels).expression (e.printed layout) = .ok (e, rest) ∧
        Text.trimChars rest = [] := by
  have starts := startsSolid_printed layout e plain
  have ends := endsSolid_printed layout e plain
  have shallow (enough : e.nesting < defaultNesting) :
      parseExpr (String.ofList (e.printed layout)) = .ok e := by
    obtain ⟨rest, read, blank⟩ := expression_printed layout plain enough
    exact parseExpr_solid starts ends read blank
  have low (height : e.height ≤ 9) : e.nesting < defaultNesting := by
    have bound := Nat.le_trans e.nesting_le_height (nestingBound_mono height)
    exact Nat.lt_of_le_of_lt bound (by decide)
  refine ⟨?_, shallow, fun height => shallow (low height), fun levels enough =>
    expression_printed layout plain enough⟩
  -- What the default nesting answers is what any more levels answer, cut off.
  have more : e.nesting < max (e.nesting + 1) defaultNesting := Nat.le_max_left _ _
  obtain ⟨rest, answer, blank⟩ := expression_printed layout plain more
  have fewer := Nat.le_max_right (e.nesting + 1) defaultNesting
  have agrees := (cutOff_ofLevels .nothing fewer).expression (e.printed layout)
  rw [List.append_nil, answer] at agrees
  generalize read : (ofLevels defaultNesting).expression (e.printed layout) = result at agrees
  cases agrees with
  | tooDeep => exact .inr (parseExpr_solid_tooDeep starts ends read)
  | read _ left =>
    rw [List.append_nil] at blank
    exact .inl (parseExpr_solid starts ends read blank)

/-- A minus under a minus, and a sum under a product. -/
def negatedProduct : Expr :=
  .binary .mul (.unary .neg (.unary .neg (.ident "a"))) (.binary .add (.int 1) (.string "b"))

theorem parseExpr_printed_negatedProduct :
    negatedProduct.Plain ∧ negatedProduct.printed .tight = "-(-a) * (1 + \"b\")".toList ∧
      negatedProduct.height ≤ 9 ∧ negatedProduct.nesting < defaultNesting ∧
      parseExpr (String.ofList (negatedProduct.printed .tight)) = .ok negatedProduct := by
  have name : IsIdentifier "a" :=
    ⟨⟨'a', [], rfl, by decide, List.forall_mem_nil _⟩, by decide, by decide⟩
  have one : (0 : Int64) ≤ 1 := by decide
  have plain : negatedProduct.Plain := ⟨name, one, trivial⟩
  have low : negatedProduct.height ≤ 9 := by decide
  have shallow : negatedProduct.nesting < defaultNesting := by decide
  exact ⟨plain, rfl, low, shallow, (parseExpr_printed .tight plain).2.1 shallow⟩

end Relay.Script
