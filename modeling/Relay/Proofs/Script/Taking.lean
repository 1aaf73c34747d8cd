import Relay.Proofs.Script.Equations

/-! # What parsers take

A parser takes a front of its text. How the front is related to what is read follows from how the
parts of the parser take theirs; there is one rule for each way in which parsers are put together,
and one for each kind of token. A parser that refuses every text takes anything.
-/

namespace Relay.Script.Parser

variable {α β : Type} {R : α → List Char → Prop}

/-- Whatever the parser reads is related to the front of the text that it takes. -/
def Takes (p : Parser α) (R : α → List Char → Prop) : Prop :=
  ∀ s a rest, p s = .ok (a, rest) → ∃ front, s = front ++ rest ∧ R a front

theorem Takes.imp {Q : α → List Char → Prop} {p : Parser α} (takes : p.Takes R)
    (weaker : ∀ a front, R a front → Q a front) : p.Takes Q := by
  intro s a rest read
  obtain ⟨front, shape, related⟩ := takes s a rest read
  exact ⟨front, shape, weaker a front related⟩

theorem takes_pure {a : α} (related : R a []) : (pure a : Parser α).Takes R := by
  intro s b rest read
  cases read
  exact ⟨[], rfl, related⟩

theorem takes_mismatch : (mismatch : Parser α).Takes R :=
  fun _ _ _ read => nomatch read

theorem takes_tooDeep : (tooDeep : Parser α).Takes R :=
  fun _ _ _ read => nomatch read

theorem Takes.bind {Q : β → List Char → Prop} {p : Parser β} {f : β → Parser α}
    (first : p.Takes Q)
    (second : ∀ b front, Q b front → (f b).Takes fun a back => R a (front ++ back)) :
    (p >>= f).Takes R := by
  intro s a rest read
  obtain ⟨b, between, before, after⟩ := bind_eq_ok_iff.1 read
  obtain ⟨front, rfl, related⟩ := first s b between before
  obtain ⟨back, rfl, whole⟩ := second b front related between a rest after
  exact ⟨front ++ back, (List.append_assoc _ _ _).symm, whole⟩

theorem Takes.map {Q : β → List Char → Prop} {p : Parser β} {f : β → α} (takes : p.Takes Q)
    (mapped : ∀ b front, Q b front → R (f b) front) : (f <$> p).Takes R := by
  intro s a rest read
  rw [map_run] at read
  split at read
  · rename_i b after taken
    cases read
    obtain ⟨front, shape, related⟩ := takes s b rest taken
    exact ⟨front, shape, mapped b front related⟩
  · cases read

theorem Takes.orElse {p q : Parser α} (first : p.Takes R) (second : q.Takes R) :
    (p <|> q).Takes R := by
  intro s a rest read
  rcases orElse_eq_ok read with left | right
  · exact first s a rest left
  · exact second s a rest right

/-- Something that may be missing takes what it takes, or nothing. -/
theorem Takes.optional {p : Parser α} (takes : p.Takes R) :
    (Parser.optional p).Takes fun found front =>
      (∃ a, found = some a ∧ R a front) ∨ found = none ∧ front = [] := by
  intro s found rest read
  rw [Parser.optional] at read
  split at read
  · rename_i a after taken
    cases read
    obtain ⟨front, shape, related⟩ := takes s a rest taken
    exact ⟨front, shape, .inl ⟨a, rfl, related⟩⟩
  · cases read
    exact ⟨[], rfl, .inr ⟨rfl, rfl⟩⟩
  · cases read

/-! ### Spaces and characters -/

/-- A text of spaces. -/
def Blanks (text : List Char) : Prop :=
  ∀ c ∈ text, Text.isSpace c = true

theorem takes_spaces : spaces.Takes fun _ front => Blanks front := by
  intro s _ rest read
  cases read
  exact ⟨_, List.takeWhile_append_dropWhile.symm, List.all_eq_true.1 List.all_takeWhile⟩

theorem takes_char (c : Char) : (char c).Takes fun _ front => front = [c] := by
  intro s _ rest read
  cases s with
  | nil => cases read
  | cons d s =>
    rw [char] at read
    split at read
    · rename_i same
      cases read
      exact ⟨[d], rfl, congrArg ([·]) same⟩
    · cases read

theorem Takes.spaced {p : Parser α} (takes : p.Takes R) :
    (spaced p).Takes fun a text => ∃ before front after,
      text = before ++ (front ++ after) ∧ Blanks before ∧ R a front ∧ Blanks after := by
  refine takes_spaces.bind fun _ before blank => ?_
  refine takes.bind fun a front related => ?_
  refine takes_spaces.bind fun _ after blanks => ?_
  refine takes_pure ⟨before, front, after, ?_, blank, related, blanks⟩
  rw [List.append_nil]

/-- A parser that looks at what stands behind the spaces takes them, the character that it goes by
and what it goes on with. -/
theorem takes_ahead {p : Parser α} (takes : p.Takes R) {s rest after : List Char} {c : Char} {a : α}
    (ahead : Text.skipSpace s = c :: rest) (read : p rest = .ok (a, after)) :
    ∃ before front, s = before ++ c :: front ++ after ∧ Blanks before ∧ R a front := by
  obtain ⟨before, shape, blank⟩ := takes_spaces s () (Text.skipSpace s) rfl
  obtain ⟨front, rfl, related⟩ := takes rest a after read
  refine ⟨before, front, ?_, blank, related⟩
  rw [shape, ahead, List.append_assoc, List.cons_append]

/-! ### Words and numbers -/

theorem takes_keyword (word : String) :
    (keyword word).Takes fun _ front => front = word.toList := by
  intro s _ rest read
  rw [keyword] at read
  split at read
  · cases read
  · rename_i found
    cases read
    exact ⟨_, Text.afterWord?_eq_some_iff.1 found, rfl⟩
  · rename_i found
    split at read
    · cases read
    · cases read
      exact ⟨_, Text.afterWord?_eq_some_iff.1 found, rfl⟩

theorem takes_oneOf {R : Expr → List Char → Prop} {words : List (String × Expr)}
    (related : ∀ word ∈ words, R word.2 word.1.toList) : (oneOf words).Takes R := by
  induction words with
  | nil => exact takes_mismatch
  | cons word words ih =>
    obtain ⟨here, later⟩ := List.forall_mem_cons.1 related
    refine Takes.orElse ((takes_keyword word.1).bind fun _ front same => ?_) (ih later)
    refine takes_pure ?_
    rwa [same, List.append_nil]

theorem takes_anyName : anyName.Takes fun found front =>
    found = String.ofList front ∧ front ≠ [] ∧ ∀ c ∈ front, isNameChar c = true := by
  intro s found rest read
  cases s with
  | nil => cases read
  | cons c s =>
    rw [anyName] at read
    split at read
    · rename_i start
      cases read
      refine ⟨c :: s.takeWhile isNameChar, ?_, rfl, List.cons_ne_nil _ _, ?_⟩
      · rw [List.cons_append, List.takeWhile_append_dropWhile]
      · exact List.forall_mem_cons.2
          ⟨isNameChar_of_isNameStart start, List.all_eq_true.1 List.all_takeWhile⟩
    · cases read

theorem takes_name : name.Takes fun found front =>
    found = String.ofList front ∧ front ≠ [] ∧ ∀ c ∈ front, isNameChar c = true := by
  refine takes_anyName.bind fun found front shape => ?_
  split
  · exact takes_mismatch
  · refine takes_pure ?_
    rwa [List.append_nil]

/-- A number is written with digits and at most a point. -/
theorem takes_number : number.Takes fun e front =>
    ((∃ n, e = .int n) ∨ ∃ x, e = .float x) ∧
      ∃ d more, front = d :: more ∧ d.isDigit = true ∧ ∀ c ∈ more, c.isDigit = true ∨ c = '.' := by
  intro s e rest read
  have digits {c : Char} {text : List Char} (member : c ∈ text.takeWhile Char.isDigit) :
      c.isDigit = true := List.all_eq_true.1 List.all_takeWhile c member
  have parts (text : List Char) := (List.takeWhile_append_dropWhile (p := Char.isDigit) (l := text))
  cases whole : s.takeWhile Char.isDigit with
  | nil =>
    rw [number_none whole] at read
    cases read
  | cons d more =>
    have all (c : Char) (member : c ∈ d :: more) : c.isDigit = true := digits (whole ▸ member)
    obtain ⟨first, others⟩ := List.forall_mem_cons.1 all
    by_cases point : ∃ after, s.dropWhile Char.isDigit = '.' :: after ∧
        after.takeWhile Char.isDigit ≠ []
    · obtain ⟨after, point, some⟩ := point
      obtain ⟨f, fraction, found⟩ := List.exists_cons_of_ne_nil some
      rw [number_fraction whole point found] at read
      cases read
      refine ⟨d :: (more ++ '.' :: f :: fraction), ?_, .inr ⟨_, rfl⟩, d, _, rfl, first, ?_⟩
      · have behind : after = (f :: fraction) ++ after.dropWhile Char.isDigit := by
          rw [← found, parts]
        rw [List.cons_append, List.append_assoc, List.cons_append, ← behind, ← point,
          ← List.cons_append, ← whole, parts]
      · intro c member
        rcases List.mem_append.1 member with left | right
        · exact .inl (others c left)
        · rcases List.mem_cons.1 right with rfl | right
          · exact .inr rfl
          · exact .inl (digits (found ▸ right))
    · have none (after : List Char) (here : s.dropWhile Char.isDigit = '.' :: after) :
          after.takeWhile Char.isDigit = [] :=
        Decidable.of_not_not fun some => point ⟨after, here, some⟩
      rw [number_integer whole none] at read
      split at read
      · cases read
        refine ⟨d :: more, ?_, .inl ⟨_, rfl⟩, d, more, rfl, first, fun c member => ?_⟩
        · rw [← whole, parts]
        · exact .inl (others c member)
      · cases read

end Relay.Script.Parser
