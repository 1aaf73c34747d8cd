import Relay.Script.Parser

/-! # Rules for parsers

What a parser answers with is made from the answers of its parts. There is one rule for each way in
which parsers are put together; a parser that refuses every text answers with anything.
-/

namespace Relay.Script.Parser

variable {α β : Type} {P : α → Prop}

/-- Every answer of the parser has the property. -/
def Answers (p : Parser α) (P : α → Prop) : Prop :=
  ∀ s a rest, p s = .ok (a, rest) → P a

theorem answers_any (p : Parser α) : p.Answers fun _ => True :=
  fun _ _ _ _ => trivial

theorem Answers.imp {Q : α → Prop} {p : Parser α} (answers : p.Answers P)
    (weaker : ∀ a, P a → Q a) : p.Answers Q :=
  fun s a rest read => weaker a (answers s a rest read)

theorem answers_pure {a : α} (held : P a) : (pure a : Parser α).Answers P := by
  intro s b rest read
  cases read
  exact held

theorem Answers.bind {Q : β → Prop} {p : Parser β} {f : β → Parser α} (first : p.Answers Q)
    (second : ∀ b, Q b → (f b).Answers P) : (p >>= f).Answers P := by
  intro s a rest read
  rw [bind_run] at read
  split at read
  · rename_i b between parsed
    exact second b (first s b between parsed) between a rest read
  · cases read

/-- What is read before does not matter if it is not used. -/
theorem Answers.after {p : Parser β} {f : β → Parser α} (next : ∀ b, (f b).Answers P) :
    (p >>= f).Answers P :=
  (answers_any p).bind fun b _ => next b

theorem Answers.map {Q : β → Prop} {p : Parser β} {f : β → α} (answers : p.Answers Q)
    (mapped : ∀ b, Q b → P (f b)) : (f <$> p).Answers P := by
  intro s a rest read
  rw [map_run] at read
  split at read
  · rename_i b between parsed
    cases read
    exact mapped b (answers s b rest parsed)
  · cases read

theorem answers_mismatch : (mismatch : Parser α).Answers P :=
  fun _ _ _ read => nomatch read

theorem answers_tooDeep : (tooDeep : Parser α).Answers P :=
  fun _ _ _ read => nomatch read

/-- What one parser or another reads, one of them reads. -/
theorem orElse_eq_ok {p q : Parser α} {s : List Char} {read : α × List Char}
    (taken : (p <|> q) s = .ok read) : p s = .ok read ∨ q s = .ok read := by
  change Parser.orElse p (fun _ => q) s = _ at taken
  rw [Parser.orElse] at taken
  split at taken
  · exact .inr taken
  · exact .inl taken

theorem Answers.orElse {p q : Parser α} (first : p.Answers P) (second : q.Answers P) :
    (p <|> q).Answers P := by
  intro s a rest read
  rcases orElse_eq_ok read with left | right
  · exact first s a rest left
  · exact second s a rest right

theorem orElse_mismatch {p q : Parser α} {s : List Char} (missed : p s = .error .mismatch) :
    (p <|> q) s = q s := by
  change Parser.orElse p (fun _ => q) s = q s
  rw [Parser.orElse, missed]

theorem orElse_ok {p q : Parser α} {s : List Char} {read : α × List Char}
    (taken : p s = .ok read) : (p <|> q) s = .ok read := by
  change Parser.orElse p (fun _ => q) s = .ok read
  rw [Parser.orElse, taken]

theorem bind_ok {p : Parser α} {f : α → Parser β} {s rest : List Char} {a : α}
    (taken : p s = .ok (a, rest)) : (p >>= f) s = f a rest := by
  rw [bind_run, taken]

/-- What one parser after another reads, the second one reads from where the first one stopped. -/
theorem bind_eq_ok_iff {p : Parser α} {f : α → Parser β} {s : List Char} {out : β × List Char} :
    (p >>= f) s = .ok out ↔ ∃ a between, p s = .ok (a, between) ∧ f a between = .ok out := by
  rw [bind_run]
  cases p s with
  | error e => exact ⟨nofun, nofun⟩
  | ok read =>
    constructor
    · exact fun taken => ⟨_, _, rfl, taken⟩
    · rintro ⟨_, _, same, taken⟩
      cases same
      exact taken

theorem bind_mismatch {p : Parser α} {f : α → Parser β} {s : List Char}
    (missed : p s = .error .mismatch) : (p >>= f) s = .error .mismatch := by
  rw [bind_run, missed]

theorem char_self (c : Char) (s : List Char) : char c (c :: s) = .ok ((), s) := by
  rw [char, if_pos rfl]

theorem char_mismatch {c d : Char} (other : d ≠ c) (s : List Char) :
    char c (d :: s) = .error .mismatch := by
  rw [char, if_neg other]

theorem Answers.optional {p : Parser α} (answers : p.Answers P) :
    (Parser.optional p).Answers fun found => ∀ a, found = some a → P a := by
  intro s found rest read a same
  rw [Parser.optional] at read
  split at read
  · rename_i b after parsed
    cases read
    cases same
    exact answers s _ _ parsed
  · cases read
    cases same
  · cases read

theorem Answers.spaced {p : Parser α} (answers : p.Answers P) : (spaced p).Answers P := by
  refine Answers.after fun _ => ?_
  refine answers.bind fun a held => ?_
  exact .after fun _ => answers_pure held

private theorem answers_manyFrom {p : Parser α} (answers : p.Answers P) (bound : List Char)
    {taken : List α} (before : ∀ a ∈ taken, P a) :
    (manyFrom p bound taken).Answers fun items => ∀ a ∈ items, P a := by
  induction bound generalizing taken with
  | nil =>
    intro s items rest read a member
    cases read
    exact before a (List.mem_reverse.1 member)
  | cons _ bound ih =>
    intro s items rest read
    rw [manyFrom] at read
    split at read
    · rename_i a after parsed
      exact ih (List.forall_mem_cons.2 ⟨answers s a after parsed, before⟩) _ items rest read
    · cases read
      intro a member
      exact before a (List.mem_reverse.1 member)
    · cases read

theorem Answers.many {p : Parser α} (answers : p.Answers P) :
    (many p).Answers fun items => ∀ a ∈ items, P a :=
  fun s => answers_manyFrom answers (' ' :: s) (List.forall_mem_nil _) s

private theorem answers_moreFrom {separator : Parser Unit} {p : Parser α} (answers : p.Answers P)
    (bound : List Char) {taken : List α} (before : ∀ a ∈ taken, P a) :
    (moreFrom separator p bound taken).Answers fun items => ∀ a ∈ items, P a := by
  induction bound generalizing taken with
  | nil =>
    intro s items rest read a member
    cases read
    exact before a (List.mem_reverse.1 member)
  | cons _ bound ih =>
    intro s items rest read
    rw [moreFrom] at read
    split at read
    · rename_i a after parsed
      have next : (separator >>= fun _ => p).Answers P := .after fun _ => answers
      have held : P a := next s a after parsed
      exact ih (List.forall_mem_cons.2 ⟨held, before⟩) _ items rest read
    · cases read
      intro a member
      exact before a (List.mem_reverse.1 member)
    · cases read

theorem Answers.commaList {p : Parser α} (answers : p.Answers P) :
    (commaList p).Answers fun items => ∀ a ∈ items, P a := by
  have items : (separated (Parser.spaced (char ',')) p).Answers fun items => ∀ a ∈ items, P a := by
    intro s items rest read
    rw [separated] at read
    split at read
    · rename_i a after parsed
      have first : ∀ b ∈ [a], P b := List.forall_mem_singleton.2 (answers s a after parsed)
      exact answers_moreFrom answers after first after items rest read
    · cases read
      exact List.forall_mem_nil _
    · cases read
  refine items.bind fun found held => ?_
  exact .after fun _ => answers_pure held

end Relay.Script.Parser
