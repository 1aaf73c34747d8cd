import Relay.Proofs.Script.Rules
import Relay.Proofs.Script.Equations

/-! # Parsers that cut another one off

A parser with fewer levels of nesting is another one cut off: where it does not run out of levels,
the other one answers with the same, also if a text stands behind that no expression goes on with.
There is one rule for each way in which parsers are put together, and one for each kind of token.
-/

namespace Relay.Script.Parser

variable {α β : Type} {tail : List Char}

/-- What may stand behind an expression without being looked at as a part of it. -/
inductive Inert : List Char → Prop
  | nothing : Inert []
  | semicolon : Inert [';']

/-- How an answer on a text agrees with the answer of the other parser on the text and what stands
behind it: it says the same, unless it is that the nesting is too deep. -/
inductive Agrees (tail s : List Char) :
    Except Refusal (α × List Char) → Except Refusal (α × List Char) → Prop
  | tooDeep (more : Except Refusal (α × List Char)) : Agrees tail s (.error .tooDeep) more
  | mismatch : Agrees tail s (.error .mismatch) (.error .mismatch)
  | read (a : α) {rest : List Char} (left : rest <:+ s) :
      Agrees tail s (.ok (a, rest)) (.ok (a, rest ++ tail))

/-- The first parser is the second one cut off. -/
def CutOff (tail : List Char) (few more : Parser α) : Prop :=
  ∀ s, Agrees tail s (few s) (more (s ++ tail))

theorem Agrees.within {s longer : List Char} {few more : Except Refusal (α × List Char)}
    (agrees : Agrees tail s few more) (shorter : s <:+ longer) : Agrees tail longer few more := by
  cases agrees with
  | tooDeep => exact .tooDeep more
  | mismatch => exact .mismatch
  | read a left => exact .read a (left.trans shorter)

theorem Agrees.same {s rest : List Char} {a : α} (left : rest <:+ s) :
    Agrees [] s (.ok (a, rest)) (.ok (a, rest)) := by
  have same : Agrees [] s (.ok (a, rest)) (.ok (a, rest ++ [])) := .read a left
  rwa [List.append_nil] at same

theorem Agrees.suffix {s rest : List Char} {a : α} {more : Except Refusal (α × List Char)}
    (agrees : Agrees tail s (.ok (a, rest)) more) : rest <:+ s := by
  cases agrees with
  | read _ left => exact left

/-- What is done with the values that are read agrees if it does for each of them. -/
theorem Agrees.after {s : List Char} {f g : α → Parser β} (next : ∀ a, CutOff tail (f a) (g a)) :
    ∀ few more, Agrees tail s few more →
      Agrees tail s
        (match few with
          | .ok (a, rest) => f a rest
          | .error e => .error e)
        (match more with
          | .ok (a, rest) => g a rest
          | .error e => .error e)
  | _, _, .tooDeep _ => .tooDeep _
  | _, _, .mismatch => .mismatch
  | _, _, .read a left => (next a _).within left

/-- The same where a mismatch is made good. -/
theorem Agrees.recover {s : List Char} {f g : α → Parser β}
    {few' more' : Except Refusal (β × List Char)} (missed : Agrees tail s few' more')
    (next : ∀ a, CutOff tail (f a) (g a)) :
    ∀ few more, Agrees tail s few more →
      Agrees tail s
        (match few with
          | .ok (a, rest) => f a rest
          | .error .mismatch => few'
          | .error .tooDeep => .error .tooDeep)
        (match more with
          | .ok (a, rest) => g a rest
          | .error .mismatch => more'
          | .error .tooDeep => .error .tooDeep)
  | _, _, .tooDeep _ => .tooDeep _
  | _, _, .mismatch => missed
  | _, _, .read a left => (next a _).within left

/-! ### Ways of putting parsers together -/

theorem cutOff_pure (a : α) : CutOff tail (pure a) (pure a) :=
  fun s => .read a (List.suffix_refl s)

theorem cutOff_mismatch : CutOff tail (mismatch : Parser α) mismatch :=
  fun _ => .mismatch

theorem cutOff_tooDeep (more : Parser α) : CutOff tail tooDeep more :=
  fun s => .tooDeep (more (s ++ tail))

theorem CutOff.bind {p q : Parser α} {f g : α → Parser β} (first : CutOff tail p q)
    (second : ∀ a, CutOff tail (f a) (g a)) : CutOff tail (p >>= f) (q >>= g) :=
  fun s => Agrees.after second _ _ (first s)

theorem CutOff.map {p q : Parser α} (cut : CutOff tail p q) (f : α → β) :
    CutOff tail (f <$> p) (f <$> q) :=
  fun s => Agrees.after (fun a => cutOff_pure (f a)) _ _ (cut s)

theorem CutOff.orElse {p q first second : Parser α} (left : CutOff tail p first)
    (right : CutOff tail q second) : CutOff tail (p <|> q) (first <|> second) := by
  intro s
  change Agrees tail s (Parser.orElse p (fun _ => q) s)
    (Parser.orElse first (fun _ => second) (s ++ tail))
  rw [Parser.orElse, Parser.orElse]
  generalize p s = few, first (s ++ tail) = more, left s = agrees
  cases agrees with
  | tooDeep => exact .tooDeep _
  | mismatch => exact right s
  | read a left => exact .read a left

theorem CutOff.optional {p q : Parser α} (cut : CutOff tail p q) :
    CutOff tail (Parser.optional p) (Parser.optional q) :=
  fun s => Agrees.recover (cutOff_pure none s) (fun a => cutOff_pure (some a)) _ _ (cut s)

/-! ### Spaces and characters -/

theorem Inert.foreign (inert : Inert tail) {c : Char} (other : c ≠ ';') : c ∉ tail := by
  cases inert with
  | nothing => exact List.not_mem_nil
  | semicolon => exact fun member => other (List.mem_singleton.1 member)

theorem Inert.cons_eq_append (inert : Inert tail) {c : Char} (other : c ≠ ';')
    {s more : List Char} (same : s ++ tail = c :: more) :
    ∃ rest, s = c :: rest ∧ more = rest ++ tail := by
  cases s with
  | nil =>
    cases inert with
    | nothing => cases same
    | semicolon =>
      cases same
      exact absurd rfl other
  | cons d rest =>
    cases same
    exact ⟨rest, rfl, rfl⟩

theorem Inert.append_ne_cons (inert : Inert tail) {c : Char} (other : c ≠ ';') {s : List Char}
    (ends : ∀ more, s ≠ c :: more) (more : List Char) : s ++ tail ≠ c :: more := by
  intro same
  obtain ⟨rest, found, -⟩ := inert.cons_eq_append other same
  exact ends rest found

section Prefix

variable {p : Char → Bool}

theorem Inert.takeWhile_append (inert : Inert tail) (stops : p ';' = false) (s : List Char) :
    (s ++ tail).takeWhile p = s.takeWhile p := by
  induction s with
  | nil =>
    cases inert with
    | nothing => rfl
    | semicolon => exact List.takeWhile_cons_of_neg (ne_true_of_eq_false stops)
  | cons c s ih => rw [List.cons_append, List.takeWhile_cons, List.takeWhile_cons, ih]

theorem Inert.dropWhile_append (inert : Inert tail) (stops : p ';' = false) (s : List Char) :
    (s ++ tail).dropWhile p = s.dropWhile p ++ tail := by
  induction s with
  | nil =>
    cases inert with
    | nothing => rfl
    | semicolon => exact List.dropWhile_cons_of_neg (ne_true_of_eq_false stops)
  | cons c s ih =>
    rw [List.cons_append, List.dropWhile_cons, List.dropWhile_cons, ih]
    split <;> rfl

end Prefix

theorem Inert.skipSpace_append (inert : Inert tail) (s : List Char) :
    Text.skipSpace (s ++ tail) = Text.skipSpace s ++ tail :=
  inert.dropWhile_append (by decide) s

theorem cutOff_spaces (inert : Inert tail) : CutOff tail spaces spaces := by
  intro s
  rw [spaces, spaces, inert.skipSpace_append]
  exact .read () (Text.skipSpace_suffix s)

theorem CutOff.spaced {p q : Parser α} (cut : CutOff tail p q) (inert : Inert tail) :
    CutOff tail (Parser.spaced p) (Parser.spaced q) := by
  refine (cutOff_spaces inert).bind fun _ => ?_
  refine cut.bind fun a => ?_
  exact (cutOff_spaces inert).bind fun _ => cutOff_pure a

theorem cutOff_char {c : Char} (foreign : c ∉ tail) : CutOff tail (char c) (char c) := by
  intro s
  cases s with
  | nil =>
    cases tail with
    | nil => exact .mismatch
    | cons d more =>
      have different : ¬ d = c := fun same => foreign (same ▸ List.mem_cons_self)
      rw [List.nil_append, char, char, if_neg different]
      exact .mismatch
  | cons d s =>
    rw [List.cons_append, char, char]
    split
    · exact .read () (List.suffix_cons d s)
    · exact .mismatch

/-! ### Loops -/

theorem CutOff.many {p q : Parser α} (cut : CutOff [] p q) : CutOff [] (many p) (many q) := by
  have loop (bound : List Char) (taken : List α) :
      CutOff [] (manyFrom p bound taken) (manyFrom q bound taken) := by
    induction bound generalizing taken with
    | nil => exact cutOff_pure taken.reverse
    | cons _ bound ih =>
      intro s
      exact Agrees.recover (cutOff_pure taken.reverse s) (fun a => ih (a :: taken)) _ _ (cut s)
  intro s
  have same := loop (' ' :: s) [] s
  rw [Parser.many, Parser.many]
  rwa [List.append_nil] at same ⊢

/-- What the parser leaves of a text is an end of the text. -/
def Leaves (p : Parser α) : Prop :=
  ∀ s a rest, p s = .ok (a, rest) → rest <:+ s

theorem CutOff.leaves {p q : Parser α} (cut : CutOff tail p q) : p.Leaves := by
  intro s a rest read
  have agrees := cut s
  rw [read] at agrees
  exact agrees.suffix

theorem Leaves.cutOff {p : Parser α} (leaves : p.Leaves) : CutOff [] p p := by
  intro s
  rw [List.append_nil]
  cases read : p s with
  | error e =>
    cases e with
    | mismatch => exact .mismatch
    | tooDeep => exact .tooDeep _
  | ok out => exact Agrees.same (leaves s out.1 out.2 read)

/-- A separator takes something of the text, and there is none at the end of the text. -/
structure Separates (separator : Parser Unit) : Prop where
  shorter : ∀ s rest, separator s = .ok ((), rest) → rest.length < s.length
  missing : separator [] = .error .mismatch

theorem separates_comma : Separates (spaced (char ',')) where
  missing := rfl
  shorter := by
    intro s rest read
    obtain ⟨_, visible, opened, read⟩ := bind_eq_ok_iff.1 read
    obtain ⟨_, after, found, read⟩ := bind_eq_ok_iff.1 read
    obtain ⟨_, closed, skipped, read⟩ := bind_eq_ok_iff.1 read
    cases opened
    cases skipped
    cases read
    have before := (Text.skipSpace_suffix s).length_le
    have behind := (Text.skipSpace_suffix after).length_le
    generalize Text.skipSpace s = visible at found before
    cases visible with
    | nil => cases found
    | cons c visible =>
      rw [char] at found
      split at found
      · cases found
        exact Nat.lt_of_le_of_lt behind before
      · cases found

/-- A bound of at least as many turns as there are characters does not end a list. -/
theorem moreFrom_bound {separator : Parser Unit} (separates : Separates separator) {p : Parser α}
    (leaves : p.Leaves) {bound longer : List Char} {taken : List α} {s : List Char}
    (enough : s.length ≤ bound.length) (more : bound.length ≤ longer.length) :
    moreFrom separator p bound taken s = moreFrom separator p longer taken s := by
  induction bound generalizing longer taken s with
  | nil =>
    have empty : s = [] := List.eq_nil_of_length_eq_zero (Nat.le_zero.1 enough)
    subst empty
    cases longer with
    | nil => rfl
    | cons _ longer =>
      have missed : (separator >>= fun _ => p) [] = .error .mismatch :=
        bind_mismatch separates.missing
      rw [moreFrom, moreFrom, missed]
  | cons _ bound ih =>
    cases longer with
    | nil => exact absurd more (Nat.not_succ_le_zero _)
    | cons _ longer =>
      rw [moreFrom, moreFrom]
      cases read : (separator >>= fun _ => p) s with
      | error e => cases e <;> rfl
      | ok out =>
        obtain ⟨_, between, separated, item⟩ := bind_eq_ok_iff.1 read
        have shorter := separates.shorter s between separated
        have left := (leaves between _ _ item).length_le
        rw [List.length_cons] at enough
        rw [List.length_cons, List.length_cons] at more
        exact ih (by omega) (by omega)

theorem CutOff.separated {separator : Parser Unit} (separates : Separates separator)
    {p q : Parser α} (between : CutOff tail separator separator) (cut : CutOff tail p q) :
    CutOff tail (separated separator p) (separated separator q) := by
  have loop (bound : List Char) (taken : List α) :
      CutOff tail (moreFrom separator p bound taken) (moreFrom separator q bound taken) := by
    induction bound generalizing taken with
    | nil => exact cutOff_pure taken.reverse
    | cons _ bound ih =>
      intro s
      exact Agrees.recover (cutOff_pure taken.reverse s) (fun a => ih (a :: taken)) _ _
        (between.bind (fun _ => cut) s)
  -- The bound is the rest of the text, so it is longer with something behind.
  have items (a : α) : CutOff tail (fun rest => moreFrom separator p rest [a] rest)
      (fun rest => moreFrom separator q rest [a] rest) := by
    intro rest
    have longer : rest.length ≤ (rest ++ tail).length := by
      rw [List.length_append]
      exact Nat.le_add_right _ _
    have same : moreFrom separator p rest [a] rest = moreFrom separator p (rest ++ tail) [a] rest :=
      moreFrom_bound separates cut.leaves (Nat.le_refl _) longer
    dsimp only
    rw [same]
    exact loop _ _ _
  intro s
  exact Agrees.recover (cutOff_pure [] s) items _ _ (cut s)

theorem CutOff.commaList {p q : Parser α} (cut : CutOff tail p q) (inert : Inert tail) :
    CutOff tail (commaList p) (commaList q) := by
  have comma : CutOff tail (Parser.spaced (char ',')) (Parser.spaced (char ',')) :=
    (cutOff_char (inert.foreign (by decide))).spaced inert
  refine (CutOff.separated separates_comma comma cut).bind fun items => ?_
  exact comma.optional.bind fun _ => cutOff_pure items

/-! ### Tokens -/

theorem afterWord?_behind {word : List Char} (foreign : ∀ c ∈ word, c ∉ tail) (s : List Char) :
    Text.afterWord? word (s ++ tail) = (Text.afterWord? word s).map (· ++ tail) := by
  induction word generalizing s with
  | nil => rfl
  | cons w word ih =>
    obtain ⟨here, later⟩ := List.forall_mem_cons.1 foreign
    cases s with
    | nil =>
      cases tail with
      | nil => rfl
      | cons d more =>
        have different : ¬ w = d := fun same => here (same ▸ List.mem_cons_self)
        simp only [List.nil_append, Text.afterWord?, if_neg different, Option.map_none]
    | cons c s =>
      rw [List.cons_append, Text.afterWord?, Text.afterWord?]
      split
      · exact ih later s
      · rfl

theorem cutOff_keyword (inert : Inert tail) {word : String} (foreign : ';' ∉ word.toList) :
    CutOff tail (keyword word) (keyword word) := by
  intro s
  have apart (c : Char) (letter : c ∈ word.toList) : c ∉ tail :=
    inert.foreign fun same => foreign (same ▸ letter)
  have other := afterWord?_behind apart s
  rw [keyword, keyword, other]
  cases found : Text.afterWord? word.toList s with
  | none => exact .mismatch
  | some rest =>
    have left : rest <:+ s := ⟨_, (Text.afterWord?_eq_some_iff.1 found).symm⟩
    cases rest with
    | nil =>
      cases inert with
      | nothing => exact .read () left
      | semicolon => exact .read () left
    | cons c rest =>
      dsimp only [Option.map_some, List.cons_append]
      split
      · exact .mismatch
      · exact .read () left

theorem cutOff_anyName (inert : Inert tail) : CutOff tail anyName anyName := by
  intro s
  cases s with
  | nil => cases inert <;> exact .mismatch
  | cons c s =>
    rw [List.cons_append, anyName, anyName, inert.takeWhile_append (by decide),
      inert.dropWhile_append (by decide)]
    split
    · exact .read _ ((List.dropWhile_suffix _).trans (List.suffix_cons c s))
    · exact .mismatch

theorem cutOff_name (inert : Inert tail) : CutOff tail name name := by
  refine (cutOff_anyName inert).bind fun found => ?_
  split
  · exact cutOff_mismatch
  · exact cutOff_pure found

theorem cutOff_oneOf (inert : Inert tail) {words : List (String × Expr)}
    (foreign : ∀ word ∈ words, ';' ∉ word.1.toList) :
    CutOff tail (oneOf words) (oneOf words) := by
  induction words with
  | nil => exact cutOff_mismatch
  | cons word words ih =>
    obtain ⟨here, later⟩ := List.forall_mem_cons.1 foreign
    exact ((cutOff_keyword inert here).bind fun _ => cutOff_pure word.2).orElse (ih later)

theorem cutOff_number (inert : Inert tail) : CutOff tail number number := by
  intro s
  have digits (s : List Char) := inert.takeWhile_append (p := Char.isDigit) (by decide) s
  have after (s : List Char) := inert.dropWhile_append (p := Char.isDigit) (by decide) s
  have left (s : List Char) : s.dropWhile Char.isDigit <:+ s := List.dropWhile_suffix _
  cases whole : s.takeWhile Char.isDigit with
  | nil =>
    rw [number_none whole, number_none ((digits s).trans whole)]
    exact .mismatch
  | cons d whole' =>
    by_cases point : ∃ more, s.dropWhile Char.isDigit = '.' :: more ∧
        more.takeWhile Char.isDigit ≠ []
    · obtain ⟨more, point, some⟩ := point
      obtain ⟨f, fraction, found⟩ := List.exists_cons_of_ne_nil some
      have behind : (s ++ tail).dropWhile Char.isDigit = '.' :: (more ++ tail) := by
        rw [after, point, List.cons_append]
      rw [number_fraction whole point found,
        number_fraction ((digits s).trans whole) behind ((digits more).trans found), after]
      exact .read _ ((left more).trans ((List.suffix_cons '.' more).trans (point ▸ left s)))
    · have none (more : List Char) (here : s.dropWhile Char.isDigit = '.' :: more) :
          more.takeWhile Char.isDigit = [] :=
        Decidable.of_not_not fun some => point ⟨more, here, some⟩
      have behind (more : List Char) (here : (s ++ tail).dropWhile Char.isDigit = '.' :: more) :
          more.takeWhile Char.isDigit = [] := by
        rw [after] at here
        obtain ⟨front, found, rfl⟩ := inert.cons_eq_append (by decide) here
        rw [digits, none front found]
      rw [number_integer whole none, number_integer ((digits s).trans whole) behind, after]
      split
      · exact .read _ (left s)
      · exact .mismatch

theorem cutOff_stringRest (inert : Inert tail) {quote : Char} (other : quote ≠ ';')
    (visible : quote ≠ '\\') (taken : List Char) :
    CutOff tail (stringRest quote taken) (stringRest quote taken) := by
  intro s
  have unclosed (taken : List Char) : Agrees tail [] (stringRest quote taken [])
      (stringRest quote taken tail) := by
    cases inert with
    | nothing => exact .mismatch
    | semicolon =>
      rw [stringRest_plain taken other.symm (by decide)]
      exact .mismatch
  fun_induction stringRest quote taken s with
  | case1 taken => exact unclosed taken
  | case2 taken rest =>
    rw [List.cons_append, stringRest_quote]
    exact .read _ (List.suffix_cons _ _)
  | case3 taken _ =>
    cases inert with
    | nothing =>
      rw [List.append_nil, stringRest_backslash taken visible]
      exact .mismatch
    | semicolon =>
      rw [List.singleton_append, stringRest_escape taken visible]
      exact .mismatch
  | case4 taken c rest _ ih =>
    rw [List.cons_append, List.cons_append, stringRest_escape taken visible]
    exact ih.within ((List.suffix_cons c rest).trans (List.suffix_cons '\\' _))
  | case5 taken c rest inside plain ih =>
    rw [List.cons_append, stringRest_plain taken inside plain]
    exact ih.within (List.suffix_cons c rest)

theorem cutOff_quotedString (inert : Inert tail) : CutOff tail quotedString quotedString := by
  have quoted {quote : Char} (other : quote ≠ ';') (visible : quote ≠ '\\') :
      CutOff tail (quotedWith quote) (quotedWith quote) :=
    (cutOff_char (inert.foreign other)).bind fun _ => cutOff_stringRest inert other visible []
  exact (quoted (by decide) (by decide)).orElse (quoted (by decide) (by decide))

theorem firstToken?_behind {tokens : List (String × BinaryOp)}
    (foreign : ∀ token ∈ tokens, ∀ c ∈ token.1.toList, c ∉ tail) (s : List Char) :
    firstToken? tokens (s ++ tail) =
      (firstToken? tokens s).map fun (token, op, rest) => (token, op, rest ++ tail) := by
  induction tokens with
  | nil => rfl
  | cons token tokens ih =>
    obtain ⟨here, later⟩ := List.forall_mem_cons.1 foreign
    obtain ⟨word, op⟩ := token
    have next := ih later
    simp only [firstToken?, List.findSome?_cons, afterWord?_behind here] at next ⊢
    cases Text.afterWord? word.toList s with
    | none => exact next
    | some rest => rfl

/-- What stands behind a text does not make an operator of it, nor take one away. -/
theorem operator?_behind (inert : Inert tail) (tier : Nat) (s : List Char) :
    operator? tier (s ++ tail) = (operator? tier s).map fun (op, rest) => (op, rest ++ tail) := by
  have foreign (token : String × BinaryOp) (member : token ∈ operatorTiers.getD tier [])
      (c : Char) (letter : c ∈ token.1.toList) : c ∉ tail :=
    inert.foreign fun same => semicolon_notMem_token member (same ▸ letter)
  rw [operator?, operator?, firstToken?_behind foreign]
  cases found : firstToken? (operatorTiers.getD tier []) s with
  | none => rfl
  | some first =>
    obtain ⟨token, op, rest⟩ := first
    have letters := semicolon_notMem_token (firstToken?_eq_some found).1
    dsimp only [Option.map_some]
    cases word : token.toList with
    | nil => rfl
    | cons c more =>
      cases more with
      | cons d more => rfl
      | nil =>
        cases rest with
        | cons next rest =>
          dsimp only [List.cons_append]
          split <;> rfl
        | nil =>
          cases inert with
          | nothing => rfl
          | semicolon =>
            have other : c ≠ ';' := fun same => letters (word ▸ same ▸ List.mem_cons_self)
            have apart : ¬ (refusesDoubled tier = true ∧ (';' = '=' ∨ ';' = c)) := by
              rintro ⟨-, same | same⟩
              · cases same
              · exact other same.symm
            exact if_neg apart

end Relay.Script.Parser
