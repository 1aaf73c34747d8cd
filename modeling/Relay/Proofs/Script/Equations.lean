import Relay.Proofs.Script.Rules
import Relay.Script.Grammar

/-! # Equations of the grammar

What the parsers that look ahead do at the next characters, one equation for each case: strings,
numbers and operators first, then templates, calls and what goes on after an operand.
-/

namespace Relay.Script.Parser

/-! ### Names and words -/

section Words

variable {word : String} {rest : List Char}

/-- Where the letters are. -/
theorem toNat_of_isAlpha {c : Char} (letter : c.isAlpha = true) :
    (65 ≤ c.toNat ∧ c.toNat ≤ 90) ∨ (97 ≤ c.toNat ∧ c.toNat ≤ 122) := by
  rcases Bool.or_eq_true_iff.1 letter with upper | lower
  · obtain ⟨low, high⟩ : 'A'.val ≤ c.val ∧ c.val ≤ 'Z'.val := of_decide_eq_true upper
    exact .inl ⟨UInt32.le_iff_toNat_le.1 low, UInt32.le_iff_toNat_le.1 high⟩
  · obtain ⟨low, high⟩ := Bool.and_eq_true_iff.1 lower
    exact .inr ⟨UInt32.le_iff_toNat_le.1 (of_decide_eq_true low),
      UInt32.le_iff_toNat_le.1 (of_decide_eq_true high)⟩

theorem isNameChar_of_isNameStart {c : Char} (start : isNameStart c = true) :
    isNameChar c = true := by
  simp only [isNameStart, isNameChar, Bool.or_eq_true, decide_eq_true_eq] at start ⊢
  refine start.imp_left (Or.imp_left fun letter => ?_)
  have ascii : c.toNat < 0x80 := by
    have bounds := toNat_of_isAlpha letter
    omega
  rw [Text.isAlphanumeric_of_ascii ascii, Char.isAlphanum, letter, Bool.true_or]

theorem isSpace_of_isNameChar {c : Char} (letter : isNameChar c = true) :
    Text.isSpace c = false := by
  cases blank : Text.isSpace c with
  | false => rfl
  | true =>
    simp only [Text.isSpace, Bool.or_eq_true, decide_eq_true_eq] at blank
    rcases blank with ((rfl | rfl) | rfl) | rfl <;> cases letter

/-- A text that does not go on with a name. -/
def Apart (rest : List Char) : Prop :=
  ∀ c cs, rest = c :: cs → isNameChar c = false

private theorem apart_afterWord? {word : List Char} (letters : ∀ c ∈ word, isNameChar c = true)
    {found after : List Char} (name : ∀ c ∈ found, isNameChar c = true) (apart : Apart rest)
    (same : found ++ rest = word ++ after) :
    (∃ more, found = word ++ more ∧ after = more ++ rest) := by
  obtain ⟨more, rfl, here⟩ | ⟨more, rfl, here⟩ := List.append_eq_append_iff.1 same
  · cases more with
    | nil => exact ⟨[], by rw [List.append_nil, List.append_nil], here.symm⟩
    | cons c more =>
      have letter := letters c (List.mem_append_right _ List.mem_cons_self)
      rw [apart c _ here] at letter
      cases letter
  · exact ⟨more, rfl, here⟩

theorem keyword_word (apart : Apart rest) :
    keyword word (word.toList ++ rest) = .ok ((), rest) := by
  rw [keyword, Text.afterWord?_append]
  cases rest with
  | nil => rfl
  | cons c rest =>
    dsimp only
    rw [apart c rest rfl, if_neg Bool.false_ne_true]

/-- A name is no other word. -/
theorem keyword_name (letters : ∀ c ∈ word.toList, isNameChar c = true) {found : List Char}
    (name : ∀ c ∈ found, isNameChar c = true) (apart : Apart rest) (other : found ≠ word.toList) :
    keyword word (found ++ rest) = .error .mismatch := by
  rw [keyword]
  cases read : Text.afterWord? word.toList (found ++ rest) with
  | none => rfl
  | some after =>
    obtain ⟨more, shape, rfl⟩ :=
      apart_afterWord? letters name apart (Text.afterWord?_eq_some_iff.1 read)
    cases more with
    | nil => exact absurd (shape.trans (List.append_nil _)) other
    | cons c more =>
      have letter := name c (shape ▸ List.mem_append_right _ List.mem_cons_self)
      rw [List.cons_append]
      dsimp only
      rw [letter, if_pos rfl]

theorem keyword_none {c : Char} (start : ∀ d ds, word.toList = d :: ds → d ≠ c)
    (some : word.toList ≠ []) : keyword word (c :: rest) = .error .mismatch := by
  cases letters : word.toList with
  | nil => exact absurd letters some
  | cons d ds => rw [keyword, letters, Text.afterWord?, if_neg (start d ds letters)]

theorem takeWhile_apart {p : Char → Bool} (narrow : ∀ c, p c = true → isNameChar c = true)
    {found : List Char} (all : ∀ c ∈ found, p c = true) (apart : Apart rest) :
    (found ++ rest).takeWhile p = found ∧ (found ++ rest).dropWhile p = rest := by
  have stops : rest.takeWhile p = [] ∧ rest.dropWhile p = rest := by
    cases rest with
    | nil => exact ⟨rfl, rfl⟩
    | cons c rest =>
      have ends : ¬ p c = true := fun more => by
        have letter := narrow c more
        rw [apart c rest rfl] at letter
        cases letter
      exact ⟨List.takeWhile_cons_of_neg ends, List.dropWhile_cons_of_neg ends⟩
  rw [List.takeWhile_append_of_pos all, List.dropWhile_append_of_pos all, stops.1, stops.2]
  exact ⟨List.append_nil found, rfl⟩

theorem anyName_name {c : Char} {cs : List Char} (start : isNameStart c = true)
    (name : ∀ d ∈ cs, isNameChar d = true) (apart : Apart rest) :
    anyName (c :: cs ++ rest) = .ok (String.ofList (c :: cs), rest) := by
  obtain ⟨taken, left⟩ := takeWhile_apart (fun _ same => same) name apart
  rw [List.cons_append, anyName, if_pos start, taken, left]

end Words

/-! ### Strings -/

section Strings

variable {quote : Char} (taken : List Char)

theorem stringRest_quote (rest : List Char) :
    stringRest quote taken (quote :: rest) = .ok (String.ofList taken.reverse, rest) := by
  rw [stringRest.eq_def]
  exact if_pos rfl

theorem stringRest_escape (other : quote ≠ '\\') (c : Char) (rest : List Char) :
    stringRest quote taken ('\\' :: c :: rest) =
      stringRest quote ((unescape quote c).reverse ++ taken) rest := by
  rw [stringRest.eq_def]
  dsimp only
  rw [if_neg other.symm, if_pos rfl]

theorem stringRest_backslash (other : quote ≠ '\\') :
    stringRest quote taken ['\\'] = .error .mismatch := by
  rw [stringRest.eq_def]
  dsimp only
  rw [if_neg other.symm, if_pos rfl]

theorem stringRest_plain {c : Char} (inside : c ≠ quote) (plain : c ≠ '\\') (rest : List Char) :
    stringRest quote taken (c :: rest) = stringRest quote (c :: taken) rest := by
  rw [stringRest.eq_def]
  dsimp only
  rw [if_neg inside, if_neg plain]

end Strings

/-! ### Numbers -/

theorem number_none {s : List Char} (digits : s.takeWhile Char.isDigit = []) :
    number s = .error .mismatch := by
  simp only [number, digits]

/-- Digits without a fraction are an integer, if it is within range. -/
theorem number_integer {d : Char} {s whole : List Char}
    (digits : s.takeWhile Char.isDigit = d :: whole)
    (fraction : ∀ after, s.dropWhile Char.isDigit = '.' :: after →
      after.takeWhile Char.isDigit = []) :
    number s =
      if Decimal.natOfDigits (d :: whole) < 0x8000_0000_0000_0000 then
        .ok (.int (Int64.ofNat (Decimal.natOfDigits (d :: whole))), s.dropWhile Char.isDigit)
      else .error .mismatch := by
  simp only [number, digits]
  split
  · rename_i after point
    simp only [fraction after point]
  · rfl

theorem number_fraction {d f : Char} {s whole after fraction : List Char}
    (digits : s.takeWhile Char.isDigit = d :: whole)
    (point : s.dropWhile Char.isDigit = '.' :: after)
    (more : after.takeWhile Char.isDigit = f :: fraction) :
    number s =
      .ok (.float (Decimal.nearest (Decimal.natOfDigits (d :: whole ++ f :: fraction))
        (-(f :: fraction).length)), after.dropWhile Char.isDigit) := by
  simp only [number, digits, point, more]

end Relay.Script.Parser

namespace Relay.Script

/-! ### Operators -/

theorem firstToken?_eq_some {tokens : List (String × BinaryOp)} {s rest : List Char}
    {token : String} {op : BinaryOp} (found : firstToken? tokens s = some (token, op, rest)) :
    (token, op) ∈ tokens ∧ s = token.toList ++ rest := by
  obtain ⟨⟨word, meant⟩, member, here⟩ := List.exists_of_findSome?_eq_some found
  obtain ⟨after, read, same⟩ := Option.map_eq_some_iff.1 here
  cases same
  exact ⟨member, Text.afterWord?_eq_some_iff.1 read⟩

/-- What is read as an operator is one of the tokens of its tier. -/
theorem operator?_eq_some {tier : Nat} {s rest : List Char} {op : BinaryOp}
    (found : operator? tier s = some (op, rest)) :
    ∃ token, (token, op) ∈ operatorTiers.getD tier [] ∧ s = token.toList ++ rest := by
  rw [operator?] at found
  split at found
  · cases found
  · rename_i token op after first
    refine ⟨token, ?_⟩
    split at found
    · split at found
      · cases found
      · cases found
        exact firstToken?_eq_some first
    · cases found
      exact firstToken?_eq_some first

/-- What holds of the tokens of every tier. -/
theorem forall_tokens {P : String × BinaryOp → Prop}
    (all : ∀ tokens ∈ operatorTiers, ∀ token ∈ tokens, P token) {tier : Nat}
    {token : String × BinaryOp} (member : token ∈ operatorTiers.getD tier []) : P token := by
  rw [List.getD_eq_getElem?_getD] at member
  cases found : operatorTiers[tier]? with
  | none =>
    rw [found] at member
    exact absurd member List.not_mem_nil
  | some tokens =>
    rw [found] at member
    exact all tokens (List.mem_of_getElem? found) token member

theorem semicolon_notMem_token {tier : Nat} {token : String × BinaryOp}
    (member : token ∈ operatorTiers.getD tier []) : ';' ∉ token.1.toList :=
  forall_tokens (P := fun token => ';' ∉ token.1.toList) (by decide) member

namespace Grammar

open Relay.Script.Parser

variable {below : Option (Thunk Grammar)} {g : Grammar} {expression : Parser Expr}
  {e : Expr} {s rest : List Char}

/-! ### Templates -/

section Templates

variable {turn : Char} {bound text : List Char} {holes : List (String × Expr)}

/-- A hole of a template, after what opens it. -/
def hole (expression : Parser Expr) : Parser Expr := do
  let e ← spaced expression
  char '\x7d'
  return e

/-- What the rest of a template may start with. -/
inductive TemplateFront : List Char → Prop
  | nothing : TemplateFront []
  | close (rest : List Char) : TemplateFront ('\x60' :: rest)
  | hole (rest : List Char) : TemplateFront ('$' :: '\x7b' :: rest)
  | escape (c : Char) (rest : List Char) : TemplateFront ('\\' :: c :: rest)
  | backslash : TemplateFront ['\\']
  | plain (c : Char) (rest : List Char) (quote : c ≠ '\x60') (escape : c ≠ '\\')
      (outside : c = '$' → ∀ more, rest ≠ '\x7b' :: more) : TemplateFront (c :: rest)

theorem templateFront (s : List Char) : TemplateFront s := by
  cases s with
  | nil => exact .nothing
  | cons c rest =>
    by_cases quote : c = '\x60'
    · exact quote ▸ .close rest
    by_cases escape : c = '\\'
    · cases rest with
      | nil => exact escape ▸ .backslash
      | cons d rest => exact escape ▸ .escape d rest
    by_cases opens : c = '$' ∧ ∃ more, rest = '\x7b' :: more
    · obtain ⟨rfl, more, rfl⟩ := opens
      exact .hole more
    · exact .plain c rest quote escape fun dollar more same => opens ⟨dollar, more, same⟩

theorem templateRest_nil : templateRest expression bound holes text [] = .error .mismatch := by
  cases bound <;> rfl

theorem templateRest_close : templateRest expression (turn :: bound) holes text ('\x60' :: rest) =
    .ok (.template holes.reverse (String.ofList text.reverse), rest) := rfl

theorem templateRest_hole : templateRest expression (turn :: bound) holes text
      ('$' :: '\x7b' :: rest) =
    match hole expression rest with
    | .ok (e, rest) =>
      templateRest expression bound ((String.ofList text.reverse, e) :: holes) [] rest
    | .error e => .error e := rfl

theorem templateRest_escape {c : Char} :
    templateRest expression (turn :: bound) holes text ('\\' :: c :: rest) =
      templateRest expression bound holes
        ((if c = 'n' then '\n' else if c = 't' then '\t' else c) :: text) rest := rfl

theorem templateRest_backslash :
    templateRest expression bound holes text ['\\'] = .error .mismatch := by
  cases bound <;> rfl

theorem templateRest_plain {c : Char} (quote : c ≠ '\x60') (plain : c ≠ '\\')
    (outside : c = '$' → ∀ more, rest ≠ '\x7b' :: more) :
    templateRest expression (turn :: bound) holes text (c :: rest) =
      templateRest expression bound holes (c :: text) rest := by
  rw [templateRest.eq_def]
  dsimp only
  split
  · rename_i same
    cases same
  · rename_i same
    cases same
    exact absurd rfl quote
  · rename_i same
    cases same
    exact absurd rfl (outside rfl _)
  · rename_i same
    cases same
    exact absurd rfl plain
  · rename_i same
    cases same
    exact absurd rfl plain
  · rename_i same
    cases same
    rfl

end Templates

/-! ### Calls and fields -/

theorem callOrName_call {found : String} {between after : List Char}
    (read : name s = .ok (found, between)) (ahead : Text.skipSpace between = '(' :: after) :
    callOrName expression s = (Expr.call found <$> arguments expression) ('(' :: after) := by
  have look : (Except.ok (Text.skipSpace between, between) : Except Refusal _) =
      .ok ('(' :: after, between) := by rw [ahead]
  have open_ : spaces between = .ok ((), '(' :: after) := by rw [spaces, ahead]
  rw [callOrName, bind_ok read]
  refine (bind_ok look).trans ?_
  refine (bind_ok open_).trans ?_
  rfl

theorem callOrName_name {found : String} {between : List Char}
    (read : name s = .ok (found, between))
    (ahead : ∀ after, Text.skipSpace between ≠ '(' :: after) :
    callOrName expression s = .ok (.ident found, between) := by
  have look : (Except.ok (Text.skipSpace between, between) : Except Refusal _) =
      .ok (Text.skipSpace between, between) := rfl
  rw [callOrName, bind_ok read]
  refine (bind_ok look).trans ?_
  generalize Text.skipSpace between = visible at ahead
  split
  · rename_i after
    exact absurd rfl (ahead after)
  · rfl

theorem member_call {found : String} {after : List Char}
    (read : spaced anyName s = .ok (found, '(' :: after)) :
    member g e s = (methodCall e found <$> arguments g.expression) ('(' :: after) := by
  rw [member]
  exact bind_ok read

theorem member_field {found : String} (read : spaced anyName s = .ok (found, rest))
    (ahead : ∀ after, rest ≠ '(' :: after) : member g e s = .ok (.field e found, rest) := by
  rw [member]
  refine (bind_ok read).trans ?_
  split
  · exact absurd rfl (ahead _)
  · rfl

theorem postfixRestStep_field (ahead : Text.skipSpace s = '.' :: rest) :
    postfixRestStep below e s = enter below (fun g => member g e >>= g.postfixRest) rest := by
  rw [postfixRestStep, ahead]
  rfl

theorem postfixRestStep_index (ahead : Text.skipSpace s = '[' :: rest) :
    postfixRestStep below e s = enter below (fun g => subscript g e >>= g.postfixRest) rest := by
  rw [postfixRestStep, ahead]
  rfl

theorem postfixRestStep_end (field : ∀ rest, Text.skipSpace s ≠ '.' :: rest)
    (index : ∀ rest, Text.skipSpace s ≠ '[' :: rest) :
    postfixRestStep below e s = .ok (e, s) := by
  rw [postfixRestStep]
  split
  · rename_i same
    exact absurd same (field _)
  · rename_i same
    exact absurd same (index _)
  · rfl

/-! ### Operators -/

/-- The character of an operator before its operand. -/
def sign : UnaryOp → Char
  | .not => '!'
  | .neg => '-'

/-- The text starts with the operator: its character is not the start of another token. -/
structure Signed (op : UnaryOp) (s rest : List Char) : Prop where
  ahead : s = sign op :: rest
  single : ∀ more, rest ≠ '=' :: more
  simple : op = .neg → ∀ more, rest ≠ '-' :: more

theorem unaryStep_signed {op : UnaryOp} (signed : Signed op (Text.skipSpace s) rest) :
    unaryStep below s = enter below (fun g => Expr.unary op <$> g.unary) rest := by
  obtain ⟨ahead, single, simple⟩ := signed
  rw [unaryStep, ahead]
  cases op with
  | not =>
    dsimp only [sign]
    split
    · rename_i same
      cases same
      exact absurd rfl (single _)
    · rename_i same
      cases same
      rfl
    · rename_i same
      cases same
    · rename_i same
      cases same
    · rename_i same
      cases same
    · rename_i other _ _ _
      exact absurd rfl (other rest)
  | neg =>
    dsimp only [sign]
    split
    · rename_i same
      cases same
    · rename_i same
      cases same
    · rename_i same
      cases same
      exact absurd rfl (simple rfl _)
    · rename_i same
      cases same
      exact absurd rfl (single _)
    · rename_i same
      cases same
      rfl
    · rename_i other
      exact absurd rfl (other rest)

theorem unaryStep_operand (unsigned : ∀ op rest, ¬ Signed op (Text.skipSpace s) rest) :
    unaryStep below s = postfixed below (Text.skipSpace s) := by
  rw [unaryStep]
  split
  · rename_i same
    rw [same]
  · rename_i single same
    exact absurd ⟨same, single, nofun⟩ (unsigned .not _)
  · rename_i same
    rw [same]
  · rename_i same
    rw [same]
  · rename_i simple single same
    exact absurd ⟨same, single, fun _ => simple⟩ (unsigned .neg _)
  · rfl

theorem tierRestStep_operator {tier : Nat} {op : BinaryOp}
    (ahead : operator? tier (Text.skipSpace s) = some (op, rest)) :
    tierRestStep below tier e s =
      enter below (fun g => do
        let right ← g.tier tier
        g.tierRest tier (.binary op e right)) rest := by
  rw [tierRestStep, ahead]

theorem tierRestStep_end {tier : Nat} (ahead : operator? tier (Text.skipSpace s) = none) :
    tierRestStep below tier e s = .ok (e, s) := by
  rw [tierRestStep, ahead]

theorem conditionalRest_question (ahead : Text.skipSpace s = '?' :: rest) :
    conditionalRest g e s =
      (do
        let yes ← spaced g.expression
        char ':'
        let no ← g.expression
        return .conditional e yes no : Parser Expr) rest := by
  rw [conditionalRest, ahead]
  rfl

theorem conditionalRest_end (ahead : ∀ rest, Text.skipSpace s ≠ '?' :: rest) :
    conditionalRest g e s = .ok (e, s) := by
  rw [conditionalRest]
  split
  · rename_i same
    exact absurd same (ahead _)
  · rfl

/-! ### Statements -/

/-- A statement is read with the first alternative that takes it; those before returning want a
semicolon or another word. -/
theorem statement_return {between : List Char} (apart : Apart s)
    (read : g.expression s = .ok (e, between)) (ends : endOfStatement between = .ok ((), rest)) :
    (step (some ⟨fun _ => g⟩)).statement ("return".toList ++ s) = .ok (.ret (some e), rest) := by
  have turn : (step (some ⟨fun _ => g⟩)).statement ("return".toList ++ s) =
      (emptyStatement <|> declaration g <|> branching g <|> returning g <|>
        (Stmt.block <$> block g) <|> assignment g <|> expressionStatement g)
        ("return".toList ++ s) := rfl
  have given : optional g.expression s = .ok (some e, between) := by rw [Parser.optional, read]
  have returned : returning g ("return".toList ++ s) = .ok (.ret (some e), rest) := by
    rw [returning, bind_ok (keyword_word apart), bind_ok given, bind_ok ends, pure_run]
  have empty : emptyStatement ("return".toList ++ s) = .error .mismatch := rfl
  have declared : declaration g ("return".toList ++ s) = .error .mismatch := rfl
  have branched : branching g ("return".toList ++ s) = .error .mismatch := rfl
  rw [turn, orElse_mismatch empty, orElse_mismatch declared, orElse_mismatch branched,
    orElse_ok returned]

end Grammar

end Relay.Script
