import Relay.Proofs.Json.RoundTrip
import Relay.Proofs.Script.Settling

/-! # Reading what was printed

The text of a plain expression is read as the expression, with enough levels. What is shown of a
text depends on its rank: an operand is read in front of whatever steps follow it, an operator chain
in front of further operators of its tier, since operators of one tier group to the left, and a
conditional in front of whatever ends an expression. A text of one rank is a text of every higher
rank, and parentheses make an operand of any. Beside the levels that it needs by itself, an operand
or a chain holds some while what follows it is read.
-/

namespace Relay.Script

open Relay.Script.Parser Relay.Script.Grammar

/-! ### Ranks -/

variable {need held : Nat}

/-- The text is read as an operand that further steps apply to. -/
structure ReadsOperand (need held : Nat) (text : List Char) (e : Expr) : Prop where
  head : ∃ c cs, text = c :: cs ∧ Text.isSpace c = false ∧ c ≠ '!' ∧ c ≠ '-' ∧ c ≠ '='
  read : ∀ rest a after k l, Behind rest →
    Settles k (fun n => (ofLevels n).postfixRest e) rest a after → need ≤ l → held + k ≤ l →
    Settles l (fun n => postfixed (belowOf n)) (text ++ rest) a after

/-- The text is read as an expression of the first so many tiers. -/
def ReadsTier (need tier : Nat) (text : List Char) (e : Expr) : Prop :=
  ∀ rest, Stops tier rest → Settles need (fun n => (ofLevels n).tier tier) (text ++ rest) e rest

/-- The text is read as a left operand that further operators of the tier apply to. -/
def ReadsChain (need held tier : Nat) (text : List Char) (e : Expr) : Prop :=
  ∀ rest a after k l, Stops tier rest →
    Settles k (fun n => (ofLevels n).tierRest tier e) rest a after → need ≤ l → held + k ≤ l →
    Settles l (fun n => (ofLevels n).tier (tier + 1)) (text ++ rest) a after

/-- The text is read as an expression. -/
def ReadsWhole (need : Nat) (text : List Char) (e : Expr) : Prop :=
  ∀ rest, Final rest → Settles need (fun n => (ofLevels n).expression) (text ++ rest) e rest

/-- The text is read as what its rank says, with so many levels for what is inside. -/
def ReadsAs (need held : Nat) : Nat → List Char → Expr → Prop
  | 0, text, e => ReadsOperand need held text e
  | 1, text, e => ReadsTier need 0 text e
  | tier + 2, text, e =>
    if tier < tierCount then ReadsChain need held tier text e else ReadsWhole (need + 1) text e

section Ranks

variable {text : List Char} {e : Expr}

theorem ReadsTier.more {more tier : Nat} (reads : ReadsTier need tier text e) (le : need ≤ more) :
    ReadsTier more tier text e :=
  fun rest stops => (reads rest stops).more le

theorem ReadsWhole.more {more : Nat} (reads : ReadsWhole need text e) (le : need ≤ more) :
    ReadsWhole more text e :=
  fun rest final => (reads rest final).more le

theorem ReadsOperand.unary (operand : ReadsOperand need held text e) (within : held ≤ need) :
    ReadsTier need 0 text e := by
  intro rest stops
  obtain ⟨c, cs, rfl, visible, not, neg, -⟩ := operand.head
  have shown : Text.skipSpace (c :: cs ++ rest) = c :: (cs ++ rest) :=
    Text.skipSpace_visible _ visible
  have unsigned (op : UnaryOp) (more : List Char) :
      ¬ Signed op (Text.skipSpace (c :: cs ++ rest)) more := by
    rintro ⟨signed, -, -⟩
    cases op with
    | not => exact not (List.cons.inj (shown.symm.trans signed)).1
    | neg => exact neg (List.cons.inj (shown.symm.trans signed)).1
  have ends := settles_postfixRest_end (k := 0) (e := e) stops.field stops.index
  have read := operand.read rest e rest 0 need stops.behind ends (Nat.le_refl need) within
  refine (settles_operand unsigned read).congr fun levels => ?_
  rw [ofLevels_eq_step]
  rfl

theorem ReadsTier.chain {tier : Nat} (reads : ReadsTier need tier text e) :
    ReadsChain need 0 tier text e := by
  intro rest a after k l stops more enough held
  rw [Nat.zero_add] at held
  exact settles_tier ((reads rest stops).more enough) (more.more held)

theorem ReadsChain.next {tier : Nat} (reads : ReadsChain need held tier text e)
    (within : held ≤ need) : ReadsTier need (tier + 1) text e := by
  intro rest stops
  have ends :=
    settles_tierRest_end (k := 0) (e := e) (stops.operator tier (Nat.lt_succ_self tier))
  exact reads rest e rest 0 need (stops.fewer (Nat.le_succ tier)) ends (Nat.le_refl need) within

theorem ReadsTier.later {tier later : Nat} (reads : ReadsTier need tier text e)
    (le : tier ≤ later) : ReadsTier need later text e := by
  induction le with
  | refl => exact reads
  | step _ ih => exact ih.chain.next (Nat.zero_le need)

theorem ReadsTier.whole (reads : ReadsTier need tierCount text e) :
    ReadsWhole (need + 1) text e := by
  intro rest final
  exact settles_expression (reads rest final.toStops) (settles_conditional_end final.question)

theorem ReadsAs.tier {rank tier : Nat} (reads : ReadsAs need held rank text e)
    (within : held ≤ need) (below : rank ≤ tier + 1) (count : tier ≤ tierCount) :
    ReadsTier need tier text e := by
  match rank, reads with
  | 0, operand => exact (ReadsOperand.unary operand within).later (Nat.zero_le tier)
  | 1, unary => exact ReadsTier.later unary (Nat.zero_le tier)
  | own + 2, reads =>
    have chained : ReadsChain need held own text e := by
      rw [ReadsAs, if_pos (by omega)] at reads
      exact reads
    exact (chained.next within).later (by omega)

/-- A chain goes on in its own tier; what is of a stronger rank holds nothing any more. -/
theorem ReadsAs.chain {rank tier : Nat} (reads : ReadsAs need held rank text e)
    (within : held ≤ need) (bound : rank ≤ tier + 2) (count : tier < tierCount) :
    ReadsChain need (if rank = tier + 2 then held else 0) tier text e := by
  by_cases own : rank = tier + 2
  · subst own
    rw [ReadsAs, if_pos count] at reads
    rw [if_pos rfl]
    exact reads
  · rw [if_neg own]
    exact (reads.tier within (by omega) (Nat.le_of_lt count)).chain

theorem ReadsAs.whole {rank : Nat} (reads : ReadsAs need held rank text e) (within : held ≤ need)
    (bound : rank ≤ 8) : ReadsWhole (need + 1) text e := by
  by_cases own : rank = 8
  · subst own
    exact reads
  · have below : rank ≤ tierCount + 1 := by
      change rank ≤ 7
      omega
    exact (reads.tier within below (Nat.le_refl _)).whole

end Ranks

/-! ### Operands -/

section Atoms

variable {expression : Parser Expr} {c : Char} {s rest : List Char}

/-- The alternatives of an operand, after the spaces in front of it. -/
def operandAlternatives (expression : Parser Expr) : Parser Expr :=
  wordLiteral <|> number <|> (Expr.string <$> quotedString) <|> template expression
    <|> listLiteral expression <|> mapLiteral expression <|> parenthesized expression
    <|> callOrName expression

theorem readsOperand_of_reads {text : List Char} {e : Expr}
    (head : ∃ c cs, text = c :: cs ∧ Text.isSpace c = false ∧ c ≠ '!' ∧ c ≠ '-' ∧ c ≠ '=')
    (reads : ∀ rest, Behind rest →
      Reads need (fun n => operandAlternatives (ofLevels n).expression) (text ++ rest) e rest) :
    ReadsOperand need 0 text e where
  head := head
  read rest a after k l behind more enough held := by
    obtain ⟨c, cs, rfl, visible, -⟩ := head
    have shown : Text.skipSpace (c :: cs ++ rest) = c :: cs ++ rest :=
      Text.skipSpace_visible _ visible
    have atoms := settles_spaces (shown.symm ▸ reads rest behind)
    rw [Nat.zero_add] at held
    have both := (atoms.more enough).bind (f := fun n => (ofLevels n).postfixRest) (more.more held)
    refine both.congr fun levels => ?_
    rw [ofLevels_eq_step]
    rfl

private theorem words_mismatch (other : c ≠ 'n' ∧ c ≠ 'u' ∧ c ≠ 't' ∧ c ≠ 'f') :
    wordLiteral (c :: s) = .error .mismatch := by
  have missed {word : String} {e : Expr} {d : Char} {ds : List Char}
      (letters : word.toList = d :: ds) (apart : d ≠ c) :
      (keyword word >>= fun _ => pure e : Parser Expr) (c :: s) = .error .mismatch :=
    bind_mismatch (keyword_none (fun _ _ same => by cases letters.symm.trans same; exact apart)
      (by rw [letters]; exact List.cons_ne_nil _ _))
  obtain ⟨n, u, t, f⟩ := other
  change oneOf _ _ = _
  simp only [oneOf, List.foldr_cons, List.foldr_nil]
  rw [orElse_mismatch (missed rfl n.symm), orElse_mismatch (missed rfl u.symm),
    orElse_mismatch (missed rfl t.symm), orElse_mismatch (missed rfl f.symm)]
  rfl

private theorem number_mismatch (other : c.isDigit = false) :
    number (c :: s) = .error .mismatch :=
  number_none (List.takeWhile_cons_of_neg (Bool.not_eq_true _ ▸ other))

private theorem string_mismatch (other : c ≠ '"' ∧ c ≠ '\'') :
    quotedString (c :: s) = .error .mismatch := by
  have missed {quote : Char} (other : c ≠ quote) :
      quotedWith quote (c :: s) = .error .mismatch :=
    bind_mismatch (char_mismatch other s)
  rw [quotedString, orElse_mismatch (missed other.1), missed other.2]

private theorem reads_ok {α : Type} {p : Parser α} {a : α} (taken : p s = .ok (a, rest)) :
    Reads need (fun _ => p) s a rest :=
  fun _ _ => ⟨rest, taken, rfl⟩

end Atoms

theorem readsOperand_null : ReadsOperand need 0 "null".toList .null := by
  refine readsOperand_of_reads ⟨'n', ['u', 'l', 'l'], rfl, by decide⟩ fun rest behind => ?_
  refine reads_first (reads_ok ?_)
  change oneOf _ _ = _
  simp only [oneOf, List.foldr_cons]
  exact orElse_ok (bind_ok (keyword_word behind.apart))

theorem readsOperand_bool (b : Bool) :
    ReadsOperand need 0 (if b then "true" else "false").toList (.bool b) := by
  cases b with
  | true =>
    refine readsOperand_of_reads ⟨'t', ['r', 'u', 'e'], rfl, by decide⟩ fun rest behind => ?_
    refine reads_first (reads_ok ?_)
    change oneOf _ _ = _
    simp only [oneOf, List.foldr_cons]
    rw [orElse_mismatch rfl, orElse_mismatch rfl]
    exact orElse_ok (bind_ok (keyword_word behind.apart))
  | false =>
    refine readsOperand_of_reads ⟨'f', ['a', 'l', 's', 'e'], rfl, by decide⟩ fun rest behind => ?_
    refine reads_first (reads_ok ?_)
    change oneOf _ _ = _
    simp only [oneOf, List.foldr_cons]
    rw [orElse_mismatch rfl, orElse_mismatch rfl, orElse_mismatch rfl]
    exact orElse_ok (bind_ok (keyword_word behind.apart))

private theorem ne_of_isDigit {c d : Char} (digit : c.isDigit = true) (other : d.isDigit = false) :
    c ≠ d := by
  rintro rfl
  rw [digit] at other
  cases other

private theorem not_isDigit_of_isNameStart {c : Char} (start : isNameStart c = true) :
    c.isDigit = false := by
  cases digit : c.isDigit with
  | false => rfl
  | true =>
    simp only [isNameStart, Bool.or_eq_true, decide_eq_true_eq] at start
    obtain (letter | rfl) | rfl := start
    · have high : c.toNat ≤ 57 :=
        UInt32.le_iff_toNat_le.1 (of_decide_eq_true (Bool.and_eq_true_iff.1 digit).2)
      have bounds := toNat_of_isAlpha letter
      omega
    · cases digit
    · cases digit

theorem isNameChar_of_isDigit {c : Char} (digit : c.isDigit = true) :
    isNameChar c = true := by
  have ascii : c.toNat < 0x80 := by
    simp only [Char.isDigit, Bool.and_eq_true, decide_eq_true_eq, UInt32.le_iff_toNat_le] at digit
    have high : '9'.val.toNat = 57 := by decide
    change c.val.toNat < 0x80
    omega
  rw [isNameChar, Text.isAlphanumeric_of_ascii ascii, Char.isAlphanum, digit, Bool.or_true,
    Bool.true_or, Bool.true_or]

theorem readsOperand_int {n : Int64} (natural : 0 ≤ n) :
    ReadsOperand need 0 (Nat.toDigits 10 n.toNatClampNeg) (.int n) := by
  obtain ⟨d, ds, shape⟩ :=
    List.exists_cons_of_ne_nil (Nat.toDigits_ne_nil (n := n.toNatClampNeg) (b := 10))
  have digits := Json.isDigit_toDigits n.toNatClampNeg
  have first : d.isDigit = true := digits d (shape ▸ List.mem_cons_self)
  have visible : Text.isSpace d = false := isSpace_of_isNameChar (isNameChar_of_isDigit first)
  refine readsOperand_of_reads ⟨d, ds, shape, visible, ne_of_isDigit first rfl,
    ne_of_isDigit first rfl, ne_of_isDigit first rfl⟩ fun rest behind => ?_
  obtain ⟨taken, left⟩ := takeWhile_apart (fun _ => isNameChar_of_isDigit) digits behind.apart
  have fraction (after : List Char)
      (point : (Nat.toDigits 10 n.toNatClampNeg ++ rest).dropWhile Char.isDigit = '.' :: after) :
      after.takeWhile Char.isDigit = [] := by
    rw [left] at point
    cases after with
    | nil => rfl
    | cons c after =>
      exact List.takeWhile_cons_of_neg (Bool.not_eq_true _ ▸ behind.fraction c after point)
  have range : n.toNatClampNeg < 0x8000_0000_0000_0000 := by
    have high := n.toInt_lt
    change n.toInt.toNat < _
    omega
  have read : number (Nat.toDigits 10 n.toNatClampNeg ++ rest) = .ok (.int n, rest) := by
    rw [number_integer (taken.trans shape) fraction, left, ← shape, Json.natOfDigits_toDigits,
      if_pos range, Int64.ofNat_toNatClampNeg n natural]
  refine reads_second (fun _ => ?_) (reads_first (reads_ok read))
  rw [shape]
  exact words_mismatch ⟨ne_of_isDigit first rfl, ne_of_isDigit first rfl, ne_of_isDigit first rfl,
    ne_of_isDigit first rfl⟩

theorem quotedString_quotedText (s : String) (rest : List Char) :
    quotedString (quotedText s ++ rest) = .ok (s, rest) := by
  have loop (cs taken : List Char) : stringRest '"' taken (cs.flatMap escaped ++ '"' :: rest) =
      .ok (String.ofList (taken.reverse ++ cs), rest) := by
    induction cs generalizing taken with
    | nil => rw [List.flatMap_nil, List.nil_append, stringRest_quote, List.append_nil]
    | cons c cs ih =>
      have next := ih (c :: taken)
      rw [List.reverse_cons, List.append_assoc, List.singleton_append] at next
      rw [List.flatMap_cons, List.append_assoc, escaped]
      split
      · rename_i special
        rw [List.cons_append, List.singleton_append, stringRest_escape taken (by decide)]
        rcases special with rfl | rfl <;> exact next
      · rename_i plain
        rw [List.singleton_append, stringRest_plain taken (fun same => plain (.inr same))
          (fun same => plain (.inl same))]
        exact next
  have shape : quotedText s ++ rest = '"' :: (s.toList.flatMap escaped ++ '"' :: rest) := by
    rw [quotedText, List.append_assoc, List.singleton_append, List.cons_append]
  have opened : char '"' (quotedText s ++ rest) =
      .ok ((), s.toList.flatMap escaped ++ '"' :: rest) := by
    rw [shape, char_self]
  have read := loop s.toList []
  rw [List.reverse_nil, List.nil_append, String.ofList_toList] at read
  exact orElse_ok ((bind_ok opened).trans read)

theorem readsOperand_string (s : String) : ReadsOperand need 0 (quotedText s) (.string s) := by
  refine readsOperand_of_reads ⟨'"', _, rfl, by decide⟩ fun rest _ => ?_
  refine reads_second (fun _ => words_mismatch (by decide)) ?_
  refine reads_second (fun _ => number_mismatch (by decide)) ?_
  exact reads_first ((reads_ok (quotedString_quotedText s rest)).map Expr.string)

/-! ### Lists, maps and parentheses -/

section Enclosed

variable {layout : Layout}

private theorem leaves_expression (n : Nat) : (ofLevels n).expression.Leaves :=
  (cutOff_ofLevels .nothing (Nat.le_refl n)).expression.leaves

/-- Expressions with commas between them, up to what closes the list. -/
theorem settles_items (layout : Layout) (items : List (List Char × Expr))
    (each : ∀ item ∈ items, ReadsWhole (need + 1) item.1 item.2) {c : Char}
    {rest more : List Char} (ahead : Text.skipSpace rest = c :: more) (closes : c = ')' ∨ c = ']') :
    Settles (need + 1) (fun n => commaList (ofLevels n).expression)
      (layout.commas (items.map Prod.fst) ++ rest) (items.map Prod.snd) rest :=
  settles_commaList layout leaves_expression items each (misses_expression ahead closes) ahead
    (closes.imp_right .inl)

/-- Operands that start with an opening bracket or brace, or a parenthesis, are none of the
alternatives that come before. -/
private theorem reads_bracket {c : Char} {s rest : List Char} {e : Expr}
    (bracket : c = '[' ∨ c = '\x7b' ∨ c = '(')
    (reads : Reads need (fun n => listLiteral (ofLevels n).expression <|>
      mapLiteral (ofLevels n).expression <|> parenthesized (ofLevels n).expression <|>
      callOrName (ofLevels n).expression) (c :: s) e rest) :
    Reads need (fun n => operandAlternatives (ofLevels n).expression) (c :: s) e rest := by
  have apart : (c ≠ 'n' ∧ c ≠ 'u' ∧ c ≠ 't' ∧ c ≠ 'f') ∧ c.isDigit = false ∧
      (c ≠ '"' ∧ c ≠ '\'') ∧ c ≠ '\x60' := by
    rcases bracket with rfl | rfl | rfl <;> decide
  obtain ⟨words, digit, quotes, backquote⟩ := apart
  refine reads_second (fun _ => words_mismatch words) ?_
  refine reads_second (fun _ => number_mismatch digit) ?_
  refine reads_second (fun _ => bind_mismatch (string_mismatch quotes)) ?_
  exact reads_second (fun _ => bind_mismatch (char_mismatch backquote s)) reads

theorem readsOperand_list (layout : Layout) (items : List (List Char × Expr))
    (each : ∀ item ∈ items, ReadsWhole (need + 1) item.1 item.2) :
    ReadsOperand (need + 1) 0 ('[' :: layout.commas (items.map Prod.fst) ++ [']'])
      (.list (items.map Prod.snd)) := by
  refine readsOperand_of_reads ⟨'[', _, rfl, by decide⟩ fun rest _ => ?_
  have closed : Text.skipSpace (']' :: rest) = ']' :: rest := rfl
  have inside := settles_items layout items each closed (.inr rfl)
  rw [List.append_assoc, List.singleton_append, List.cons_append]
  exact reads_bracket (.inl rfl) (reads_first (reads_enclosed '[' Expr.list inside closed))

/-- The key, a colon and the value. -/
theorem settles_mapEntry {key : String} {text : List Char} {e : Expr}
    (value : ReadsWhole need text e) {rest : List Char} (final : Final rest) :
    Settles need (fun n => mapEntry (ofLevels n).expression)
      (quotedText key ++ layout.mark .entry ++ text ++ rest) (key, e) rest := by
  have shown : Text.skipSpace (quotedText key ++ layout.mark .entry ++ text ++ rest) =
      quotedText key ++ (layout.mark .entry ++ (text ++ rest)) := by
    rw [List.append_assoc, List.append_assoc]
    rfl
  have values := (value rest final).map (fun e => (key, e))
  have colon : Settles need (fun n => spaced (char ':') >>= fun _ =>
      (fun e => (key, e)) <$> (ofLevels n).expression) (layout.mark .entry ++ (text ++ rest))
      (key, e) rest :=
    settles_spacedChar (layout.skipSpace_mark .entry _)
      (values.visible (layout.skipSpace_after .entry _))
  have found : Reads need (fun _ => quotedString <|> anyName)
      (quotedText key ++ (layout.mark .entry ++ (text ++ rest))) key
      (layout.mark .entry ++ (text ++ rest)) :=
    reads_first (reads_ok (quotedString_quotedText key _))
  refine settles_spaces ?_
  rw [shown]
  exact found.bind (f := fun n key => do
    spaced (char ':')
    (fun e => (key, e)) <$> (ofLevels n).expression) colon

theorem readsOperand_map (layout : Layout) (items : List (List Char × String × Expr))
    (each : ∀ item ∈ items, ∃ text, item.1 = quotedText item.2.1 ++ layout.mark .entry ++ text ∧
      ReadsWhole (need + 1) text item.2.2) :
    ReadsOperand (need + 1) 0 ('\x7b' :: layout.commas (items.map Prod.fst) ++ ['\x7d'])
      (.map (items.map Prod.snd)) := by
  refine readsOperand_of_reads ⟨'\x7b', _, rfl, by decide⟩ fun rest _ => ?_
  have closed : Text.skipSpace ('\x7d' :: rest) = '\x7d' :: rest := rfl
  have leaves (n : Nat) : (mapEntry (ofLevels n).expression).Leaves :=
    (cutOff_mapEntry .nothing (cutOff_ofLevels .nothing (Nat.le_refl n)).expression).leaves
  have entries (item : List Char × String × Expr) (member : item ∈ items) (rest : List Char)
      (final : Final rest) :
      Settles (need + 1) (fun n => mapEntry (ofLevels n).expression) (item.1 ++ rest) item.2
        rest := by
    obtain ⟨text, shape, value⟩ := each item member
    rw [shape]
    exact settles_mapEntry value final
  have none : Misses (need + 1) (fun n => mapEntry (ofLevels n).expression) ('\x7d' :: rest) := by
    intro levels _ t same
    have skipped : spaces t = .ok ((), '\x7d' :: rest) := by rw [spaces, same, closed]
    exact (bind_ok skipped).trans (bind_mismatch rfl)
  have inside := settles_commaList layout leaves items entries none closed
    (.inr (.inr rfl))
  rw [List.append_assoc, List.singleton_append, List.cons_append]
  refine reads_bracket (.inr (.inl rfl)) ?_
  refine reads_second (fun _ => bind_mismatch (char_mismatch (by decide) _)) ?_
  exact reads_first (reads_enclosed '\x7b' Expr.map inside closed)

theorem readsOperand_parenthesized {text : List Char} {e : Expr}
    (inside : ReadsWhole need text e) : ReadsOperand need 0 ('(' :: text ++ [')']) e := by
  refine readsOperand_of_reads ⟨'(', _, rfl, by decide⟩ fun rest _ => ?_
  have closed : Text.skipSpace (')' :: rest) = ')' :: rest := rfl
  have whole := inside (')' :: rest) (final_of_closes closed (.inl rfl))
  have bracketed := settles_spaced_char (f := fun _ e => pure e) whole closed (settles_pure e).reads
  rw [List.append_assoc, List.singleton_append, List.cons_append]
  refine reads_bracket (.inr (.inr rfl)) ?_
  refine reads_second (fun _ => bind_mismatch (char_mismatch (by decide) _)) ?_
  refine reads_second (fun _ => bind_mismatch (char_mismatch (by decide) _)) ?_
  exact reads_first (bracketed.reads.char '(')

/-! ### Names and calls -/

private theorem name_identifier {found : String} (identifier : IsIdentifier found)
    {rest : List Char} (apart : Apart rest) :
    name (found.toList ++ rest) = .ok (found, rest) := by
  obtain ⟨c, cs, letters, start, shape⟩ := identifier.shape
  have read : anyName (found.toList ++ rest) = .ok (found, rest) := by
    rw [letters, anyName_name start shape apart, ← letters, String.ofList_toList]
  rw [name, bind_ok read, if_neg identifier.free, pure_run]

/-- A name is none of the alternatives that come before. -/
private theorem reads_identifier {found : String} (identifier : IsIdentifier found)
    {rest after : List Char} {e : Expr} (apart : Apart rest)
    (reads : Reads need (fun n => callOrName (ofLevels n).expression) (found.toList ++ rest) e
      after) :
    Reads need (fun n => operandAlternatives (ofLevels n).expression) (found.toList ++ rest) e
      after := by
  obtain ⟨c, cs, letters, start, shape⟩ := identifier.shape
  have all : ∀ d ∈ found.toList, isNameChar d = true := by
    rw [letters, List.forall_mem_cons]
    exact ⟨isNameChar_of_isNameStart start, shape⟩
  have missed {word : String} {e : Expr} (plain : word.toList.all isNameChar = true)
      (other : found ≠ word) :
      (keyword word >>= fun _ => pure e : Parser Expr) (found.toList ++ rest) =
        .error .mismatch :=
    bind_mismatch (keyword_name (List.all_eq_true.1 plain) all apart fun same =>
      other (String.toList_inj.1 same))
  have other := identifier.word
  simp only [List.mem_cons, List.not_mem_nil, or_false, not_or] at other
  have words : wordLiteral (found.toList ++ rest) = .error .mismatch := by
    change oneOf _ _ = _
    simp only [oneOf, List.foldr_cons, List.foldr_nil]
    rw [orElse_mismatch (missed (by decide) other.1),
      orElse_mismatch (missed (by decide) other.2.1),
      orElse_mismatch (missed (by decide) other.2.2.1),
      orElse_mismatch (missed (by decide) other.2.2.2)]
    rfl
  have first : c.isDigit = false ∧ (c ≠ '"' ∧ c ≠ '\'') ∧ c ≠ '\x60' ∧ c ≠ '[' ∧ c ≠ '\x7b' ∧
      c ≠ '(' := by
    refine ⟨not_isDigit_of_isNameStart start, ⟨?_, ?_⟩, ?_, ?_, ?_, ?_⟩ <;>
      (rintro rfl; cases start)
  obtain ⟨digit, quotes, backquote, bracket, brace, parenthesis⟩ := first
  refine reads_second (fun _ => words) ?_
  rw [letters] at reads ⊢
  refine reads_second (fun _ => number_mismatch digit) ?_
  refine reads_second (fun _ => bind_mismatch (string_mismatch quotes)) ?_
  refine reads_second (fun _ => bind_mismatch (char_mismatch backquote _)) ?_
  refine reads_second (fun _ => bind_mismatch (char_mismatch bracket _)) ?_
  refine reads_second (fun _ => bind_mismatch (char_mismatch brace _)) ?_
  exact reads_second (fun _ => bind_mismatch (char_mismatch parenthesis _)) reads

private theorem identifier_head {found : String} (identifier : IsIdentifier found)
    (more : List Char) :
    ∃ c cs, found.toList ++ more = c :: cs ∧ Text.isSpace c = false ∧
      c ≠ '!' ∧ c ≠ '-' ∧ c ≠ '=' := by
  obtain ⟨c, cs, letters, start, -⟩ := identifier.shape
  have letter := isNameChar_of_isNameStart start
  refine ⟨c, cs ++ more, by rw [letters, List.cons_append], isSpace_of_isNameChar letter,
    ?_, ?_, ?_⟩ <;> (rintro rfl; cases start)

theorem readsOperand_ident {found : String} (identifier : IsIdentifier found) :
    ReadsOperand need 0 found.toList (.ident found) := by
  have head := identifier_head identifier []
  rw [List.append_nil] at head
  refine readsOperand_of_reads head fun rest behind => ?_
  refine reads_identifier identifier behind.apart fun _ _ => ⟨rest, ?_, rfl⟩
  exact callOrName_name (name_identifier identifier behind.apart) behind.call

theorem readsOperand_call (layout : Layout) {found : String} (identifier : IsIdentifier found)
    (items : List (List Char × Expr)) (each : ∀ item ∈ items, ReadsWhole (need + 1) item.1 item.2) :
    ReadsOperand (need + 1) 0 (found.toList ++ '(' :: layout.commas (items.map Prod.fst) ++ [')'])
      (.call found (items.map Prod.snd)) := by
  have head := identifier_head identifier ('(' :: layout.commas (items.map Prod.fst) ++ [')'])
  rw [← List.append_assoc] at head
  refine readsOperand_of_reads head fun rest _ => ?_
  have closed : Text.skipSpace (')' :: rest) = ')' :: rest := rfl
  have inside := settles_items layout items each closed (.inl rfl)
  have shape : found.toList ++ '(' :: layout.commas (items.map Prod.fst) ++ [')'] ++ rest =
      found.toList ++ '(' :: (layout.commas (items.map Prod.fst) ++ ')' :: rest) := by
    simp only [List.append_assoc, List.cons_append, List.nil_append]
  have apart : Apart ('(' :: (layout.commas (items.map Prod.fst) ++ ')' :: rest)) := by
    intro c cs same
    cases same
    decide
  rw [shape]
  refine reads_identifier identifier apart ?_
  have called := (reads_enclosed '(' id inside closed).map (Expr.call found)
  intro levels above
  obtain ⟨left, answer, shown⟩ := called levels above
  refine ⟨left, ?_, shown⟩
  exact (callOrName_call (name_identifier identifier apart) rfl).trans answer

end Enclosed

/-! ### Steps and operators -/

section Steps

variable {text : List Char} {base : Expr}

theorem ReadsOperand.field (operand : ReadsOperand need held text base) {name : String}
    (shape : IsName name) :
    ReadsOperand (max need (held + 1)) (held + 1) (text ++ '.' :: name.toList)
      (.field base name) where
  head := by
    obtain ⟨c, cs, rfl, rest⟩ := operand.head
    exact ⟨c, _, rfl, rest⟩
  read rest a after k l behind more enough within := by
    obtain ⟨c, cs, letters, start, shape⟩ := shape
    rw [List.append_assoc, List.cons_append]
    have ahead : Text.skipSpace ('.' :: (name.toList ++ rest)) = '.' :: (name.toList ++ rest) := rfl
    have step := settles_postfixRest_field ahead letters start shape behind.apart behind.call more
    refine operand.read _ a after (k + 1) l ?_ step (by omega) (by omega)
    refine ⟨apart_of_visible ahead (by decide), nofun, fun d ds same => ?_⟩
    rw [letters, List.cons_append] at same
    cases same
    exact not_isDigit_of_isNameStart start

theorem ReadsOperand.index {inner : Nat} (operand : ReadsOperand need held text base)
    {inside : List Char} {key : Expr} (whole : ReadsWhole inner inside key) :
    ReadsOperand (max need (held + 1 + inner)) (held + 1) (text ++ '[' :: inside ++ [']'])
      (.index base key) where
  head := by
    obtain ⟨c, cs, rfl, rest⟩ := operand.head
    exact ⟨c, _, rfl, rest⟩
  read rest a after k l behind more enough within := by
    have shape : text ++ '[' :: inside ++ [']'] ++ rest =
        text ++ '[' :: (inside ++ ']' :: rest) := by
      simp only [List.append_assoc, List.cons_append, List.nil_append]
    have ahead : Text.skipSpace ('[' :: (inside ++ ']' :: rest)) =
        '[' :: (inside ++ ']' :: rest) := rfl
    have closed : Text.skipSpace (']' :: rest) = ']' :: rest := rfl
    have read := whole _ (final_of_closes closed (.inr (.inl rfl)))
    have step := settles_postfixRest_index ahead (read.more (Nat.le_max_left inner k))
      (more.more (Nat.le_max_right inner k))
    rw [shape]
    refine operand.read _ a after (max inner k + 1) l ?_ step (by omega) (by omega)
    exact ⟨apart_of_visible ahead (by decide), nofun, nofun⟩

theorem readsTier_unary {op : UnaryOp} {c : Char} {cs : List Char}
    (operand : ReadsTier need 0 (c :: cs) base)
    (single : c ≠ '=') (simple : op = .neg → c ≠ '-') :
    ReadsTier (need + 1) 0 (sign op :: c :: cs) (.unary op base) := by
  intro rest stops
  have signed : Signed op (Text.skipSpace (sign op :: c :: cs ++ rest)) (c :: cs ++ rest) := by
    refine ⟨?_, fun more same => ?_, fun neg more same => ?_⟩
    · cases op <;> rfl
    · cases same
      exact single rfl
    · cases same
      exact simple neg rfl
  have inner := (operand rest stops).congr (p := fun n => (ofLevels n).unary) fun levels => by
    rw [ofLevels_eq_step]
    rfl
  refine (settles_unary signed inner).congr fun levels => ?_
  rw [ofLevels_eq_step]
  rfl

/-- The token of an operator is no operator of a stronger tier, and is read as the operator. -/
theorem operator?_token (op : BinaryOp) (rest : List Char) :
    Stops op.tier (' ' :: op.token.toList ++ ' ' :: rest) ∧
      operator? op.tier (Text.skipSpace (' ' :: op.token.toList ++ ' ' :: rest)) =
        some (op, ' ' :: rest) := by
  cases op <;> exact ⟨stops_of_visible rfl (by decide) (by decide), rfl⟩

theorem readsChain_binary {inner : Nat} {op : BinaryOp} {left right : Expr}
    {first second : List Char} (operand : ReadsChain need held op.tier first left)
    (other : ReadsTier inner op.tier second right) :
    ReadsChain (max need (held + 1 + inner)) (held + 1) op.tier
      (first ++ ' ' :: op.token.toList ++ ' ' :: second) (.binary op left right) := by
  intro rest a after k l stops more enough within
  obtain ⟨ends, read⟩ := operator?_token op (second ++ rest)
  have shape : first ++ ' ' :: op.token.toList ++ ' ' :: second ++ rest =
      first ++ (' ' :: op.token.toList ++ ' ' :: (second ++ rest)) := by
    simp only [List.append_assoc, List.cons_append]
  have right := (other rest stops).visible (t := ' ' :: (second ++ rest)) rfl
  have step := settles_tierRest_operator read (right.more (Nat.le_max_left inner k))
    (more.more (Nat.le_max_right inner k))
  rw [shape]
  exact operand _ a after (max inner k + 1) l ends step (by omega) (by omega)

theorem readsWhole_conditional {inner : Nat} {layout : Layout} {condition yes no : Expr}
    {first second third : List Char} (test : ReadsTier need tierCount first condition)
    (whole : ReadsWhole inner second yes) (other : ReadsWhole inner third no) :
    ReadsWhole (max need inner + 1)
      (first ++ layout.mark .question ++ second ++ layout.mark .alternative ++ third)
      (.conditional condition yes no) := by
  intro rest final
  have colon := layout.skipSpace_mark .alternative (third ++ rest)
  have question := layout.skipSpace_mark .question
    (second ++ (layout.mark .alternative ++ (third ++ rest)))
  have shape :
      first ++ layout.mark .question ++ second ++ layout.mark .alternative ++ third ++ rest =
        first ++ (layout.mark .question ++
          (second ++ (layout.mark .alternative ++ (third ++ rest)))) := by
    simp only [List.append_assoc]
  have yes := (whole _ (final_of_visible colon (by decide))).visible
    (layout.skipSpace_after .question _)
  have no := (other rest final).visible (layout.skipSpace_after .alternative _)
  have both := (settles_conditional (e := condition) question yes colon no).more
    (Nat.le_max_right need inner)
  rw [shape]
  refine settles_expression (Settles.more ?_ (Nat.le_max_left need inner)) both
  exact test _ (stops_of_visible question (by decide) (by decide))

end Steps

/-! ### Expressions -/

section Printed

variable (layout : Layout)

private theorem tier_lt (op : BinaryOp) : op.tier < tierCount := by
  cases op <;> decide

theorem rank_le (e : Expr) : e.rank ≤ 8 := by
  cases e with
  | unary => exact (by decide : 1 ≤ 8)
  | binary op => exact Nat.add_le_add_right (Nat.le_of_lt (tier_lt op)) 2
  | conditional => exact Nat.le_refl 8
  | _ => exact Nat.zero_le 8

/-- In parentheses an expression is an operand, which takes one more level and holds none. -/
theorem readsAs_guarded (bare : Prop) [Decidable bare] {text : List Char} {e : Expr}
    (reads : ReadsAs need held e.rank text e) (within : held ≤ need) :
    ReadsAs (need + parenLevels bare) (if bare then held else 0) (if bare then e.rank else 0)
      (guarded bare text) e := by
  rw [guarded, parenLevels]
  by_cases stands : bare
  · simp only [if_pos stands]
    exact reads
  · simp only [if_neg stands]
    exact readsOperand_parenthesized (reads.whole within (rank_le e))

private theorem guarded_within {bare : Prop} [Decidable bare] (within : held ≤ need) :
    (if bare then held else 0) ≤ need + parenLevels bare := by
  split
  · exact Nat.le_add_right_of_le within
  · exact Nat.zero_le _

/-- In front of steps an expression that is no operand stands in parentheses. -/
theorem readsOperand_guarded {text : List Char} {e : Expr}
    (reads : ReadsAs need held e.rank text e) (within : held ≤ need) :
    ReadsOperand (need + parenLevels (e.rank = 0)) (if e.rank = 0 then held else 0)
      (guarded (e.rank = 0) text) e := by
  have operand := readsAs_guarded (e.rank = 0) reads within
  have zero : (if e.rank = 0 then e.rank else 0) = 0 := by split <;> trivial
  rw [zero] at operand
  exact operand

/-- An expression of a weaker tier stands in parentheses. -/
theorem readsTier_guarded (bare : Prop) [Decidable bare] (tier : Nat) {text : List Char} {e : Expr}
    (reads : ReadsAs need held e.rank text e) (within : held ≤ need)
    (enough : bare → e.rank ≤ tier + 1) (count : tier ≤ tierCount) :
    ReadsTier (need + parenLevels bare) tier (guarded bare text) e := by
  refine (readsAs_guarded bare reads within).tier (guarded_within within) ?_ count
  split
  · exact enough ‹_›
  · exact Nat.zero_le _

/-- A left operand is in the chain of its operator, or it holds nothing behind its end. -/
theorem readsChain_guarded {tier : Nat} {text : List Char} {e : Expr}
    (reads : ReadsAs need held e.rank text e) (within : held ≤ need) (count : tier < tierCount) :
    ReadsChain (need + parenLevels (e.rank ≤ tier + 2)) (if e.rank = tier + 2 then held else 0) tier
      (guarded (e.rank ≤ tier + 2) text) e := by
  have bound : (if e.rank ≤ tier + 2 then e.rank else 0) ≤ tier + 2 := by split <;> omega
  have chain := (readsAs_guarded (e.rank ≤ tier + 2) reads within).chain (guarded_within within)
    bound count
  have same : (if (if e.rank ≤ tier + 2 then e.rank else 0) = tier + 2 then
      if e.rank ≤ tier + 2 then held else 0 else 0) =
        if e.rank = tier + 2 then held else 0 := by
    by_cases own : e.rank = tier + 2
    · simp only [own, Nat.le_refl, if_true]
    · by_cases bare : e.rank ≤ tier + 2
      · simp only [if_pos bare, if_neg own]
      · simp only [if_neg bare, if_neg own, ite_self]
  rw [same] at chain
  exact chain

private theorem unary_of_rank {e : Expr} (rank : e.rank = 1) :
    ∃ op operand, e = .unary op operand := by
  cases e with
  | unary op operand => exact ⟨op, operand, rfl⟩
  | binary op => cases op <;> cases rank
  | _ => cases rank

/-- What stands behind an operator is not taken for a part of it. -/
private theorem head_guarded {op : UnaryOp} {e : Expr}
    (reads : ReadsAs need held e.rank (e.printed layout) e) :
    ∃ c cs, guarded (e.rank ≤ 1 ∧ ¬ (op = .neg ∧ e.isNegation)) (e.printed layout) = c :: cs ∧
      c ≠ '=' ∧ (op = .neg → c ≠ '-') := by
  rw [guarded]
  split
  · rename_i bare
    by_cases zero : e.rank = 0
    · rw [zero] at reads
      obtain ⟨c, cs, shape, -, -, neg, eq⟩ := ReadsOperand.head reads
      exact ⟨c, cs, shape, eq, fun _ => neg⟩
    · have one : e.rank = 1 := by omega
      obtain ⟨sign', operand, rfl⟩ := unary_of_rank one
      refine ⟨sign sign', _, rfl, by cases sign' <;> decide, fun neg same => bare.2 ⟨neg, ?_⟩⟩
      cases sign' with
      | not => cases same
      | neg => rfl
  · exact ⟨'(', _, rfl, by decide, fun _ => by decide⟩

private theorem printedItems_eq_map (items : List Expr) :
    Expr.printedItems layout items = items.map (·.printed layout) := by
  induction items with
  | nil => rfl
  | cons e rest ih => rw [Expr.printedItems, ih, List.map_cons]

private theorem printedEntries_eq_map (entries : List (String × Expr)) :
    Expr.printedEntries layout entries = entries.map fun entry =>
      quotedText entry.1 ++ layout.mark .entry ++ entry.2.printed layout := by
  induction entries with
  | nil => rfl
  | cons entry rest ih => rw [Expr.printedEntries, ih, List.map_cons]

private theorem map_pairs {α : Type} (f : α → List Char) (items : List α) :
    (items.map fun a => (f a, a)).map Prod.fst = items.map f ∧
      (items.map fun a => (f a, a)).map Prod.snd = items := by
  rw [List.map_map, List.map_map]
  exact ⟨rfl, List.map_id' items⟩

private theorem readsWhole_pairs {items : List Expr}
    (each : ∀ e ∈ items, ReadsWhole need (e.printed layout) e) :
    ∀ item ∈ items.map fun e => (e.printed layout, e), ReadsWhole need item.1 item.2 := by
  intro item member
  obtain ⟨e, inside, rfl⟩ := List.mem_map.1 member
  exact each e inside

mutual

/-- The text of a plain expression is read as its rank says. -/
theorem readsAs_printed : (e : Expr) → e.Plain →
    ReadsAs e.nesting e.held e.rank (e.printed layout) e
  | .null, _ => readsOperand_null
  | .bool b, _ => readsOperand_bool b
  | .int _, natural => readsOperand_int natural
  | .string s, _ => readsOperand_string s
  | .ident _, identifier => readsOperand_ident identifier
  | .list items, plain => by
    have each := readsWhole_pairs layout (readsWhole_items items plain)
    obtain ⟨texts, values⟩ := map_pairs (·.printed layout) items
    have reads := readsOperand_list layout _ each
    rw [texts, values, ← printedItems_eq_map] at reads
    exact reads
  | .map entries, plain => by
    have each := readsWhole_entries entries plain
    let text (entry : String × Expr) : List Char :=
      quotedText entry.1 ++ layout.mark .entry ++ entry.2.printed layout
    obtain ⟨texts, values⟩ := map_pairs text entries
    have reads := readsOperand_map layout (entries.map fun entry => (text entry, entry))
      fun item member => by
        obtain ⟨entry, inside, rfl⟩ := List.mem_map.1 member
        exact ⟨_, rfl, each entry inside⟩
    rw [texts, values, ← printedEntries_eq_map] at reads
    exact reads
  | .call name args, ⟨identifier, plain⟩ => by
    have each := readsWhole_pairs layout (readsWhole_items args plain)
    obtain ⟨texts, values⟩ := map_pairs (·.printed layout) args
    have reads := readsOperand_call layout identifier _ each
    rw [texts, values, ← printedItems_eq_map] at reads
    exact reads
  | .field base name, ⟨plain, shape⟩ => by
    have inner := readsOperand_guarded (readsAs_printed base plain) base.held_le_nesting
    exact ReadsOperand.field inner shape
  | .index base key, ⟨plain, inside⟩ => by
    have inner := readsOperand_guarded (readsAs_printed base plain) base.held_le_nesting
    have whole := (readsAs_printed key inside).whole key.held_le_nesting (rank_le key)
    exact ReadsOperand.index inner whole
  | .unary op operand, plain => by
    have inner := readsAs_printed operand plain
    have tier := readsTier_guarded (operand.rank ≤ 1 ∧ ¬ (op = .neg ∧ operand.isNegation)) 0 inner
      operand.held_le_nesting And.left (Nat.zero_le _)
    obtain ⟨c, cs, shape, single, simple⟩ := head_guarded layout inner
    rw [shape] at tier
    rw [Expr.printed, shape]
    exact readsTier_unary tier single simple
  | .binary op left right, ⟨first, second⟩ => by
    have chain := readsChain_guarded (readsAs_printed left first) left.held_le_nesting (tier_lt op)
    have other := readsTier_guarded (right.rank ≤ op.tier + 1) op.tier
      (readsAs_printed right second) right.held_le_nesting id (Nat.le_of_lt (tier_lt op))
    rw [Expr.rank, ReadsAs, if_pos (tier_lt op)]
    exact readsChain_binary chain other
  | .conditional condition yes no, ⟨test, first, second⟩ => by
    have inner := readsTier_guarded (condition.rank < 8) tierCount
      (readsAs_printed condition test) condition.held_le_nesting Nat.le_of_lt_succ (Nat.le_refl _)
    have whole := (readsAs_printed yes first).whole yes.held_le_nesting (rank_le yes)
    have other := (readsAs_printed no second).whole no.held_le_nesting (rank_le no)
    have both : yes.nesting ≤ max yes.nesting no.nesting := Nat.le_max_left _ _
    have both' : no.nesting ≤ max yes.nesting no.nesting := Nat.le_max_right _ _
    exact readsWhole_conditional inner (whole.more (Nat.succ_le_succ both))
      (other.more (Nat.succ_le_succ both'))

theorem readsWhole_items : (items : List Expr) → Expr.PlainItems items →
    ∀ e ∈ items, ReadsWhole (Expr.nestingItems items + 1) (e.printed layout) e
  | [], _ => List.forall_mem_nil _
  | e :: rest, ⟨plain, more⟩ => by
    have first := (readsAs_printed e plain).whole e.held_le_nesting (rank_le e)
    refine List.forall_mem_cons.2 ⟨first.more ?_, fun other member => ?_⟩
    · exact Nat.succ_le_succ (Nat.le_max_left _ _)
    · exact (readsWhole_items rest more other member).more (Nat.succ_le_succ (Nat.le_max_right _ _))

theorem readsWhole_entries : (entries : List (String × Expr)) → Expr.PlainEntries entries →
    ∀ entry ∈ entries,
      ReadsWhole (Expr.nestingEntries entries + 1) (entry.2.printed layout) entry.2
  | [], _ => List.forall_mem_nil _
  | (_, e) :: rest, ⟨plain, more⟩ => by
    have first := (readsAs_printed e plain).whole e.held_le_nesting (rank_le e)
    refine List.forall_mem_cons.2 ⟨first.more ?_, fun other member => ?_⟩
    · exact Nat.succ_le_succ (Nat.le_max_left _ _)
    · exact (readsWhole_entries rest more other member).more
        (Nat.succ_le_succ (Nat.le_max_right _ _))

end

end Printed

end Relay.Script
