import Relay.Proofs.Script.Comments
import Relay.Proofs.Script.Taking

/-! # What comment removal meets in an expression

The slashes of an expression are those of its literals and its divisions. The removal of comments
gets out of step with the parser only in the holes of templates, since there it takes every
backquote for the end of the template: a hole is quiet if there is no backquote in it. Texts with
given marks can be put one behind the other, and strings and lists have the marks of what is in
them.
-/

namespace Relay.Script

open Relay.Script.Parser

/-- What the removal of comments may come across in the text of an expression. -/
structure Marks where
  /-- The number of slashes in strings, keys, templates and divisions. -/
  slashes : Nat
  /-- There is no template, and no string or key with a backquote. -/
  quiet : Bool
  /-- All that stands in the holes of templates is quiet. -/
  clear : Bool

namespace Marks

instance : Zero Marks := ⟨⟨0, true, true⟩⟩

instance : Add Marks :=
  ⟨fun a b => ⟨a.slashes + b.slashes, a.quiet && b.quiet, a.clear && b.clear⟩⟩

protected theorem zero_add (a : Marks) : 0 + a = a := by
  change Marks.mk (0 + a.slashes) (true && a.quiet) (true && a.clear) = a
  rw [Nat.zero_add, Bool.true_and, Bool.true_and]

protected theorem add_zero (a : Marks) : a + 0 = a := by
  change Marks.mk (a.slashes + 0) (a.quiet && true) (a.clear && true) = a
  rw [Nat.add_zero, Bool.and_true, Bool.and_true]

protected theorem add_assoc (a b c : Marks) : a + b + c = a + (b + c) := by
  change Marks.mk (_ + _ + _) ((_ && _) && _) ((_ && _) && _) = Marks.mk _ _ _
  rw [Nat.add_assoc, Bool.and_assoc, Bool.and_assoc]
  rfl

/-- The marks of a text in quotes. -/
def ofText (s : String) : Marks :=
  ⟨Relay.Script.slashes s.toList, !s.toList.contains '\x60', true⟩

/-- The marks of a piece of a template. -/
def ofPiece (text : List Char) : Marks :=
  ⟨Relay.Script.slashes text, true, true⟩

/-- A division is written with a slash. -/
def ofOperator (op : BinaryOp) : Marks :=
  ⟨if op = .div then 1 else 0, true, true⟩

/-- The marks of a template with what is inside it. -/
def template (inside : Marks) : Marks :=
  ⟨inside.slashes, false, inside.quiet⟩

variable {α : Type} {marks : α → Marks}

/-- The marks of some things one after another. -/
def all (marks : α → Marks) : List α → Marks
  | [] => 0
  | a :: rest => marks a + all marks rest

theorem all_append (items more : List α) :
    all marks (items ++ more) = all marks items + all marks more := by
  induction items with
  | nil => exact (Marks.zero_add _).symm
  | cons a items ih => rw [List.cons_append, all, all, ih, Marks.add_assoc]

theorem all_reverse_cons (a : α) (taken : List α) :
    all marks (a :: taken).reverse = all marks taken.reverse + marks a := by
  rw [List.reverse_cons, all_append, all, all, Marks.add_zero]

end Marks

mutual

/-- The marks of an expression. -/
def Expr.marks : Expr → Marks
  | string s => .ofText s
  | template holes tail => (marksHoles holes + .ofPiece tail.toList).template
  | list items => marksItems items
  | map entries => marksEntries entries
  | field base _ => base.marks
  | index base key => base.marks + key.marks
  | unary _ operand => operand.marks
  | binary op left right => left.marks + (.ofOperator op + right.marks)
  | conditional condition yes no => condition.marks + (yes.marks + no.marks)
  | call _ args => marksItems args
  | invoke _ _ args => marksItems args
  | null => 0
  | bool _ => 0
  | int _ => 0
  | float _ => 0
  | ident _ => 0

/-- The marks of items. -/
def Expr.marksItems : List Expr → Marks
  | [] => 0
  | e :: rest => e.marks + marksItems rest

/-- The marks of entries. -/
def Expr.marksEntries : List (String × Expr) → Marks
  | [] => 0
  | (key, e) :: rest => (Marks.ofText key + e.marks) + marksEntries rest

/-- The marks of the holes of a template and the pieces before them. -/
def Expr.marksHoles : List (String × Expr) → Marks
  | [] => 0
  | (piece, e) :: rest => (Marks.ofPiece piece.toList + e.marks) + marksHoles rest

end

theorem Expr.marksItems_eq_all (items : List Expr) : marksItems items = Marks.all marks items := by
  induction items with
  | nil => rfl
  | cons e rest ih => rw [marksItems, Marks.all, ih]

/-- The marks of an entry. -/
def entryMarks (entry : String × Expr) : Marks :=
  .ofText entry.1 + entry.2.marks

theorem Expr.marksEntries_eq_all (entries : List (String × Expr)) :
    marksEntries entries = Marks.all entryMarks entries := by
  induction entries with
  | nil => rfl
  | cons entry rest ih => rw [marksEntries, Marks.all, ih, entryMarks]

/-- The marks of a hole and the piece before it. -/
def holeMarks (hole : String × Expr) : Marks :=
  .ofPiece hole.1.toList + hole.2.marks

theorem Expr.marksHoles_eq_all (holes : List (String × Expr)) :
    marksHoles holes = Marks.all holeMarks holes := by
  induction holes with
  | nil => rfl
  | cons hole rest ih => rw [marksHoles, Marks.all, ih, holeMarks]

/-! ### Texts with given marks -/

/-- The text has the slashes of the marks, and the removal of comments keeps it: in code if the
marks are clear, in the hole of a template if they are quiet. -/
structure Spells (marks : Marks) (text : List Char) : Prop where
  slashes : slashes text = marks.slashes
  code : marks.clear = true → Passes .code .code text
  hole : marks.quiet = true → Passes (.quoted '\x60') (.quoted '\x60') text

/-- A text without quotes, escapes and slashes. -/
def Bare (text : List Char) : Prop :=
  ∀ c ∈ text, isPlain c = true

section Spells

variable {a b : Marks} {text more : List Char} {c : Char}

theorem Spells.append (first : Spells a text) (second : Spells b more) :
    Spells (a + b) (text ++ more) where
  slashes := by
    rw [slashes_append, first.slashes, second.slashes]
    rfl
  code clear := by
    obtain ⟨left, right⟩ := Bool.and_eq_true_iff.1 clear
    exact (first.code left).append (second.code right)
  hole quiet := by
    obtain ⟨left, right⟩ := Bool.and_eq_true_iff.1 quiet
    exact (first.hole left).append (second.hole right)

theorem Bare.spells (bare : Bare text) : Spells 0 text where
  slashes := slashes_eq_zero fun member => Bool.false_ne_true (bare '/' member)
  code _ := passes_plain bare
  hole _ := passes_plain_quoted (.inr (.inr rfl)) bare

theorem Spells.after (second : Spells a more) (bare : Bare text) : Spells a (text ++ more) := by
  have whole := bare.spells.append second
  rwa [Marks.zero_add] at whole

theorem Spells.before (first : Spells a text) (bare : Bare more) : Spells a (text ++ more) := by
  have whole := first.append bare.spells
  rwa [Marks.add_zero] at whole

theorem Spells.cons (second : Spells a text) (plain : isPlain c = true) : Spells a (c :: text) := by
  have bare : Bare [c] := List.forall_mem_singleton.2 plain
  exact second.after bare

end Spells

theorem isPlain_of_isSpace {c : Char} (blank : Text.isSpace c = true) : isPlain c = true := by
  simp only [Text.isSpace, Bool.or_eq_true, decide_eq_true_eq] at blank
  rcases blank with ((rfl | rfl) | rfl) | rfl <;> rfl

theorem Parser.Blanks.bare {text : List Char} (blanks : Blanks text) : Bare text :=
  fun c member => isPlain_of_isSpace (blanks c member)

/-- A text that begins with neither a slash nor a star, so that a slash before it is no comment. -/
def Opens (text : List Char) : Prop :=
  ∃ c more, text = c :: more ∧ c ≠ '/' ∧ c ≠ '*'

theorem Opens.append {text : List Char} (opens : Opens text) (more : List Char) :
    Opens (text ++ more) := by
  obtain ⟨c, rest, rfl, other⟩ := opens
  exact ⟨c, rest ++ more, rfl, other⟩

theorem Opens.after {text blanks : List Char} (opens : Opens text) (blank : Blanks blanks) :
    Opens (blanks ++ text) := by
  cases blanks with
  | nil => exact opens
  | cons c rest =>
    refine ⟨c, rest ++ text, rfl, ?_, ?_⟩
    · rintro rfl
      exact Bool.false_ne_true (blank _ List.mem_cons_self)
    · rintro rfl
      exact Bool.false_ne_true (blank _ List.mem_cons_self)

/-- A text that an expression may have. -/
structure Expr.WrittenAs (e : Expr) (text : List Char) : Prop where
  spells : Spells e.marks text
  opens : Opens text

theorem isPlain_of_isNameChar {c : Char} (letter : isNameChar c = true) :
    isPlain c = true ∧ c ≠ '/' ∧ c ≠ '*' := by
  refine ⟨decide_eq_true ⟨?_, ?_, ?_, ?_, ?_⟩, ?_, ?_⟩ <;> (rintro rfl; cases letter)

theorem isPlain_of_isDigit {c : Char} (digit : c.isDigit = true) :
    isPlain c = true ∧ c ≠ '/' ∧ c ≠ '*' := by
  refine ⟨decide_eq_true ⟨?_, ?_, ?_, ?_, ?_⟩, ?_, ?_⟩ <;> (rintro rfl; cases digit)

/-- A name is bare, and it begins with neither a slash nor a star. -/
theorem bare_name {text : List Char} (letters : ∀ c ∈ text, isNameChar c = true) : Bare text :=
  fun c member => (isPlain_of_isNameChar (letters c member)).1

theorem opens_name {text : List Char} (some : text ≠ [])
    (letters : ∀ c ∈ text, isNameChar c = true) : Opens text := by
  obtain ⟨c, more, rfl⟩ := List.exists_cons_of_ne_nil some
  exact ⟨c, more, rfl, (isPlain_of_isNameChar (letters c List.mem_cons_self)).2⟩

/-! ### Operators -/

/-- The tokens of operators are plain, but for the slash of a division. -/
theorem token_plain {tier : Nat} {token : String} {op : BinaryOp}
    (member : (token, op) ∈ operatorTiers.getD tier []) :
    (op = .div ∧ token.toList = ['/']) ∨ (op ≠ .div ∧ Bare token.toList) := by
  have all : ∀ tokens ∈ operatorTiers, ∀ token ∈ tokens,
      (token.2 = .div ∧ token.1.toList = ['/']) ∨
        (token.2 ≠ .div ∧ token.1.toList.all isPlain = true) := by
    decide
  exact (forall_tokens all member).imp_right fun plain => ⟨plain.1, List.all_eq_true.1 plain.2⟩

theorem Expr.WrittenAs.operator {right : Expr} {text : List Char} (written : right.WrittenAs text)
    {tier : Nat} {token : String} {op : BinaryOp}
    (member : (token, op) ∈ operatorTiers.getD tier []) :
    Spells (.ofOperator op + right.marks) (token.toList ++ text) := by
  obtain ⟨spells, c, more, rfl, line, block⟩ := written
  rcases token_plain member with ⟨rfl, slash⟩ | ⟨other, bare⟩
  · have one : slashes ['/'] = 1 := rfl
    rw [slash, List.singleton_append]
    refine ⟨?_, fun clear => ?_, fun quiet => ?_⟩
    · rw [slashes_cons, one, spells.slashes]
      rfl
    · exact (spells.code clear).slash line block
    · exact (passes_inside (by decide) (by decide)).cons (spells.hole quiet)
  · have none : Marks.ofOperator op = 0 := by
      rw [Marks.ofOperator, if_neg other]
      rfl
    rw [none, Marks.zero_add]
    exact spells.after bare

/-! ### Strings -/

/-- What an escape stands for has the slashes of the character after the backslash, and a backquote
if that is one. -/
private theorem slashes_unescape (quote c : Char) :
    slashes (unescape quote c) = slashes [c] := by
  rw [unescape]
  split
  · rename_i same
    subst same
    rfl
  split
  · rename_i same
    subst same
    rfl
  split
  · rename_i same
    subst same
    rfl
  split
  · rename_i same
    subst same
    rfl
  split
  · rename_i same
    rw [same]
  · rfl

theorem takes_stringRest {quote : Char} (quotes : quote = '"' ∨ quote = '\'') (taken : List Char) :
    (stringRest quote taken).Takes fun s text =>
      slashes s.toList = slashes taken + slashes text ∧
      Passes (.quoted quote) .code text ∧
      ('\x60' ∉ s.toList → '\x60' ∉ taken ∧ Passes (.quoted '\x60') (.quoted '\x60') text) := by
  have ⟨noEscape, noSlash, noBackquote⟩ : quote ≠ '\\' ∧ quote ≠ '/' ∧ quote ≠ '\x60' := by
    rcases quotes with rfl | rfl <;> decide
  intro s found rest read
  fun_induction stringRest quote taken s with
  | case1 => cases read
  | case2 taken rest =>
    cases read
    refine ⟨[quote], rfl, ?_, passes_close noEscape, fun quiet => ⟨?_, ?_⟩⟩
    · have none : slashes [quote] = 0 :=
        slashes_eq_zero fun member => noSlash (List.mem_singleton.1 member).symm
      rw [String.toList_ofList, slashes_reverse, none]
      rfl
    · rwa [String.toList_ofList, List.mem_reverse] at quiet
    · exact passes_inside noBackquote noEscape
  | case3 => cases read
  | case4 taken c rest _ ih =>
    obtain ⟨text, rfl, count, code, hole⟩ := ih read
    refine ⟨'\\' :: c :: text, rfl, ?_, passes_escape.append code, fun quiet => ?_⟩
    · have backslash : slashes ['\\'] = 0 := rfl
      have taken' : slashes ((unescape quote c).reverse ++ taken) =
          slashes [c] + slashes taken := by
        rw [slashes_append, slashes_reverse, slashes_unescape]
      have read' : slashes ('\\' :: c :: text) = slashes [c] + slashes text := by
        rw [slashes_cons, backslash, Nat.zero_add, slashes_cons]
      rw [count, taken', read']
      omega
    · obtain ⟨before, passes⟩ := hole quiet
      exact ⟨fun member => before (List.mem_append_right _ member), passes_escape.append passes⟩
  | case5 taken c rest inside plain ih =>
    obtain ⟨text, rfl, count, code, hole⟩ := ih read
    refine ⟨c :: text, rfl, ?_, (passes_inside inside plain).cons code, fun quiet => ?_⟩
    · rw [count, slashes_cons c taken, slashes_cons c text]
      omega
    · obtain ⟨before, passes⟩ := hole quiet
      have other : c ≠ '\x60' := fun same => before (same ▸ List.mem_cons_self)
      exact ⟨fun member => before (List.mem_cons_of_mem c member),
        (passes_inside other plain).cons passes⟩

/-- A string in quotes has the marks of what it stands for. -/
theorem takes_quotedString :
    quotedString.Takes fun s text => Spells (.ofText s) text ∧ Opens text := by
  have quoted {quote : Char} (quotes : quote = '"' ∨ quote = '\'') :
      (quotedWith quote).Takes fun s text => Spells (.ofText s) text ∧ Opens text := by
    have ⟨noEscape, noSlash, noStar, noBackquote⟩ :
        quote ≠ '\\' ∧ quote ≠ '/' ∧ quote ≠ '*' ∧ quote ≠ '\x60' := by
      rcases quotes with rfl | rfl <;> decide
    refine (takes_char quote).bind fun _ opening same => ?_
    subst same
    refine (takes_stringRest quotes []).imp fun s text ⟨count, code, hole⟩ => ?_
    refine ⟨⟨?_, fun _ => ?_, fun quiet => ?_⟩, quote, text, rfl, noSlash, noStar⟩
    · have none : slashes [quote] = 0 :=
        slashes_eq_zero fun member => noSlash (List.mem_singleton.1 member).symm
      have some : slashes s.toList = slashes text := count.trans (Nat.zero_add _)
      rw [slashes_append, none, Nat.zero_add, ← some]
      rfl
    · exact (passes_open (quotes.imp_right .inl)).append code
    · rw [Marks.ofText, Bool.not_eq_true'] at quiet
      have none : '\x60' ∉ s.toList := fun member => by
        rw [List.contains_iff_mem.2 member] at quiet
        cases quiet
      exact (passes_inside noBackquote noEscape).append (hole none).2
  exact (quoted (.inl rfl)).orElse (quoted (.inr rfl))

/-! ### Lists -/

section Lists

variable {α : Type} {marks : α → Marks} {p : Parser α}

theorem Spells.enclosed {a : Marks} {text before after : List Char} (spells : Spells a text)
    (first : Blanks before) (last : Blanks after) : Spells a (before ++ (text ++ after)) :=
  (spells.before last.bare).after first.bare

private theorem takes_comma : (spaced (char ',')).Takes fun _ text => Bare text := by
  refine (takes_char ',').spaced.imp ?_
  rintro _ text ⟨before, front, after, rfl, first, rfl, last⟩
  exact List.forall_mem_append.2 ⟨first.bare, List.forall_mem_cons.2 ⟨rfl, last.bare⟩⟩

private theorem takes_moreFrom (item : p.Takes fun a text => Spells (marks a) text)
    (bound : List Char) (taken : List α) :
    (moreFrom (spaced (char ',')) p bound taken).Takes fun items text =>
      ∀ front, Spells (.all marks taken.reverse) front →
        Spells (.all marks items) (front ++ text) := by
  induction bound generalizing taken with
  | nil =>
    refine takes_pure fun front before => ?_
    rwa [List.append_nil]
  | cons _ bound ih =>
    have next : (spaced (char ',') >>= fun _ => p).Takes fun a text => Spells (marks a) text :=
      takes_comma.bind fun _ comma bare => item.imp fun a text spells => spells.after bare
    intro s items rest read
    rw [moreFrom] at read
    split at read
    · rename_i a after found
      obtain ⟨text, rfl, spells⟩ := next s a after found
      obtain ⟨texts, rfl, all⟩ := ih (a :: taken) after items rest read
      refine ⟨text ++ texts, (List.append_assoc _ _ _).symm, fun front before => ?_⟩
      rw [← List.append_assoc]
      refine all (front ++ text) ?_
      rw [Marks.all_reverse_cons]
      exact before.append spells
    · cases read
      refine ⟨[], rfl, fun front before => ?_⟩
      rwa [List.append_nil]
    · cases read

theorem takes_commaList (item : p.Takes fun a text => Spells (marks a) text) :
    (commaList p).Takes fun items text => Spells (.all marks items) text := by
  have items : (separated (spaced (char ',')) p).Takes fun items text =>
      Spells (.all marks items) text := by
    intro s items rest read
    rw [separated] at read
    split at read
    · rename_i a after found
      obtain ⟨text, rfl, spells⟩ := item s a after found
      obtain ⟨texts, rfl, all⟩ := takes_moreFrom item after [a] after items rest read
      refine ⟨text ++ texts, (List.append_assoc _ _ _).symm, all text ?_⟩
      rw [List.reverse_singleton, Marks.all, Marks.all, Marks.add_zero]
      exact spells
    · cases read
      exact ⟨[], rfl, Bare.spells (List.forall_mem_nil _)⟩
    · cases read
  refine items.bind fun found text spells => ?_
  refine takes_comma.optional.bind fun _ comma last => takes_pure ?_
  rw [List.append_nil]
  rcases last with ⟨_, -, bare⟩ | ⟨-, rfl⟩
  · exact spells.before bare
  · rwa [List.append_nil]

/-- Items in brackets of some kind, with spaces inside. -/
theorem takes_enclosed {β : Type} (item : p.Takes fun a text => Spells (marks a) text)
    {opening closing : Char} (start : isPlain opening = true) (stop : isPlain closing = true)
    (f : List α → β) :
    Parser.Takes
      (do
        char opening
        spaces
        let items ← commaList p
        spaces
        char closing
        return f items)
      fun b text => ∃ items more, b = f items ∧ text = opening :: more ∧
        Spells (.all marks items) text := by
  refine (takes_char opening).bind fun _ front same => ?_
  subst same
  refine takes_spaces.bind fun _ first blank => ?_
  refine (takes_commaList item).bind fun items text spells => ?_
  refine takes_spaces.bind fun _ last blanks => ?_
  refine (takes_char closing).bind fun _ back same => ?_
  subst same
  refine takes_pure ⟨items, _, rfl, rfl, ?_⟩
  have behind : Bare (last ++ ([closing] ++ [])) := by
    rw [List.append_nil]
    exact List.forall_mem_append.2 ⟨blanks.bare, List.forall_mem_singleton.2 stop⟩
  exact ((spells.before behind).after blank.bare).cons start

end Lists

end Relay.Script
