import Relay.Proofs.Script.Equations
import Relay.Proofs.Script.Height

/-! # Expressions as text

How an expression is written: binary operators with single spaces around them, strings and keys in
double quotes with a backslash before a backslash and a quote only, and parentheses only where the
order of the operators or a minus under a minus needs them. The language leaves it open whether
spaces stand at commas, colons and question marks; a layout says so. How many levels a parser needs
for the text follows from the expression, and its height bounds them.
-/

namespace Relay.Script

open Relay.Script.Grammar (sign)

/-! ### Order -/

/-- The tier of an operator, the strongest first. -/
def BinaryOp.tier : BinaryOp → Nat
  | mul | div | rem => 0
  | add | sub => 1
  | lt | le | gt | ge => 2
  | eq | ne => 3
  | and => 4
  | or => 5

/-- How an operator is written. -/
def BinaryOp.token : BinaryOp → String
  | mul => "*"
  | div => "/"
  | rem => "%"
  | add => "+"
  | sub => "-"
  | lt => "<"
  | le => "<="
  | gt => ">"
  | ge => ">="
  | eq => "=="
  | ne => "!="
  | and => "&&"
  | or => "||"

/-- How loosely the parts of an expression hold together: not at all loosely for operands and what
follows a dot or stands in brackets, then operators before an operand, the tiers, conditionals. -/
def Expr.rank : Expr → Nat
  | unary _ _ => 1
  | binary op _ _ => op.tier + 2
  | conditional _ _ _ => 8
  | _ => 0

/-- Whether the expression is a minus before an operand. -/
def Expr.isNegation : Expr → Bool
  | unary .neg _ => true
  | _ => false

/-! ### Names -/

/-- The shape of a name. -/
def IsName (name : String) : Prop :=
  ∃ c cs, name.toList = c :: cs ∧ isNameStart c = true ∧ ∀ d ∈ cs, isNameChar d = true

/-- A name that is neither reserved nor a literal. -/
structure IsIdentifier (name : String) : Prop where
  shape : IsName name
  free : name ∉ reservedNames
  word : name ∉ ["null", "undefined", "true", "false"]

mutual

/-- The expression has only literals without a fraction, names, lists, maps, fields, indices, calls
of names, operators and conditionals. -/
def Expr.Plain : Expr → Prop
  | null => True
  | bool _ => True
  | int n => 0 ≤ n
  | string _ => True
  | list items => PlainItems items
  | map entries => PlainEntries entries
  | ident name => IsIdentifier name
  | field base name => base.Plain ∧ IsName name
  | index base key => base.Plain ∧ key.Plain
  | unary _ operand => operand.Plain
  | binary _ left right => left.Plain ∧ right.Plain
  | conditional condition yes no => condition.Plain ∧ yes.Plain ∧ no.Plain
  | call name args => IsIdentifier name ∧ PlainItems args
  | float _ => False
  | template _ _ => False
  | invoke _ _ _ => False

/-- Every item is plain. -/
def Expr.PlainItems : List Expr → Prop
  | [] => True
  | e :: rest => e.Plain ∧ PlainItems rest

/-- Every value is plain. -/
def Expr.PlainEntries : List (String × Expr) → Prop
  | [] => True
  | (_, e) :: rest => e.Plain ∧ PlainEntries rest

end

/-! ### Text -/

/-- Spaces between two tokens, possibly none. -/
structure Gap where
  chars : List Char
  blank : ∀ c ∈ chars, Text.isSpace c = true

/-- The marks around which spaces are a matter of taste. -/
inductive Mark where
  | comma
  | entry
  | question
  | alternative

/-- The character of a mark. -/
def Mark.char : Mark → Char
  | comma => ','
  | entry => ':'
  | question => '?'
  | alternative => ':'

/-- The spaces around each mark. -/
structure Layout where
  before : Mark → Gap
  after : Mark → Gap

namespace Layout

/-- A mark with its spaces. -/
def mark (layout : Layout) (m : Mark) : List Char :=
  (layout.before m).chars ++ m.char :: (layout.after m).chars

/-- No spaces at all. -/
def tight : Layout where
  before _ := ⟨[], List.forall_mem_nil _⟩
  after _ := ⟨[], List.forall_mem_nil _⟩

/-- Texts with commas between them. -/
def commas (layout : Layout) : List (List Char) → List Char
  | [] => []
  | text :: rest => text ++ rest.flatMap (layout.mark .comma ++ ·)

end Layout

/-- A character inside double quotes. -/
def escaped (c : Char) : List Char :=
  if c = '\\' ∨ c = '"' then ['\\', c] else [c]

/-- A string in double quotes. -/
def quotedText (s : String) : List Char :=
  '"' :: s.toList.flatMap escaped ++ ['"']

/-- A text that stands in parentheses unless it may stand bare. -/
def guarded (bare : Prop) [Decidable bare] (text : List Char) : List Char :=
  if bare then text else '(' :: text ++ [')']

mutual

/-- The text of an expression. Doubles, templates and methods of capabilities are not written. -/
def Expr.printed (layout : Layout) : Expr → List Char
  | null => "null".toList
  | bool b => (if b then "true" else "false").toList
  | int n => Nat.toDigits 10 n.toNatClampNeg
  | string s => quotedText s
  | list items => '[' :: layout.commas (printedItems layout items) ++ [']']
  | map entries => '\x7b' :: layout.commas (printedEntries layout entries) ++ ['\x7d']
  | ident name => name.toList
  | field base name => guarded (base.rank = 0) (base.printed layout) ++ '.' :: name.toList
  | index base key =>
    guarded (base.rank = 0) (base.printed layout) ++ '[' :: key.printed layout ++ [']']
  | unary op operand =>
    sign op :: guarded (operand.rank ≤ 1 ∧ ¬ (op = .neg ∧ operand.isNegation))
      (operand.printed layout)
  | binary op left right =>
    guarded (left.rank ≤ op.tier + 2) (left.printed layout) ++ ' ' :: op.token.toList ++
      ' ' :: guarded (right.rank ≤ op.tier + 1) (right.printed layout)
  | conditional condition yes no =>
    guarded (condition.rank < 8) (condition.printed layout) ++ layout.mark .question ++
      yes.printed layout ++ layout.mark .alternative ++ no.printed layout
  | call name args => name.toList ++ '(' :: layout.commas (printedItems layout args) ++ [')']
  | float _ => []
  | template _ _ => []
  | invoke _ _ _ => []

/-- The text of each item. -/
def Expr.printedItems (layout : Layout) : List Expr → List (List Char)
  | [] => []
  | e :: rest => e.printed layout :: printedItems layout rest

/-- The text of each entry. -/
def Expr.printedEntries (layout : Layout) : List (String × Expr) → List (List Char)
  | [] => []
  | (key, e) :: rest =>
    (quotedText key ++ layout.mark .entry ++ e.printed layout) :: printedEntries layout rest

end

/-! ### Levels -/

/-- The level that parentheses take, if they are needed. -/
def parenLevels (bare : Prop) [Decidable bare] : Nat :=
  if bare then 0 else 1

/-- The levels that the parser still holds behind an expression while it reads on in the same chain:
one for each step after an operand, and one for each operator of the tier. -/
def Expr.held : Expr → Nat
  | field base _ => (if base.rank = 0 then base.held else 0) + 1
  | index base _ => (if base.rank = 0 then base.held else 0) + 1
  | binary op left _ => (if left.rank = op.tier + 2 then left.held else 0) + 1
  | _ => 0

mutual

/-- The levels that the parser needs for what is inside an expression when it reads its text. -/
def Expr.nesting : Expr → Nat
  | list items => nestingItems items + 1
  | map entries => nestingEntries entries + 1
  | call _ args => nestingItems args + 1
  | field base name => max (base.nesting + parenLevels (base.rank = 0)) (field base name).held
  | index base key =>
    max (base.nesting + parenLevels (base.rank = 0)) ((index base key).held + (key.nesting + 1))
  | unary op operand =>
    operand.nesting + parenLevels (operand.rank ≤ 1 ∧ ¬ (op = .neg ∧ operand.isNegation)) + 1
  | binary op left right =>
    max (left.nesting + parenLevels (left.rank ≤ op.tier + 2))
      ((binary op left right).held +
        (right.nesting + parenLevels (right.rank ≤ op.tier + 1)))
  | conditional condition yes no =>
    max (condition.nesting + parenLevels (condition.rank < 8)) (max yes.nesting no.nesting + 1)
  | _ => 0

/-- The greatest number of levels of the items, zero if there are none. -/
def Expr.nestingItems : List Expr → Nat
  | [] => 0
  | e :: rest => max e.nesting (nestingItems rest)

/-- The greatest number of levels of the values, zero if there are none. -/
def Expr.nestingEntries : List (String × Expr) → Nat
  | [] => 0
  | (_, e) :: rest => max e.nesting (nestingEntries rest)

end

theorem Expr.held_le_nesting (e : Expr) : e.held ≤ e.nesting := by
  cases e with
  | field => exact Nat.le_max_right _ _
  | index => exact Nat.le_trans (Nat.le_add_right _ _) (Nat.le_max_right _ _)
  | binary => exact Nat.le_trans (Nat.le_add_right _ _) (Nat.le_max_right _ _)
  | _ => exact Nat.zero_le _

theorem parenLevels_le_one (bare : Prop) [Decidable bare] : parenLevels bare ≤ 1 := by
  rw [parenLevels]
  split <;> decide

theorem Expr.held_le_height : (e : Expr) → e.held ≤ e.height
  | field base _ => by
    have below := held_le_height base
    rw [held, height]
    split <;> omega
  | index base _ => by
    have below := held_le_height base
    rw [held, height]
    split <;> omega
  | binary _ left _ => by
    have below := held_le_height left
    rw [held, height]
    split <;> omega
  | null | bool _ | int _ | float _ | string _ | template _ _ | list _ | map _ | ident _
  | unary _ _ | conditional _ _ _ | call _ _ | invoke _ _ _ => Nat.zero_le _

/-- The most levels that an expression of some height needs. A part takes the levels of its own
height, one more if it stands in parentheses, and finds held what is in front of it. -/
def nestingBound : Nat → Nat
  | 0 => 0
  | height + 1 => nestingBound height + height + 2

theorem nestingBound_mono {less more : Nat} (le : less ≤ more) :
    nestingBound less ≤ nestingBound more := by
  induction le with
  | refl => exact Nat.le_refl _
  | step _ ih =>
    rw [nestingBound]
    omega

/-- The bound of a whole leaves room for a part, what is held in front of it and parentheses. -/
private theorem part_le {need part held height : Nat} (bound : need ≤ nestingBound part)
    (below : part ≤ height) (front : held ≤ 1 + height) :
    held + (need + 1) ≤ nestingBound (1 + height) := by
  have mono := nestingBound_mono below
  rw [Nat.add_comm 1, nestingBound]
  omega

/-- In front of what stands in brackets nothing is held. -/
private theorem inside_le {need height : Nat} (bound : need ≤ nestingBound height) :
    need + 1 ≤ nestingBound (1 + height) :=
  Nat.zero_add (need + 1) ▸ part_le bound (Nat.le_refl height) (Nat.zero_le _)

mutual

theorem Expr.nesting_le_height : (e : Expr) → e.nesting ≤ nestingBound e.height
  | list items => inside_le (nestingItems_le_height items)
  | map entries => inside_le (nestingEntries_le_height entries)
  | call _ args => inside_le (nestingItems_le_height args)
  | field base name => by
    have front := held_le_height (field base name)
    have parens := parenLevels_le_one (base.rank = 0)
    have room := part_le (nesting_le_height base) (Nat.le_refl _) front
    rw [nesting, height]
    omega
  | index base key => by
    have front := held_le_height (index base key)
    have parens := parenLevels_le_one (base.rank = 0)
    have first := part_le (nesting_le_height base) (Nat.le_max_left _ key.height) (Nat.zero_le _)
    have second := part_le (nesting_le_height key) (Nat.le_max_right base.height _) front
    rw [nesting, height]
    omega
  | unary op operand => by
    have parens := parenLevels_le_one (operand.rank ≤ 1 ∧ ¬ (op = .neg ∧ operand.isNegation))
    have room := part_le (nesting_le_height operand) (Nat.le_refl _) (Nat.le_add_right 1 _)
    rw [nesting, height]
    omega
  | binary op left right => by
    have front := held_le_height (binary op left right)
    have parens := parenLevels_le_one (left.rank ≤ op.tier + 2)
    have parens' := parenLevels_le_one (right.rank ≤ op.tier + 1)
    have first := part_le (nesting_le_height left) (Nat.le_max_left _ right.height) (Nat.zero_le _)
    have second := part_le (nesting_le_height right) (Nat.le_max_right left.height _) front
    rw [nesting, height]
    omega
  | conditional condition yes no => by
    have parens := parenLevels_le_one (condition.rank < 8)
    have below : max yes.height no.height ≤ max condition.height (max yes.height no.height) :=
      Nat.le_max_right _ _
    have test := part_le (nesting_le_height condition)
      (Nat.le_max_left _ (max yes.height no.height)) (Nat.zero_le _)
    have first := part_le (nesting_le_height yes)
      (Nat.le_trans (Nat.le_max_left _ no.height) below) (Nat.zero_le _)
    have second := part_le (nesting_le_height no)
      (Nat.le_trans (Nat.le_max_right yes.height _) below) (Nat.zero_le _)
    rw [nesting, height]
    omega
  | null | bool _ | int _ | float _ | string _ | template _ _ | ident _ | invoke _ _ _ =>
    Nat.zero_le _

theorem Expr.nestingItems_le_height : (items : List Expr) →
    nestingItems items ≤ nestingBound (heightItems items)
  | [] => Nat.zero_le _
  | e :: rest => by
    rw [nestingItems, heightItems]
    exact Nat.max_le.2
      ⟨Nat.le_trans (nesting_le_height e) (nestingBound_mono (Nat.le_max_left _ _)),
        Nat.le_trans (nestingItems_le_height rest) (nestingBound_mono (Nat.le_max_right _ _))⟩

theorem Expr.nestingEntries_le_height : (entries : List (String × Expr)) →
    nestingEntries entries ≤ nestingBound (heightEntries entries)
  | [] => Nat.zero_le _
  | (_, e) :: rest => by
    rw [nestingEntries, heightEntries]
    exact Nat.max_le.2
      ⟨Nat.le_trans (nesting_le_height e) (nestingBound_mono (Nat.le_max_left _ _)),
        Nat.le_trans (nestingEntries_le_height rest) (nestingBound_mono (Nat.le_max_right _ _))⟩

end

end Relay.Script
