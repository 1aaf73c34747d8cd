import Relay.Proofs.Script.Comments
import Relay.Proofs.Script.Paying

/-! # What a program costs its text

Every expression is at least a character of its text, and an expression as a statement is one node
more than the expression. So if a character is worth two nodes, and no less than a character of a
string costs, then a text pays for all that is read from it. Each parser of a grammar pays for an
expression and a statement around it if those of one level less do; what was read before a loop over
operators or postfix steps is credit for the loop.
-/

namespace Relay.Script

open Relay.Script.Parser

/-- What a node of a program costs, what a character of a string and a step of a target in it do,
and what a character of its text is worth. -/
structure Tariff where
  node : Nat
  letter : Char → Nat
  step : Nat := 0
  worth : Char → Nat
  node_le : ∀ c, 2 * node ≤ worth c
  letter_le : ∀ c, letter c ≤ worth c
  /-- A backslash is worth the character that an escape stands for. -/
  control_le : ∀ c ∈ ['\n', '\t', '\r'], letter c ≤ worth '\\'
  /-- Every character is worth the space that is left of a comment. -/
  space_le : ∀ c, worth ' ' ≤ worth c
  /-- A step has two characters. -/
  step_le : ∀ c d, step ≤ worth c + worth d := by exact fun _ _ => Nat.zero_le _

namespace Tariff

/-- Every node costs one, and a character is worth two. -/
def perNode : Tariff where
  node := 1
  letter _ := 0
  worth _ := 2
  node_le _ := Nat.le_refl _
  letter_le _ := Nat.zero_le _
  control_le _ _ := Nat.zero_le _
  space_le _ := Nat.le_refl _

/-- Only strings cost something, and they cost their bytes. -/
def perByte : Tariff where
  node := 0
  letter := Char.utf8Size
  worth := Char.utf8Size
  node_le _ := Nat.zero_le _
  letter_le _ := Nat.le_refl _
  control_le c control := by
    simp only [List.mem_cons, List.not_mem_nil, or_false] at control
    rcases control with rfl | rfl | rfl <;> decide
  space_le := Char.utf8Size_pos

/-- Only steps of targets cost something, and they cost two characters. -/
def perStep : Tariff where
  node := 0
  letter _ := 0
  step := 2
  worth _ := 1
  node_le _ := Nat.zero_le _
  letter_le _ := Nat.zero_le _
  control_le _ _ := Nat.zero_le _
  space_le _ := Nat.le_refl _
  step_le _ _ := Nat.le_refl _

variable (t : Tariff)

theorem worth_le_total {c : Char} {text : List Char} (member : c ∈ text) :
    2 * t.node ≤ total t.worth text := by
  obtain ⟨before, after, rfl⟩ := List.append_of_mem member
  have paid := t.node_le c
  rw [total_append, total_cons]
  omega

end Tariff

/-! ## Costs -/

mutual

/-- What the nodes of an expression and its strings cost. -/
def Expr.cost (t : Tariff) : Expr → Nat
  | string s => t.node + total t.letter s.toList
  | template holes _ => t.node + costEntries t holes
  | list items => t.node + costItems t items
  | map entries => t.node + costEntries t entries
  | field base _ => t.node + base.cost t
  | index base key => t.node + base.cost t + key.cost t
  | unary _ operand => t.node + operand.cost t
  | binary _ left right => t.node + left.cost t + right.cost t
  | conditional condition yes no => t.node + condition.cost t + yes.cost t + no.cost t
  | call _ args => t.node + costItems t args
  | invoke _ _ args => t.node + costItems t args
  | null => t.node
  | bool _ => t.node
  | int _ => t.node
  | float _ => t.node
  | ident _ => t.node

def Expr.costItems (t : Tariff) : List Expr → Nat
  | [] => 0
  | e :: rest => e.cost t + costItems t rest

def Expr.costEntries (t : Tariff) : List (String × Expr) → Nat
  | [] => 0
  | (_, e) :: rest => e.cost t + costEntries t rest

end

/-- What a step of a target costs, and what it is computed from. -/
def PathStep.cost (t : Tariff) : PathStep → Nat
  | field _ => t.step
  | index key => key.cost t + t.step

def Place.cost (t : Tariff) (place : Place) : Nat :=
  (place.path.map (PathStep.cost t)).sum

mutual

/-- What a statement and all that is inside it cost. -/
def Stmt.cost (t : Tariff) : Stmt → Nat
  | declare _ _ value => t.node + value.cost t
  | assign place _ value => t.node + place.cost t + value.cost t
  | branch condition yes no => t.node + condition.cost t + costBody t yes + costBody t no
  | ret none => t.node
  | ret (some value) => t.node + value.cost t
  | block body => t.node + costBody t body
  | eval value => t.node + value.cost t

def Stmt.costBody (t : Tariff) : List Stmt → Nat
  | [] => 0
  | stmt :: rest => stmt.cost t + costBody t rest

end

theorem Expr.costItems_eq (t : Tariff) (items : List Expr) :
    costItems t items = (items.map (cost t)).sum := by
  induction items with
  | nil => rfl
  | cons e rest ih => rw [costItems, ih, List.map_cons, List.sum_cons]

theorem Expr.costEntries_eq (t : Tariff) (entries : List (String × Expr)) :
    costEntries t entries = (entries.map fun entry => entry.2.cost t).sum := by
  induction entries with
  | nil => rfl
  | cons entry rest ih => rw [costEntries, ih, List.map_cons, List.sum_cons]

theorem Stmt.costBody_eq (t : Tariff) (body : List Stmt) :
    costBody t body = (body.map (cost t)).sum := by
  induction body with
  | nil => rfl
  | cons stmt rest ih => rw [costBody, ih, List.map_cons, List.sum_cons]

theorem cost_methodCall_le (t : Tariff) (receiver : Expr) (method : String) (args : List Expr) :
    (methodCall receiver method args).cost t ≤
      t.node + receiver.cost t + Expr.costItems t args := by
  have plain (name : String) : (Expr.call name args).cost t ≤
      t.node + receiver.cost t + Expr.costItems t args := by
    rw [Expr.cost]
    omega
  have general : (Expr.call method (receiver :: args)).cost t ≤
      t.node + receiver.cost t + Expr.costItems t args := by
    rw [Expr.cost, Expr.costItems]
    omega
  rw [methodCall.eq_def]
  split
  · split
    · exact plain method
    split
    · exact plain method
    split
    · exact plain _
    · exact general
  · exact general

/-! ## Tokens -/

section Tokens

variable {t : Tariff} {credit : Nat}

theorem pays_anyName : anyName.Pays t.worth credit fun _ => credit + 2 * t.node := by
  refine takes_anyName.pays ?_
  rintro _ front ⟨-, nonempty, -⟩
  obtain ⟨c, more, rfl⟩ := List.exists_cons_of_ne_nil nonempty
  exact Nat.add_le_add_left (t.worth_le_total List.mem_cons_self) credit

theorem pays_name : name.Pays t.worth credit fun _ => credit + 2 * t.node := by
  refine pays_anyName.bind fun found => ?_
  split
  · exact pays_mismatch
  · exact pays_pure (Nat.le_refl _)

private theorem total_unescape_le (quote c : Char) :
    total t.letter (unescape quote c) ≤ t.worth '\\' + t.worth c := by
  have control {d : Char} (member : d ∈ ['\n', '\t', '\r']) :
      total t.letter [d] ≤ t.worth '\\' + t.worth c := by
    have paid := t.control_le d member
    rw [total_cons, total_nil]
    omega
  have backslash := t.letter_le '\\'
  have letter := t.letter_le c
  -- An escape that stands for nothing else keeps both of its characters, each paid by itself.
  rw [unescape]
  split
  · exact control (by decide)
  split
  · exact control (by decide)
  split
  · exact control (by decide)
  split
  · rw [total_cons, total_nil]
    omega
  split
  · rename_i same
    rw [← same, total_cons, total_nil]
    omega
  · rw [total_cons, total_cons, total_nil]
    omega

private theorem pays_stringRest (quote : Char) (taken : List Char) :
    (stringRest quote taken).Pays t.worth (total t.letter taken)
      fun s => total t.letter s.toList := by
  intro s found rest read
  fun_induction stringRest quote taken s with
  | case1 => cases read
  | case2 taken s =>
    cases read
    dsimp only
    rw [String.toList_ofList, total_reverse, total_cons]
    omega
  | case3 => cases read
  | case4 taken escaped s other ih =>
    have paid := ih read
    have price := total_unescape_le (t := t) quote escaped
    rw [total_append, total_reverse] at paid
    rw [total_cons, total_cons]
    omega
  | case5 taken c s inside plain ih =>
    have paid := ih read
    have price := t.letter_le c
    rw [total_cons] at paid ⊢
    omega

theorem pays_quotedString :
    quotedString.Pays t.worth 0 fun s => 2 * t.node + total t.letter s.toList := by
  have within (quote : Char) :
      (quotedWith quote).Pays t.worth 0 fun s => 2 * t.node + total t.letter s.toList := by
    refine (pays_char quote).bind fun _ s found rest read => ?_
    have paid := pays_stringRest (t := t) quote [] s found rest read
    have opening := t.node_le quote
    dsimp only at paid ⊢
    rw [total_nil] at paid
    omega
  exact (within '"').orElse (within '\'')

end Tokens

/-! ## Expressions -/

/-- The parser pays for an expression and a statement around it. -/
def Tariff.Funds (t : Tariff) (credit : Nat) (p : Parser Expr) : Prop :=
  p.Pays t.worth credit fun e => t.node + e.cost t

/-- The parser pays for an expression around one that was paid before. -/
def Tariff.Extends (t : Tariff) (e : Expr) (p : Parser Expr) : Prop :=
  t.Funds (t.node + e.cost t) p

namespace Grammar

section Operands

variable {t : Tariff} {credit : Nat} {expression : Parser Expr}

private theorem pays_inside (funds : t.Funds 0 expression) :
    expression.Pays t.worth 0 (Expr.cost t) :=
  funds.cheaper fun _ => Nat.le_add_left _ _

private theorem pays_arguments (funds : t.Funds 0 expression) :
    (arguments expression).Pays t.worth credit fun args => credit + Expr.costItems t args := by
  refine (pays_char '(').bind fun _ => pays_spaces.bind fun _ => ?_
  refine (pays_inside funds).commaList.bind fun args => ?_
  refine pays_spaces.bind fun _ => (pays_char ')').bind fun _ => pays_pure ?_
  rw [Expr.costItems_eq]
  omega

private theorem funds_listLiteral (funds : t.Funds 0 expression) :
    t.Funds 0 (listLiteral expression) := by
  refine (pays_char '[').bind fun _ => pays_spaces.bind fun _ => ?_
  refine (pays_inside funds).commaList.bind fun items => ?_
  refine pays_spaces.bind fun _ => (pays_char ']').bind fun _ => pays_pure ?_
  have opening := t.node_le '['
  rw [Expr.cost, Expr.costItems_eq]
  omega

private theorem pays_mapEntry (funds : t.Funds 0 expression) :
    (mapEntry expression).Pays t.worth 0 fun entry => entry.2.cost t := by
  have key : (quotedString <|> anyName).Pays t.worth 0 fun _ => 0 :=
    (pays_quotedString.cheaper fun _ => Nat.zero_le _).orElse
      (pays_anyName.cheaper fun _ => Nat.zero_le _)
  refine pays_spaces.bind fun _ => key.bind fun key => ?_
  refine (pays_char ':').spaced.bind fun _ => ?_
  exact ((pays_inside funds).frame _).bind fun value => pays_pure (Nat.le_add_left _ _)

private theorem funds_mapLiteral (funds : t.Funds 0 expression) :
    t.Funds 0 (mapLiteral expression) := by
  refine (pays_char '\x7b').bind fun _ => pays_spaces.bind fun _ => ?_
  refine (pays_mapEntry funds).commaList.bind fun entries => ?_
  refine pays_spaces.bind fun _ => (pays_char '\x7d').bind fun _ => pays_pure ?_
  have opening := t.node_le '\x7b'
  rw [Expr.cost, Expr.costEntries_eq]
  omega

private theorem funds_parenthesized (funds : t.Funds 0 expression) :
    t.Funds 0 (parenthesized expression) := by
  refine (pays_char '(').bind fun _ => ?_
  refine (Pays.frame funds _).spaced.bind fun e => ?_
  exact (pays_char ')').bind fun _ => pays_pure (by omega)

private theorem funds_callOrName (funds : t.Funds 0 expression) :
    t.Funds 0 (callOrName expression) := by
  have ahead (credit : Nat) :
      Pays (fun s => .ok (Text.skipSpace s, s)) t.worth credit fun _ => credit := by
    intro s next rest read
    cases read
    exact Nat.le_refl _
  refine pays_name.bind fun found => (ahead _).bind fun next => ?_
  split
  · refine pays_spaces.bind fun _ => ?_
    refine (pays_arguments funds).bind fun args => pays_pure ?_
    rw [Expr.cost]
    omega
  · refine pays_pure ?_
    rw [Expr.cost]
    omega

private theorem pays_templateRest (funds : t.Funds 0 expression) (turns : List Char)
    (holes : List (String × Expr)) (text : List Char) :
    (templateRest expression turns holes text).Pays t.worth
      (2 * t.node + Expr.costEntries t holes) fun e => t.node + e.cost t := by
  -- The opening quote and the holes before this turn are the credit.
  induction turns generalizing holes text with
  | nil => exact fun _ _ _ read => nomatch read
  | cons turn turns ih =>
    intro s e rest read
    dsimp only
    cases templateFront s with
    | nothing => cases read
    | close more =>
      rw [templateRest_close] at read
      cases read
      rw [Expr.cost, Expr.costEntries_eq, Expr.costEntries_eq, List.map_reverse, List.sum_reverse,
        total_cons]
      omega
    | hole more =>
      have inside : (hole expression).Pays t.worth 0 (Expr.cost t) :=
        (pays_inside funds).spaced.bind fun e =>
          (pays_char '\x7d').bind fun _ => pays_pure (Nat.le_add_right _ _)
      rw [templateRest_hole] at read
      split at read
      · rename_i e' after parsed
        have first := inside more e' after parsed
        have others := ih _ _ after e rest read
        dsimp only at others
        rw [Expr.costEntries] at others
        rw [total_cons, total_cons]
        omega
      · cases read
    | escape c more =>
      rw [templateRest_escape] at read
      have others := ih _ _ more e rest read
      dsimp only at others
      rw [total_cons, total_cons]
      omega
    | backslash => cases read
    | plain c more quote escape outside =>
      rw [templateRest_plain quote escape outside] at read
      have others := ih _ _ more e rest read
      dsimp only at others
      rw [total_cons]
      omega

private theorem funds_template (funds : t.Funds 0 expression) :
    t.Funds 0 (template expression) := by
  refine (pays_char '\x60').bind fun _ s e rest read => ?_
  have paid := pays_templateRest funds ('\x60' :: s) [] [] s e rest read
  have opening := t.node_le '\x60'
  dsimp only at paid ⊢
  rw [Expr.costEntries] at paid
  omega

private theorem funds_oneOf {words : List (String × Expr)}
    (simple : ∀ word ∈ words, word.1.toList ≠ [] ∧ word.2.cost t = t.node) :
    t.Funds 0 (oneOf words) := by
  induction words with
  | nil => exact pays_mismatch
  | cons word words ih =>
    obtain ⟨⟨nonempty, single⟩, later⟩ := List.forall_mem_cons.1 simple
    refine Pays.orElse ((pays_keyword word.1).bind fun _ => pays_pure ?_) (ih later)
    have paid := t.worth_le_total (List.head_mem nonempty)
    rw [single]
    omega

private theorem funds_wordLiteral : t.Funds 0 wordLiteral := by
  refine funds_oneOf ?_
  simp only [List.forall_mem_cons]
  exact ⟨⟨by decide, rfl⟩, ⟨by decide, rfl⟩, ⟨by decide, rfl⟩, ⟨by decide, rfl⟩,
    List.forall_mem_nil _⟩

private theorem funds_number : t.Funds 0 number := by
  refine takes_number.pays ?_
  rintro e _ ⟨value, d, more, rfl, -⟩
  have paid := t.worth_le_total (List.mem_cons_self (a := d) (l := more))
  have single : e.cost t = t.node := by
    rcases value with ⟨n, rfl⟩ | ⟨x, rfl⟩ <;> rfl
  omega

theorem funds_atom (funds : t.Funds 0 expression) : t.Funds 0 (atom expression) := by
  have string : t.Funds 0 (Expr.string <$> quotedString) := by
    refine pays_quotedString.map fun s => ?_
    rw [Expr.cost]
    omega
  refine pays_spaces.bind fun _ => ?_
  exact funds_wordLiteral.orElse <| funds_number.orElse <| string.orElse <|
    (funds_template funds).orElse <| (funds_listLiteral funds).orElse <|
    (funds_mapLiteral funds).orElse <| (funds_parenthesized funds).orElse (funds_callOrName funds)

end Operands

/-- What the parsers of the grammar answer with is paid by the text that they take. -/
structure Pays (t : Tariff) (g : Grammar) : Prop where
  expression : t.Funds 0 g.expression
  unary : t.Funds 0 g.unary
  tier : ∀ tier, t.Funds 0 (g.tier tier)
  tierRest : ∀ tier e, t.Extends e (g.tierRest tier e)
  postfixRest : ∀ e, t.Extends e (g.postfixRest e)
  statement : g.statement.Pays t.worth 0 (Stmt.cost t)

section Operators

variable {t : Tariff} {g : Grammar} {below : Option (Thunk Grammar)} {e : Expr}

private theorem pays_enter {α : Type} {credit : Nat} {cost : α → Nat} {p : Grammar → Parser α}
    (inside : ∀ g, below = some g → (p g.get).Pays t.worth credit cost) :
    (enter below p).Pays t.worth credit cost := by
  cases below with
  | none => exact pays_tooDeep
  | some g => exact inside g rfl

private theorem funds_enter {credit : Nat} {p : Grammar → Parser Expr}
    (pays : ∀ g, below = some g → g.get.Pays t) (inside : ∀ g, g.Pays t → t.Funds credit (p g)) :
    t.Funds credit (enter below p) :=
  pays_enter fun g given => inside g.get (pays g given)

private theorem extends_member (pays : g.Pays t) (e : Expr) : t.Extends e (member g e) := by
  refine pays_anyName.spaced.bind fun found s whole rest read => ?_
  split at read
  · have call : t.Funds (t.node + e.cost t + 2 * t.node)
        (methodCall e found <$> arguments g.expression) := by
      refine (pays_arguments pays.expression).map fun args => ?_
      have paid := cost_methodCall_le t e found args
      omega
    exact call _ whole rest read
  · cases read
    rw [Expr.cost]
    omega

private theorem extends_subscript (pays : g.Pays t) (e : Expr) : t.Extends e (subscript g e) := by
  refine (Pays.frame pays.expression _).spaced.bind fun key => ?_
  refine (pays_char ']').bind fun _ => pays_pure ?_
  rw [Expr.cost]
  omega

/-- A parser that goes by the character behind the spaces has that character for credit. -/
private theorem funds_ahead {p : Parser Expr} {credit : Nat}
    (funds : t.Funds (credit + 2 * t.node) p) {s rest after : List Char} {c : Char} {whole : Expr}
    (shown : Text.skipSpace s = c :: rest) (read : p rest = .ok (whole, after)) :
    t.node + whole.cost t + total t.worth after ≤ credit + total t.worth s := by
  have paid : t.node + whole.cost t + _ ≤ _ := funds rest whole after read
  have visible := total_ahead t.worth shown
  have character := t.node_le c
  omega

private theorem extends_credit {p : Parser Expr} (extends_ : t.Extends e p) :
    t.Funds (t.node + e.cost t + 2 * t.node) p :=
  fun s a rest read => Nat.le_trans (extends_ s a rest read)
    (Nat.add_le_add_right (Nat.le_add_right _ _) _)

private theorem extends_postfixRestStep (pays : ∀ g, below = some g → g.get.Pays t) (e : Expr) :
    t.Extends e (postfixRestStep below e) := by
  intro s whole rest read
  by_cases field : ∃ more, Text.skipSpace s = '.' :: more
  · obtain ⟨more, ahead⟩ := field
    rw [postfixRestStep_field ahead] at read
    refine funds_ahead (extends_credit (funds_enter pays fun g inside => ?_)) ahead read
    exact (extends_member inside e).bind inside.postfixRest
  by_cases index : ∃ more, Text.skipSpace s = '[' :: more
  · obtain ⟨more, ahead⟩ := index
    rw [postfixRestStep_index ahead] at read
    refine funds_ahead (extends_credit (funds_enter pays fun g inside => ?_)) ahead read
    exact (extends_subscript inside e).bind inside.postfixRest
  rw [postfixRestStep_end (fun more same => field ⟨more, same⟩)
    (fun more same => index ⟨more, same⟩)] at read
  cases read
  exact Nat.le_refl _

private theorem extends_conditionalRest (pays : g.Pays t) (e : Expr) :
    t.Extends e (conditionalRest g e) := by
  have alternatives : t.Extends e
      (do
        let yes ← spaced g.expression
        char ':'
        let no ← g.expression
        return .conditional e yes no) := by
    refine (Pays.frame pays.expression _).spaced.bind fun yes => ?_
    refine (pays_char ':').bind fun _ => ?_
    refine (Pays.frame pays.expression _).bind fun no => pays_pure ?_
    rw [Expr.cost]
    omega
  intro s whole rest read
  by_cases question : ∃ more, Text.skipSpace s = '?' :: more
  · obtain ⟨more, ahead⟩ := question
    rw [conditionalRest_question ahead] at read
    exact funds_ahead (extends_credit alternatives) ahead read
  · rw [conditionalRest_end fun more same => question ⟨more, same⟩] at read
    cases read
    exact Nat.le_refl _

private theorem funds_expressionStep (pays : ∀ g, below = some g → g.get.Pays t) :
    t.Funds 0 (expressionStep below) :=
  funds_enter pays fun _ inside =>
    (inside.tier tierCount).bind (extends_conditionalRest inside)

private theorem funds_postfixed (pays : ∀ g, below = some g → g.get.Pays t) :
    t.Funds 0 (postfixed below) :=
  (funds_atom (funds_expressionStep pays)).bind (extends_postfixRestStep pays)

private theorem funds_unaryStep (pays : ∀ g, below = some g → g.get.Pays t) :
    t.Funds 0 (unaryStep below) := by
  intro s e rest read
  have visible := total_skipSpace_le t.worth s
  by_cases signed : ∃ op rest, Signed op (Text.skipSpace s) rest
  · obtain ⟨op, more, here⟩ := signed
    rw [unaryStep_signed here] at read
    refine funds_ahead (funds_enter pays fun g inside => ?_) here.ahead read
    refine (Pays.frame inside.unary _).map fun operand => ?_
    rw [Expr.cost]
    omega
  · have here (op : UnaryOp) (more : List Char) : ¬ Signed op (Text.skipSpace s) more :=
      fun found => signed ⟨op, more, found⟩
    rw [unaryStep_operand here] at read
    have paid := funds_postfixed pays _ e rest read
    exact Nat.le_trans paid (Nat.add_le_add_left visible _)

private theorem extends_tierRestStep (pays : ∀ g, below = some g → g.get.Pays t) (tier : Nat)
    (e : Expr) : t.Extends e (tierRestStep below tier e) := by
  intro s whole rest read
  have visible := total_skipSpace_le t.worth s
  cases found : operator? tier (Text.skipSpace s) with
  | none =>
    rw [tierRestStep_end found] at read
    cases read
    exact Nat.le_refl _
  | some out =>
    obtain ⟨op, more⟩ := out
    rw [tierRestStep_operator found] at read
    obtain ⟨token, -, same⟩ := operator?_eq_some found
    -- What the right operand pays for a statement around it pays for the node of the operator.
    have operands : t.Extends e (enter below fun g => do
        let right ← g.tier tier
        g.tierRest tier (.binary op e right)) := by
      refine funds_enter pays fun g inside => ?_
      refine (Pays.frame (inside.tier tier) _).bind fun right s whole rest read => ?_
      have paid : t.node + whole.cost t + _ ≤ _ :=
        inside.tierRest tier (.binary op e right) s whole rest read
      rw [Expr.cost] at paid
      omega
    have paid := operands more whole rest read
    rw [same, total_append] at visible
    omega

private theorem funds_tierStep (pays : ∀ g, below = some g → g.get.Pays t) (tier : Nat) :
    t.Funds 0 (tierStep below tier) := by
  induction tier with
  | zero => exact funds_unaryStep pays
  | succ tier ih => exact ih.bind (extends_tierRestStep pays tier)

end Operators

/-! ## Statements -/

section Statements

variable {t : Tariff} {g : Grammar}

private theorem pays_endOfStatement {credit : Nat} :
    endOfStatement.Pays t.worth credit fun _ => credit := by
  have semicolon : (char ';').Pays t.worth credit fun _ => credit :=
    (pays_char ';').cheaper fun _ => Nat.le_add_right _ _
  refine pays_spaces.bind fun _ => semicolon.optional.bind fun found => pays_pure ?_
  cases found <;> exact Nat.le_refl _

private theorem pays_emptyStatement : emptyStatement.Pays t.worth 0 (Stmt.cost t) := by
  refine (pays_char ';').bind fun _ => pays_pure ?_
  have semicolon := t.node_le ';'
  rw [Stmt.cost, Stmt.costBody]
  omega

private theorem pays_declaration (pays : g.Pays t) :
    (declaration g).Pays t.worth 0 (Stmt.cost t) := by
  have kind (word : String) (constant : Bool) :
      (do keyword word; return constant : Parser Bool).Pays t.worth 0 fun _ => 0 :=
    (pays_keyword word).bind fun _ => pays_pure (Nat.zero_le _)
  refine ((kind _ _).orElse ((kind _ _).orElse (kind _ _))).bind fun constant => ?_
  refine pays_name.spaced.bind fun found => (pays_char '=').bind fun _ => ?_
  refine (Pays.frame pays.expression _).bind fun value => ?_
  refine pays_endOfStatement.bind fun _ => pays_pure ?_
  rw [Stmt.cost]
  omega

private theorem pays_block (pays : g.Pays t) {credit : Nat} :
    (block g).Pays t.worth credit fun body => credit + 2 * t.node + Stmt.costBody t body := by
  refine (pays_char '\x7b').bind fun _ => pays.statement.many.bind fun body => ?_
  refine pays_spaces.bind fun _ => (pays_char '\x7d').bind fun _ => pays_pure ?_
  have opening := t.node_le '\x7b'
  rw [Stmt.costBody_eq]
  omega

private theorem pays_branchBody (pays : g.Pays t) {credit : Nat} :
    (branchBody g).Pays t.worth credit fun body => credit + Stmt.costBody t body := by
  intro s body rest read
  rw [branchBody.eq_def] at read
  split at read
  · have whole : (block g).Pays t.worth credit _ := pays_block pays
    have paid := whole _ body rest read
    dsimp only at paid ⊢
    omega
  · have single : (([·]) <$> g.statement).Pays t.worth credit
        fun body => credit + Stmt.costBody t body :=
      (Pays.frame pays.statement credit).map fun stmt => Nat.le_refl _
    exact single _ body rest read

private theorem pays_elseBranch (pays : g.Pays t) {credit : Nat} :
    (elseBranch g).Pays t.worth credit fun body => credit + Stmt.costBody t body := by
  intro s body rest read
  rw [elseBranch] at read
  split at read
  · rename_i after word
    have other : (branchBody g).Pays t.worth credit _ := pays_branchBody pays
    have word_ : (keyword "else").Pays t.worth 0 _ := pays_keyword "else"
    have paid := other _ body rest read
    have before := word_ _ _ _ word
    have visible := total_skipSpace_le t.worth s
    have between := total_skipSpace_le t.worth after
    omega
  · cases read
    exact Nat.le_refl _

private theorem pays_branching (pays : g.Pays t) :
    (branching g).Pays t.worth 0 (Stmt.cost t) := by
  refine (pays_keyword "if").bind fun _ => (pays_char '(').spaced.bind fun _ => ?_
  refine (Pays.frame pays.expression _).bind fun condition => ?_
  refine (pays_char ')').spaced.bind fun _ => ?_
  refine (pays_branchBody pays).bind fun yes => (pays_elseBranch pays).bind fun no => pays_pure ?_
  rw [Stmt.cost]
  omega

private theorem pays_returning (pays : g.Pays t) :
    (returning g).Pays t.worth 0 (Stmt.cost t) := by
  refine (pays_keyword "return").bind fun _ => ?_
  refine (Pays.frame pays.expression _).optional.bind fun value => ?_
  refine pays_endOfStatement.bind fun _ => pays_pure ?_
  have word : 2 * t.node ≤ total t.worth "return".toList :=
    t.worth_le_total (c := 'r') (by decide)
  cases value with
  | none =>
    rw [Stmt.cost, Option.elim_none]
    omega
  | some e =>
    rw [Stmt.cost, Option.elim_some]
    omega

private theorem pays_placeRest (pays : g.Pays t) {credit : Nat} (turns : List Char)
    (taken : List PathStep) :
    (placeRest g turns taken).Pays t.worth (credit + (taken.map (PathStep.cost t)).sum)
      fun path => credit + (path.map (PathStep.cost t)).sum := by
  -- A step is paid by the dot and a letter of the field, or by the two brackets.
  have field : anyName.Pays t.worth (t.worth '.') fun _ => t.step := by
    refine takes_anyName.pays ?_
    rintro _ front ⟨-, nonempty, -⟩
    obtain ⟨c, more, rfl⟩ := List.exists_cons_of_ne_nil nonempty
    have characters := t.step_le '.' c
    rw [total_cons]
    omega
  have index : (do let key ← spaced g.expression; char ']'; return key : Parser Expr).Pays
      t.worth (t.worth '[') fun key => key.cost t + t.step := by
    refine ((pays_inside pays.expression).frame _).spaced.bind fun key => ?_
    refine (pays_char ']').bind fun _ => pays_pure ?_
    have brackets := t.step_le '[' ']'
    omega
  induction turns generalizing taken with
  | nil => exact pays_taken taken
  | cons _ turns ih =>
    intro s path rest read
    have visible := total_skipSpace_le t.worth s
    rw [placeRest] at read
    split at read
    · rename_i more ahead
      split at read
      · rename_i found after name
        have first := field.spaced _ _ _ name
        have others := ih _ after path rest read
        rw [List.map_cons, List.sum_cons, PathStep.cost] at others
        rw [ahead, total_cons] at visible
        omega
      · cases read
    · rename_i more ahead
      split at read
      · rename_i key after parsed
        have first := index _ _ _ parsed
        dsimp only at first
        have others := ih _ after path rest read
        rw [List.map_cons, List.sum_cons, PathStep.cost] at others
        rw [ahead, total_cons] at visible
        omega
      · cases read
    · exact pays_taken taken s path rest read

private theorem pays_place (pays : g.Pays t) :
    (place g).Pays t.worth 0 fun target => 2 * t.node + target.cost t := by
  have path : Parser.Pays (fun s => placeRest g s [] s) t.worth (0 + 2 * t.node)
      fun path => 0 + 2 * t.node + (path.map (PathStep.cost t)).sum :=
    fun s => pays_placeRest pays s [] s
  refine pays_name.bind fun root => path.bind fun steps => pays_pure ?_
  exact Nat.le_of_eq (congrArg (· + _) (Nat.zero_add _).symm)

private theorem pays_assignOp {credit : Nat} : assignOp.Pays t.worth credit fun _ => credit := by
  intro s op rest read
  rw [assignOp.eq_def] at read
  split at read
  all_goals cases read
  all_goals simp only [total_cons]
  all_goals omega

private theorem pays_assignedValue (pays : g.Pays t) {credit : Nat} :
    (assignedValue g).Pays t.worth credit fun assigned => credit + assigned.2.cost t := by
  have given : (do
      let op ← assignOp
      let value ← g.expression
      return (op, value) : Parser (AssignOp × Expr)).Pays t.worth credit
        fun assigned => credit + assigned.2.cost t :=
    pays_assignOp.bind fun op =>
      ((pays_inside pays.expression).frame credit).bind fun value => pays_pure (Nat.le_refl _)
  -- A step by one is a node, which its two characters pay for.
  have paid (c : Char) (after : List Char) :
      credit + t.node + total t.worth after ≤ credit + total t.worth (c :: c :: after) := by
    have character := t.node_le c
    rw [total_cons, total_cons]
    omega
  intro s assigned rest read
  rw [assignedValue.eq_def] at read
  split at read
  · cases read
    exact paid '+' rest
  · cases read
    exact paid '-' rest
  · exact given _ assigned rest read

private theorem pays_assignment (pays : g.Pays t) :
    (assignment g).Pays t.worth 0 (Stmt.cost t) := by
  refine (pays_place pays).bind fun target => pays_spaces.bind fun _ => ?_
  refine (pays_assignedValue pays).bind fun assigned => ?_
  refine pays_endOfStatement.bind fun _ => pays_pure ?_
  rw [Stmt.cost]
  omega

private theorem pays_expressionStatement (pays : g.Pays t) :
    (expressionStatement g).Pays t.worth 0 (Stmt.cost t) := by
  refine Pays.bind pays.expression fun e => ?_
  exact pays_endOfStatement.bind fun _ => pays_pure (Nat.le_refl _)

private theorem pays_statementStep {below : Option (Thunk Grammar)}
    (pays : ∀ g, below = some g → g.get.Pays t) :
    (statementStep below).Pays t.worth 0 (Stmt.cost t) := by
  refine pays_spaces.bind fun _ => pays_enter fun g given => ?_
  have inside := pays g given
  have blocks : (Stmt.block <$> block g.get).Pays t.worth 0 (Stmt.cost t) := by
    refine (pays_block inside).map fun body => ?_
    rw [Stmt.cost]
    omega
  exact pays_emptyStatement.orElse <| (pays_declaration inside).orElse <|
    (pays_branching inside).orElse <| (pays_returning inside).orElse <| blocks.orElse <|
    (pays_assignment inside).orElse (pays_expressionStatement inside)

end Statements

/-! ## Programs -/

theorem pays_step {t : Tariff} {below : Option (Thunk Grammar)}
    (pays : ∀ g, below = some g → g.get.Pays t) : (step below).Pays t where
  expression := funds_expressionStep pays
  unary := funds_unaryStep pays
  tier := funds_tierStep pays
  tierRest := extends_tierRestStep pays
  postfixRest := extends_postfixRestStep pays
  statement := pays_statementStep pays

theorem pays_ofLevels (t : Tariff) (levels : Nat) : (ofLevels levels).Pays t := by
  induction levels with
  | zero => exact pays_step fun g same => nomatch same
  | succ levels ih =>
    refine pays_step fun g same => ?_
    cases same
    exact ih

end Grammar

/-- The space that a block comment leaves is owed while the comment lasts. -/
private def CommentState.owed (t : Tariff) : CommentState → Nat
  | code => 0
  | quoted _ => 0
  | escaped _ => 0
  | line => 0
  | block _ => t.worth ' '

private theorem total_removeCommentsFrom_le (t : Tariff) (state : CommentState)
    (kept s : List Char) : total t.worth (removeCommentsFrom state kept s) ≤
      state.owed t + total t.worth kept + total t.worth s := by
  -- A character goes to what is kept, or its worth may cover what the next state owes.
  have keep {out owed : Nat} {c : Char} {kept rest : List Char}
      (later : out ≤ 0 + total t.worth (c :: kept) + total t.worth rest) :
      out ≤ owed + total t.worth kept + total t.worth (c :: rest) := by
    rw [total_cons] at later ⊢
    omega
  have drop {out next owed : Nat} {c : Char} {kept rest : List Char}
      (later : out ≤ next + total t.worth kept + total t.worth rest)
      (covered : next ≤ owed + t.worth c) :
      out ≤ owed + total t.worth kept + total t.worth (c :: rest) := by
    rw [total_cons]
    omega
  have slash := t.space_le '/'
  fun_induction removeCommentsFrom state kept s with
  | case1 kept star =>
    rw [CommentState.owed, total_reverse, total_cons]
    exact Nat.le_refl _
  | case2 state kept =>
    rw [total_reverse]
    exact Nat.le_add_right_of_le (Nat.le_add_left _ _)
  | case3 kept c rest quote next ih =>
    have free : next.owed t = 0 := by
      dsimp only [next]
      split
      · rfl
      · split <;> rfl
    rw [free] at ih
    exact keep ih
  | case4 kept c rest quote ih => exact keep ih
  | case5 kept rest ih => exact keep ih
  | case6 kept c rest other ih => exact drop ih (Nat.zero_le _)
  | case7 kept c rest star ends ih =>
    simp only [CommentState.owed, total_cons] at ih ⊢
    omega
  | case8 kept c rest star inside ih => exact drop ih (Nat.le_add_right _ _)
  | case9 kept c rest quote ih => exact keep ih
  | case10 kept quote rest ih => exact drop (drop ih (Nat.zero_le _)) (Nat.zero_le _)
  | case11 kept quote rest ih =>
    exact drop (drop ih (Nat.le_add_right _ _)) (Nat.add_comm _ _ ▸ slash)
  | case12 kept rest quote line block ih => exact keep ih
  | case13 kept c rest quote slash ih => exact keep ih

/-- The removal of comments adds no worth to a text. -/
theorem total_removeComments_le (t : Tariff) (s : List Char) :
    total t.worth (removeComments s) ≤ total t.worth s := by
  have bound := total_removeCommentsFrom_le t .code [] s
  rwa [CommentState.owed, total_nil, Nat.zero_add] at bound

/-- A program costs no more than its text is worth. -/
theorem costBody_le_total (t : Tariff) {limit : Nat} {source : String} {program : Program}
    (parsed : parseProgram limit source = .ok program) :
    Stmt.costBody t program ≤ total t.worth source.toList := by
  have bound := total_removeComments_le t source.toList
  simp only [parseProgram] at parsed
  split at parsed
  · cases parsed
  · rename_i body rest read
    split at parsed
    · cases parsed
      have statements : (many _).Pays t.worth 0 _ := (Grammar.pays_ofLevels t limit).statement.many
      have paid := statements _ _ _ read
      rw [Stmt.costBody_eq]
      dsimp only at paid
      omega
    · cases parsed

end Relay.Script
