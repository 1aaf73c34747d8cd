import Relay.Proofs.Script.Height

/-! # Height within a number of levels

What the parsers of a grammar answer with is as high as the levels of the grammar allow. The parsers
of one more level keep this if those below do; the loops over operators and postfix steps take one
level for each turn, so that the height grows by at most the number of levels.
-/

namespace Relay.Script

open Relay.Script.Parser

/-- The parsers of the grammar answer with trees of at most the height that so many levels allow. -/
structure Grammar.Within (levels : Nat) (g : Grammar) : Prop where
  expression : g.expression.Answers fun e => 0 < levels ∧ e.height ≤ expressionBound levels
  unary : g.unary.Answers fun e => e.height ≤ operandBound levels
  tier : ∀ tier, (g.tier tier).Answers fun e => e.height ≤ tierBound levels tier
  tierRest : ∀ tier left height, left.height ≤ height → tierBound levels tier ≤ height →
    (g.tierRest tier left).Answers fun e => e.height ≤ height + levels
  postfixRest : ∀ e height, e.height ≤ height → expressionBound levels ≤ height →
    (g.postfixRest e).Answers fun e => e.height ≤ height + levels
  statement : g.statement.Answers fun stmt => 0 < levels ∧ stmt.height ≤ treeBound levels

namespace Grammar

/-- Whatever is below has one level less. -/
def Below (levels : Nat) (below : Option (Thunk Grammar)) : Prop :=
  ∀ g, below = some g → ∃ fewer, levels = fewer + 1 ∧ g.get.Within fewer

theorem answers_enter {α : Type} {P : α → Prop} {below : Option (Thunk Grammar)}
    {p : Grammar → Parser α} (inside : ∀ g, below = some g → (p g.get).Answers P) :
    (enter below p).Answers P := by
  cases below with
  | none => exact answers_tooDeep
  | some g => exact inside g rfl

/-! ### Operands -/

section Atoms

variable {bound : Nat} {expression : Parser Expr}

private theorem answers_arguments (inside : expression.Answers fun e => e.height ≤ bound) :
    (arguments expression).Answers fun args => Expr.heightItems args ≤ bound := by
  refine .after fun _ => .after fun _ => ?_
  refine inside.commaList.bind fun args held => ?_
  refine .after fun _ => .after fun _ => answers_pure ?_
  exact Expr.heightItems_le.2 held

private theorem answers_listLiteral (inside : expression.Answers fun e => e.height ≤ bound) :
    (listLiteral expression).Answers fun e => e.height ≤ 1 + bound := by
  refine .after fun _ => .after fun _ => ?_
  refine inside.commaList.bind fun items held => ?_
  refine .after fun _ => .after fun _ => answers_pure ?_
  exact Nat.add_le_add_left (Expr.heightItems_le.2 held) 1

private theorem answers_mapEntry (inside : expression.Answers fun e => e.height ≤ bound) :
    (mapEntry expression).Answers fun entry => entry.2.height ≤ bound := by
  refine .after fun key => .after fun _ => .after fun _ => ?_
  refine inside.bind fun value held => ?_
  exact answers_pure held

private theorem answers_mapLiteral (inside : expression.Answers fun e => e.height ≤ bound) :
    (mapLiteral expression).Answers fun e => e.height ≤ 1 + bound := by
  refine .after fun _ => .after fun _ => ?_
  refine (answers_mapEntry inside).commaList.bind fun entries held => ?_
  refine .after fun _ => .after fun _ => answers_pure ?_
  exact Nat.add_le_add_left (Expr.heightEntries_le.2 held) 1

private theorem answers_parenthesized (inside : expression.Answers fun e => e.height ≤ bound) :
    (parenthesized expression).Answers fun e => e.height ≤ bound := by
  refine .after fun _ => ?_
  refine inside.spaced.bind fun e held => ?_
  exact .after fun _ => answers_pure held

private theorem answers_callOrName (inside : expression.Answers fun e => e.height ≤ bound) :
    (callOrName expression).Answers fun e => e.height ≤ 1 + bound := by
  refine .after fun found => .after fun next => ?_
  split
  · refine .after fun _ => ?_
    refine (answers_arguments inside).bind fun args held => ?_
    exact answers_pure (Nat.add_le_add_left held 1)
  · exact answers_pure (Nat.zero_le _)

private theorem answers_hole (inside : expression.Answers fun e => e.height ≤ bound) :
    (do let e ← spaced expression; char '\x7d'; return e : Parser Expr).Answers
      fun e => e.height ≤ bound := by
  refine inside.spaced.bind fun e held => ?_
  exact .after fun _ => answers_pure held

private theorem answers_templateRest (inside : expression.Answers fun e => e.height ≤ bound)
    (turns : List Char) {holes : List (String × Expr)} {text : List Char}
    (before : ∀ hole ∈ holes, hole.2.height ≤ bound) :
    (templateRest expression turns holes text).Answers fun e => e.height ≤ 1 + bound := by
  induction turns generalizing holes text with
  | nil => exact fun _ _ _ read => nomatch read
  | cons _ turns ih =>
    intro s e rest read
    rw [templateRest.eq_def] at read
    dsimp only at read
    split at read
    · cases read
    · cases read
      exact Nat.add_le_add_left
        (Expr.heightEntries_le.2 fun hole member => before hole (List.mem_reverse.1 member)) 1
    · split at read
      · rename_i hole after parsed
        have held := answers_hole inside _ hole after parsed
        exact ih (List.forall_mem_cons.2 ⟨held, before⟩) _ e rest read
      · cases read
    · exact ih before _ e rest read
    · cases read
    · exact ih before _ e rest read

private theorem answers_template (inside : expression.Answers fun e => e.height ≤ bound) :
    (template expression).Answers fun e => e.height ≤ 1 + bound := by
  refine .after fun _ s => ?_
  exact answers_templateRest inside _ (List.forall_mem_nil _) s

private theorem answers_oneOf {words : List (String × Expr)}
    (flat : ∀ word ∈ words, word.2.height = 0) : (oneOf words).Answers fun e => e.height = 0 := by
  induction words with
  | nil => exact answers_mismatch
  | cons word rest ih =>
    obtain ⟨here, later⟩ := List.forall_mem_cons.1 flat
    have first : (keyword word.1 >>= fun _ => pure word.2).Answers fun e => e.height = 0 :=
      .after fun _ => answers_pure here
    exact first.orElse (ih later)

private theorem answers_number : number.Answers fun e => e.height = 0 := by
  intro s e rest read
  have integer {n bound : Nat} {after : List Char}
      (ended : (if n < bound then .ok (.int (Int64.ofNat n), after) else .error .mismatch :
        Except Refusal (Expr × List Char)) = .ok (e, rest)) : e.height = 0 := by
    split at ended
    · cases ended
      rfl
    · cases ended
  simp only [number] at read
  split at read
  · cases read
  · split at read
    · split at read
      · exact integer read
      · cases read
        rfl
    · exact integer read

theorem answers_atom (inside : expression.Answers fun e => e.height ≤ bound) :
    (atom expression).Answers fun e => e.height ≤ 1 + bound := by
  have flat {e : Expr} (leaf : e.height = 0) : e.height ≤ 1 + bound := leaf ▸ Nat.zero_le _
  have words : wordLiteral.Answers fun e => e.height = 0 := answers_oneOf (by decide)
  have strings : (Expr.string <$> quotedString).Answers fun e => e.height = 0 :=
    (answers_any _).map fun _ _ => rfl
  have inner : (parenthesized expression).Answers fun e => e.height ≤ 1 + bound :=
    (answers_parenthesized inside).imp fun _ held => Nat.le_trans held (Nat.le_add_left _ _)
  refine .after fun _ => ?_
  exact (words.imp fun _ => flat).orElse <| (answers_number.imp fun _ => flat).orElse <|
    (strings.imp fun _ => flat).orElse <| (answers_template inside).orElse <|
    (answers_listLiteral inside).orElse <| (answers_mapLiteral inside).orElse <|
    inner.orElse (answers_callOrName inside)

end Atoms

/-! ### Operators -/

section Operators

variable {levels : Nat} {g : Grammar}

private theorem height_methodCall (receiver : Expr) (method : String) (args : List Expr) :
    (methodCall receiver method args).height ≤
      1 + max receiver.height (Expr.heightItems args) := by
  have plain (name : String) : (Expr.call name args).height ≤
      1 + max receiver.height (Expr.heightItems args) :=
    Nat.add_le_add_left (Nat.le_max_right _ _) 1
  rw [methodCall.eq_def]
  split
  · split
    · exact plain method
    · split
      · exact plain method
      · split
        · exact plain _
        · exact Nat.le_refl _
  · exact Nat.le_refl _

private theorem answers_member (within : g.Within levels) {e : Expr} {height : Nat}
    (base : e.height ≤ height) (inside : expressionBound levels ≤ height) :
    (member g e).Answers fun e => e.height ≤ height + 1 := by
  refine .after fun found s out rest read => ?_
  have called : (methodCall e found <$> arguments g.expression).Answers
      fun e => e.height ≤ height + 1 := by
    refine (answers_arguments (within.expression.imp fun _ held => held.2)).map fun args held => ?_
    have made := height_methodCall e found args
    omega
  split at read
  · exact called _ out rest read
  · cases read
    rw [Expr.height]
    omega

private theorem answers_subscript (within : g.Within levels) {e : Expr} {height : Nat}
    (base : e.height ≤ height) (inside : expressionBound levels ≤ height) :
    (subscript g e).Answers fun e => e.height ≤ height + 1 := by
  refine within.expression.spaced.bind fun key held => ?_
  refine .after fun _ => answers_pure ?_
  rw [Expr.height]
  omega

private theorem answers_conditionalRest (within : g.Within levels) {condition : Expr}
    {height : Nat} (base : condition.height ≤ height) (inside : expressionBound levels ≤ height) :
    (conditionalRest g condition).Answers fun e =>
      e.height ≤ height ∨ 0 < levels ∧ e.height ≤ 1 + height := by
  have alternatives : (do
      let yes ← spaced g.expression
      char ':'
      let no ← g.expression
      return .conditional condition yes no : Parser Expr).Answers fun e =>
        0 < levels ∧ e.height ≤ 1 + height := by
    refine within.expression.spaced.bind fun yes first => ?_
    refine .after fun _ => ?_
    refine within.expression.bind fun no second => ?_
    refine answers_pure ⟨first.1, ?_⟩
    rw [Expr.height]
    omega
  intro s e rest read
  rw [conditionalRest] at read
  split at read
  · exact .inr (alternatives _ e rest read)
  · cases read
    exact .inl base

end Operators

section Step

variable {levels : Nat} {below : Option (Thunk Grammar)}

theorem answers_expressionStep (smaller : Below levels below) :
    (expressionStep below).Answers fun e => 0 < levels ∧ e.height ≤ expressionBound levels := by
  refine answers_enter fun g given => ?_
  obtain ⟨fewer, rfl, within⟩ := smaller g given
  have bound := expressionBound_succ fewer
  have inside : expressionBound fewer ≤ tierBound fewer tierCount := by
    rw [tierBound, operandBound]
    omega
  refine (within.tier tierCount).bind fun e held => ?_
  refine (answers_conditionalRest within held inside).imp fun e' height => ?_
  refine ⟨Nat.succ_pos fewer, ?_⟩
  split at bound <;> omega

theorem answers_postfixRestStep (smaller : Below levels below) {e : Expr} {height : Nat}
    (base : e.height ≤ height) (inside : expressionBound levels ≤ height) :
    (postfixRestStep below e).Answers fun e => e.height ≤ height + levels := by
  intro s out rest read
  have next (p : Grammar → Parser Expr)
      (turn : ∀ g fewer, levels = fewer + 1 → g.Within fewer →
        (p g).Answers fun e => e.height ≤ height + 1) :
      (enter below fun g => p g >>= g.postfixRest).Answers fun e => e.height ≤ height + levels := by
    refine answers_enter fun g given => ?_
    obtain ⟨fewer, rfl, within⟩ := smaller g given
    have less := expressionBound_le_succ fewer
    refine (turn g.get fewer rfl within).bind fun e held => ?_
    refine (within.postfixRest e (height + 1) held (by omega)).imp fun e' above => ?_
    omega
  rw [postfixRestStep] at read
  split at read
  · refine next (fun g => member g e) (fun g fewer same within => ?_) _ out rest read
    exact answers_member within base (by have := expressionBound_le_succ fewer; subst same; omega)
  · refine next (fun g => subscript g e) (fun g fewer same within => ?_) _ out rest read
    exact answers_subscript within base
      (by have := expressionBound_le_succ fewer; subst same; omega)
  · cases read
    exact Nat.le_trans base (Nat.le_add_right _ _)

theorem answers_postfixed (smaller : Below levels below) :
    (postfixed below).Answers fun e => e.height ≤ operandBound levels := by
  have operand := answers_atom ((answers_expressionStep smaller).imp fun _ held => held.2)
  refine operand.bind fun e held => ?_
  exact answers_postfixRestStep smaller held (Nat.le_add_left _ _)

theorem answers_unaryStep (smaller : Below levels below) :
    (unaryStep below).Answers fun e => e.height ≤ operandBound levels := by
  intro s e rest read
  have operator (op : UnaryOp) :
      (enter below fun g => Expr.unary op <$> g.unary).Answers
        fun e => e.height ≤ operandBound levels := by
    refine answers_enter fun g given => ?_
    obtain ⟨fewer, rfl, within⟩ := smaller g given
    have less := operandBound_lt_succ fewer
    refine within.unary.map fun operand held => ?_
    rw [Expr.height]
    omega
  have plain := answers_postfixed smaller
  rw [unaryStep] at read
  split at read
  · exact plain _ e rest read
  · exact operator .not _ e rest read
  · exact plain _ e rest read
  · exact plain _ e rest read
  · exact operator .neg _ e rest read
  · exact plain _ e rest read

theorem answers_tierRestStep (smaller : Below levels below) {tier height : Nat} {left : Expr}
    (base : left.height ≤ height) (inside : tierBound levels tier ≤ height) :
    (tierRestStep below tier left).Answers fun e => e.height ≤ height + levels := by
  have operator (op : BinaryOp) : (enter below fun g => do
      let right ← g.tier tier
      g.tierRest tier (.binary op left right)).Answers fun e => e.height ≤ height + levels := by
    refine answers_enter fun g given => ?_
    obtain ⟨fewer, rfl, within⟩ := smaller g given
    have less := tierBound_le_succ fewer tier
    refine (within.tier tier).bind fun right held => ?_
    have joined : (Expr.binary op left right).height ≤ height + 1 := by
      rw [Expr.height]
      omega
    refine (within.tierRest tier _ (height + 1) joined (by omega)).imp fun e' above => ?_
    omega
  intro s e rest read
  rw [tierRestStep] at read
  split at read
  · cases read
    exact Nat.le_trans base (Nat.le_add_right _ _)
  · exact operator _ _ e rest read

theorem answers_tierStep (smaller : Below levels below) (tier : Nat) :
    (tierStep below tier).Answers fun e => e.height ≤ tierBound levels tier := by
  induction tier with
  | zero =>
    rw [tierStep, tierBound, Nat.zero_mul, Nat.add_zero]
    exact answers_unaryStep smaller
  | succ tier ih =>
    have more : tierBound levels (tier + 1) = tierBound levels tier + levels := by
      rw [tierBound, tierBound, Nat.succ_mul]
      omega
    rw [tierStep, more]
    refine ih.bind fun left held => ?_
    exact answers_tierRestStep smaller held (Nat.le_refl _)

end Step

/-! ### Statements -/

section Statements

variable {levels : Nat} {g : Grammar}

private theorem answers_value (within : g.Within levels) :
    g.expression.Answers fun e => e.height ≤ expressionBound levels :=
  within.expression.imp fun _ held => held.2

private theorem answers_body (within : g.Within levels) :
    g.statement.Answers fun stmt => stmt.height ≤ expressionBound levels :=
  within.statement.imp fun _ held => Nat.le_trans held.2 (treeBound_le_expressionBound held.1)

private theorem answers_declaration (within : g.Within levels) :
    (declaration g).Answers fun stmt => stmt.height ≤ 1 + expressionBound levels := by
  refine .after fun kind => .after fun name => .after fun _ => ?_
  refine (answers_value within).bind fun value held => ?_
  refine .after fun _ => answers_pure ?_
  exact Nat.add_le_add_left held 1

private theorem answers_block (within : g.Within levels) :
    (block g).Answers fun body => Stmt.heightBody body ≤ expressionBound levels := by
  refine .after fun _ => ?_
  refine (answers_body within).many.bind fun body held => ?_
  refine .after fun _ => .after fun _ => answers_pure ?_
  exact Stmt.heightBody_le.2 held

private theorem answers_branchBody (within : g.Within levels) :
    (branchBody g).Answers fun body => Stmt.heightBody body ≤ expressionBound levels := by
  have single : (([·]) <$> g.statement).Answers fun body =>
      Stmt.heightBody body ≤ expressionBound levels := by
    refine (answers_body within).map fun stmt held => ?_
    exact Stmt.heightBody_le.2 (List.forall_mem_singleton.2 held)
  intro s body rest read
  rw [branchBody.eq_def] at read
  split at read
  · exact answers_block within _ body rest read
  · exact single _ body rest read

private theorem answers_elseBranch (within : g.Within levels) :
    (elseBranch g).Answers fun body => Stmt.heightBody body ≤ expressionBound levels := by
  intro s body rest read
  rw [elseBranch] at read
  split at read
  · exact answers_branchBody within _ body rest read
  · cases read
    exact Nat.zero_le _

private theorem answers_branching (within : g.Within levels) :
    (branching g).Answers fun stmt => stmt.height ≤ 1 + expressionBound levels := by
  refine .after fun _ => .after fun _ => ?_
  refine (answers_value within).bind fun condition first => ?_
  refine .after fun _ => ?_
  refine (answers_branchBody within).bind fun yes second => ?_
  refine (answers_elseBranch within).bind fun no third => ?_
  apply answers_pure
  rw [Stmt.height]
  omega

private theorem answers_returning (within : g.Within levels) :
    (returning g).Answers fun stmt => stmt.height ≤ 1 + expressionBound levels := by
  refine .after fun _ => ?_
  refine (answers_value within).optional.bind fun value held => ?_
  refine .after fun _ => answers_pure ?_
  cases value with
  | none => exact Nat.le_add_right 1 _
  | some e => exact Nat.add_le_add_left (held e rfl) 1

private theorem answers_placeRest (within : g.Within levels) (turns : List Char)
    {taken : List PathStep}
    (before : ∀ key, .index key ∈ taken → key.height ≤ expressionBound levels) :
    (placeRest g turns taken).Answers fun path =>
      ∀ key, .index key ∈ path → key.height ≤ expressionBound levels := by
  have index : (do let key ← spaced g.expression; char ']'; return key : Parser Expr).Answers
      fun key => key.height ≤ expressionBound levels := by
    refine (answers_value within).spaced.bind fun key held => ?_
    exact .after fun _ => answers_pure held
  induction turns generalizing taken with
  | nil =>
    intro s path rest read
    cases read
    exact fun key member => before key (List.mem_reverse.1 member)
  | cons _ turns ih =>
    intro s path rest read
    rw [placeRest] at read
    split at read
    · split at read
      · rename_i found after _
        refine ih (fun key member => ?_) _ path rest read
        rcases List.mem_cons.1 member with same | earlier
        · cases same
        · exact before key earlier
      · cases read
    · split at read
      · rename_i found after parsed
        refine ih (fun key member => ?_) _ path rest read
        rcases List.mem_cons.1 member with same | earlier
        · cases same
          exact index _ _ _ parsed
        · exact before key earlier
      · cases read
    · cases read
      exact fun key member => before key (List.mem_reverse.1 member)

private theorem answers_place (within : g.Within levels) :
    (place g).Answers fun target => target.height ≤ expressionBound levels := by
  have path : Answers (fun s => placeRest g s [] s) fun path =>
      ∀ key, .index key ∈ path → key.height ≤ expressionBound levels :=
    fun s => answers_placeRest within s (fun _ member => absurd member List.not_mem_nil) s
  refine .after fun root => ?_
  refine path.bind fun steps held => ?_
  exact answers_pure (Place.height_le held)

private theorem answers_assignedValue (within : g.Within levels) :
    (assignedValue g).Answers fun assigned => assigned.2.height ≤ expressionBound levels := by
  have given : (do
      let op ← assignOp
      let value ← g.expression
      return (op, value) : Parser (AssignOp × Expr)).Answers
        fun assigned => assigned.2.height ≤ expressionBound levels := by
    refine .after fun op => ?_
    refine (answers_value within).bind fun value held => ?_
    exact answers_pure held
  intro s assigned rest read
  rw [assignedValue.eq_def] at read
  split at read
  · cases read
    exact Nat.zero_le _
  · cases read
    exact Nat.zero_le _
  · exact given _ assigned rest read

private theorem answers_assignment (within : g.Within levels) :
    (assignment g).Answers fun stmt => stmt.height ≤ 1 + expressionBound levels := by
  refine (answers_place within).bind fun target first => ?_
  refine .after fun _ => ?_
  refine (answers_assignedValue within).bind fun assigned second => ?_
  refine .after fun _ => answers_pure ?_
  rw [Stmt.height]
  omega

private theorem answers_expressionStatement (within : g.Within levels) :
    (expressionStatement g).Answers fun stmt => stmt.height ≤ 1 + expressionBound levels := by
  refine (answers_value within).bind fun value held => ?_
  exact .after fun _ => answers_pure (Nat.add_le_add_left held 1)

theorem answers_statementStep {below : Option (Thunk Grammar)} (smaller : Below levels below) :
    (statementStep below).Answers fun stmt => 0 < levels ∧ stmt.height ≤ treeBound levels := by
  refine .after fun _ => answers_enter fun g given => ?_
  obtain ⟨fewer, rfl, within⟩ := smaller g given
  have empty : emptyStatement.Answers fun stmt => stmt.height ≤ 1 + expressionBound fewer :=
    .after fun _ => answers_pure (Nat.le_add_right 1 _)
  have blocks : (Stmt.block <$> block g.get).Answers
      fun stmt => stmt.height ≤ 1 + expressionBound fewer :=
    (answers_block within).map fun _ held => Nat.add_le_add_left held 1
  have any := empty.orElse <| (answers_declaration within).orElse <|
    (answers_branching within).orElse <| (answers_returning within).orElse <| blocks.orElse <|
    (answers_assignment within).orElse (answers_expressionStatement within)
  exact any.imp fun _ held => ⟨Nat.succ_pos fewer, held⟩

end Statements

/-! ### Grammars -/

theorem within_step {levels : Nat} {below : Option (Thunk Grammar)}
    (smaller : Below levels below) : (step below).Within levels where
  expression := answers_expressionStep smaller
  unary := answers_unaryStep smaller
  tier := answers_tierStep smaller
  tierRest _ _ _ base inside := answers_tierRestStep smaller base inside
  postfixRest _ _ base inside := answers_postfixRestStep smaller base inside
  statement := answers_statementStep smaller

/-- The grammar of so many levels answers with trees of at most the height that they allow. -/
theorem within_ofLevels (levels : Nat) : (ofLevels levels).Within levels := by
  induction levels with
  | zero => exact within_step fun _ given => nomatch given
  | succ levels ih =>
    refine within_step fun g given => ?_
    cases given
    exact ⟨levels, rfl, ih⟩

end Grammar

/-- A program that is parsed within a limit is at most as high as the limit allows. -/
theorem heightBody_le_treeBound {limit : Nat} {source : String} {program : Program}
    (parsed : parseProgram limit source = .ok program) :
    Stmt.heightBody program ≤ treeBound limit := by
  simp only [parseProgram] at parsed
  split at parsed
  · cases parsed
  · rename_i body rest read
    split at parsed
    · cases parsed
      have statements := (Grammar.within_ofLevels limit).statement.many _ _ _ read
      exact Stmt.heightBody_le.2 fun stmt member => (statements stmt member).2
    · cases parsed

end Relay.Script
