import Relay.Proofs.Script.Cutoff
import Relay.Proofs.Script.Deepest

/-! # The nesting limit only rejects

A grammar of fewer levels is the grammar of more levels cut off, parser by parser. So no
alternative, no optional part and no loop takes a refusal because of the nesting for a mismatch, and
a program that is read within some limit is read as the same one within every greater limit.
-/

namespace Relay.Script

open Relay.Script.Parser

/-- Each parser of expressions of the first grammar is that of the second one cut off. -/
structure Grammar.CutOff (tail : List Char) (few more : Grammar) : Prop where
  expression : Parser.CutOff tail few.expression more.expression
  unary : Parser.CutOff tail few.unary more.unary
  tier : ∀ tier, Parser.CutOff tail (few.tier tier) (more.tier tier)
  tierRest : ∀ tier left, Parser.CutOff tail (few.tierRest tier left) (more.tierRest tier left)
  postfixRest : ∀ e, Parser.CutOff tail (few.postfixRest e) (more.postfixRest e)

namespace Grammar

variable {tail : List Char}

/-- Whatever is below the first grammar is cut off what is below the second one. -/
def BelowCutOff (tail : List Char) (few more : Option (Thunk Grammar)) : Prop :=
  ∀ g, few = some g → ∃ g', more = some g' ∧ g.get.CutOff tail g'.get

theorem cutOff_enter {α : Type} {few more : Option (Thunk Grammar)}
    (below : BelowCutOff tail few more) {p q : Grammar → Parser α}
    (inside : ∀ g g', g.CutOff tail g' → Parser.CutOff tail (p g) (q g')) :
    Parser.CutOff tail (enter few p) (enter more q) := by
  cases few with
  | none => exact cutOff_tooDeep _
  | some g =>
    obtain ⟨g', rfl, cut⟩ := below g rfl
    exact inside g.get g'.get cut

/-! ### Operands -/

section Atoms

variable {few more : Parser Expr}

private theorem cutOff_enclosed {α β : Type} {p q : Parser α} (inert : Inert tail)
    (inside : Parser.CutOff tail p q) {opening closing : Char} (start : opening ≠ ';')
    (stop : closing ≠ ';') (f : List α → β) :
    let enclosed (p : Parser α) : Parser β := do
      char opening
      spaces
      let items ← commaList p
      spaces
      char closing
      return f items
    Parser.CutOff tail (enclosed p) (enclosed q) := by
  refine (cutOff_char (inert.foreign start)).bind fun _ => ?_
  refine (cutOff_spaces inert).bind fun _ => ?_
  refine (inside.commaList inert).bind fun items => ?_
  refine (cutOff_spaces inert).bind fun _ => ?_
  exact (cutOff_char (inert.foreign stop)).bind fun _ => cutOff_pure (f items)

private theorem cutOff_arguments (inert : Inert tail) (inside : Parser.CutOff tail few more) :
    Parser.CutOff tail (arguments few) (arguments more) :=
  cutOff_enclosed inert inside (by decide) (by decide) id

private theorem cutOff_listLiteral (inert : Inert tail) (inside : Parser.CutOff tail few more) :
    Parser.CutOff tail (listLiteral few) (listLiteral more) :=
  cutOff_enclosed inert inside (by decide) (by decide) Expr.list

theorem cutOff_mapEntry (inert : Inert tail) (inside : Parser.CutOff tail few more) :
    Parser.CutOff tail (mapEntry few) (mapEntry more) := by
  refine (cutOff_spaces inert).bind fun _ => ?_
  refine ((cutOff_quotedString inert).orElse (cutOff_anyName inert)).bind fun key => ?_
  refine ((cutOff_char (inert.foreign (by decide))).spaced inert).bind fun _ => ?_
  exact inside.bind fun value => cutOff_pure (key, value)

private theorem cutOff_mapLiteral (inert : Inert tail) (inside : Parser.CutOff tail few more) :
    Parser.CutOff tail (mapLiteral few) (mapLiteral more) :=
  cutOff_enclosed inert (cutOff_mapEntry inert inside) (by decide) (by decide) Expr.map

private theorem cutOff_parenthesized (inert : Inert tail) (inside : Parser.CutOff tail few more) :
    Parser.CutOff tail (parenthesized few) (parenthesized more) := by
  refine (cutOff_char (inert.foreign (by decide))).bind fun _ => ?_
  refine (inside.spaced inert).bind fun e => ?_
  exact (cutOff_char (inert.foreign (by decide))).bind fun _ => cutOff_pure e

private theorem cutOff_hole (inert : Inert tail) (inside : Parser.CutOff tail few more) :
    Parser.CutOff tail (hole few) (hole more) := by
  refine (inside.spaced inert).bind fun e => ?_
  exact (cutOff_char (inert.foreign (by decide))).bind fun _ => cutOff_pure e

private theorem cutOff_callOrName (inert : Inert tail) (inside : Parser.CutOff tail few more) :
    Parser.CutOff tail (callOrName few) (callOrName more) := by
  intro s
  have agrees := cutOff_name inert s
  generalize first : name s = read, second : name (s ++ tail) = other at agrees
  cases agrees with
  | tooDeep =>
    have deep : callOrName few s = .error .tooDeep := by rw [callOrName, bind_run, first]
    rw [deep]
    exact .tooDeep _
  | mismatch =>
    rw [callOrName, callOrName, bind_mismatch first, bind_mismatch second]
    exact .mismatch
  | read found left =>
    rename_i rest
    by_cases call : ∃ after, Text.skipSpace rest = '(' :: after
    · obtain ⟨after, ahead⟩ := call
      have behind : Text.skipSpace (rest ++ tail) = '(' :: (after ++ tail) := by
        rw [inert.skipSpace_append, ahead, List.cons_append]
      rw [callOrName_call first ahead, callOrName_call second behind]
      have shorter : '(' :: after <:+ s := ahead ▸ (Text.skipSpace_suffix rest).trans left
      exact ((cutOff_arguments inert inside).map (Expr.call found) _).within shorter
    · have ends (after : List Char) : Text.skipSpace rest ≠ '(' :: after :=
        fun ahead => call ⟨after, ahead⟩
      have behind (after : List Char) : Text.skipSpace (rest ++ tail) ≠ '(' :: after := by
        rw [inert.skipSpace_append]
        exact inert.append_ne_cons (by decide) ends after
      rw [callOrName_name first ends, callOrName_name second behind]
      exact .read (Expr.ident found) left

/-- A bound of more turns than there are characters does not end a template. -/
theorem templateRest_bound {expression : Parser Expr} (leaves : (hole expression).Leaves)
    {bound longer : List Char} {holes : List (String × Expr)} {text s : List Char}
    (enough : s.length < bound.length) (more : bound.length ≤ longer.length) :
    templateRest expression bound holes text s = templateRest expression longer holes text s := by
  induction bound generalizing longer holes text s with
  | nil => exact absurd enough (Nat.not_lt_zero _)
  | cons _ bound ih =>
    cases longer with
    | nil => exact absurd more (Nat.not_succ_le_zero _)
    | cons _ longer =>
      rw [List.length_cons] at enough
      rw [List.length_cons, List.length_cons] at more
      cases templateFront s with
      | nothing => rw [templateRest_nil, templateRest_nil]
      | close rest => rw [templateRest_close, templateRest_close]
      | hole rest =>
        rw [templateRest_hole, templateRest_hole]
        rw [List.length_cons, List.length_cons] at enough
        cases read : hole expression rest with
        | error e => rfl
        | ok out =>
          have left := (leaves rest out.1 out.2 read).length_le
          exact ih (by omega) (by omega)
      | escape c rest =>
        rw [templateRest_escape, templateRest_escape]
        rw [List.length_cons, List.length_cons] at enough
        exact ih (by omega) (by omega)
      | backslash => rw [templateRest_backslash, templateRest_backslash]
      | plain c rest quote escape outside =>
        rw [templateRest_plain quote escape outside, templateRest_plain quote escape outside]
        rw [List.length_cons] at enough
        exact ih (by omega) (by omega)

private theorem cutOff_templateRest (inert : Inert tail) (inside : Parser.CutOff tail few more)
    (bound : List Char) (holes : List (String × Expr)) (text : List Char) :
    Parser.CutOff tail (templateRest few bound holes text)
      (templateRest more bound holes text) := by
  have unclosed (bound : List Char) (holes : List (String × Expr)) (text : List Char) :
      templateRest more bound holes text tail = .error .mismatch := by
    cases inert with
    | nothing => exact templateRest_nil
    | semicolon =>
      cases bound with
      | nil => rfl
      | cons _ bound =>
        have plain : ';' ≠ '$' := by decide
        rw [templateRest_plain (by decide) (by decide) fun same => absurd same plain,
          templateRest_nil]
  induction bound generalizing holes text with
  | nil => exact fun _ => .mismatch
  | cons _ bound ih =>
    intro s
    cases templateFront s with
    | nothing =>
      rw [templateRest_nil, List.nil_append, unclosed]
      exact .mismatch
    | close rest => exact .read _ (List.suffix_cons _ rest)
    | hole rest =>
      have next (e : Expr) := ih ((String.ofList text.reverse, e) :: holes) []
      have opened : rest <:+ '$' :: '\x7b' :: rest :=
        (List.suffix_cons _ rest).trans (List.suffix_cons _ _)
      rw [List.cons_append, List.cons_append, templateRest_hole, templateRest_hole]
      have agrees := cutOff_hole inert inside rest
      generalize Grammar.hole few rest = read, Grammar.hole more (rest ++ tail) = other at agrees ⊢
      cases agrees with
      | tooDeep => exact .tooDeep _
      | mismatch => exact .mismatch
      | read e left => exact (next e _).within (left.trans opened)
    | escape c rest =>
      rw [List.cons_append, List.cons_append, templateRest_escape, templateRest_escape]
      exact (ih holes _ rest).within ((List.suffix_cons c rest).trans (List.suffix_cons _ _))
    | backslash =>
      rw [templateRest_backslash]
      cases inert with
      | nothing =>
        rw [List.append_nil, templateRest_backslash]
        exact .mismatch
      | semicolon =>
        rw [List.singleton_append, templateRest_escape, templateRest_nil]
        exact .mismatch
    | plain c rest quote escape outside =>
      have behind (dollar : c = '$') : ∀ more, rest ++ tail ≠ '\x7b' :: more :=
        inert.append_ne_cons (by decide) (outside dollar)
      rw [List.cons_append, templateRest_plain quote escape outside,
        templateRest_plain quote escape behind]
      exact (ih holes _ rest).within (List.suffix_cons c rest)

private theorem cutOff_template (inert : Inert tail) (inside : Parser.CutOff tail few more) :
    Parser.CutOff tail (template few) (template more) := by
  refine (cutOff_char (inert.foreign (by decide))).bind fun _ s => ?_
  -- The bound is the text, so it is longer with something behind.
  have longer : ('\x60' :: s).length ≤ ('\x60' :: (s ++ tail)).length := by
    rw [List.length_cons, List.length_cons, List.length_append]
    omega
  have same : templateRest few ('\x60' :: s) [] [] s =
      templateRest few ('\x60' :: (s ++ tail)) [] [] s :=
    templateRest_bound (cutOff_hole inert inside).leaves (Nat.lt_succ_self s.length) longer
  have cut := cutOff_templateRest inert inside ('\x60' :: (s ++ tail)) [] [] s
  rwa [← same] at cut

theorem cutOff_atom (inert : Inert tail) (inside : Parser.CutOff tail few more) :
    Parser.CutOff tail (atom few) (atom more) := by
  refine (cutOff_spaces inert).bind fun _ => ?_
  exact (cutOff_oneOf inert (by decide)).orElse <| (cutOff_number inert).orElse <|
    ((cutOff_quotedString inert).map Expr.string).orElse <|
    (cutOff_template inert inside).orElse <| (cutOff_listLiteral inert inside).orElse <|
    (cutOff_mapLiteral inert inside).orElse <| (cutOff_parenthesized inert inside).orElse
    (cutOff_callOrName inert inside)

end Atoms

/-! ### Operators -/

section Operators

variable {few more : Grammar} {low high : Option (Thunk Grammar)}

private theorem cutOff_member (inert : Inert tail) (cut : few.CutOff tail more) (e : Expr) :
    Parser.CutOff tail (member few e) (member more e) := by
  intro s
  have agrees := (cutOff_anyName inert).spaced inert s
  generalize first : spaced anyName s = read, second : spaced anyName (s ++ tail) = other at agrees
  cases agrees with
  | tooDeep =>
    have deep : member few e s = .error .tooDeep := by
      rw [member]
      exact (bind_run _ _ _).trans (by rw [first])
    rw [deep]
    exact .tooDeep _
  | mismatch =>
    rw [member, member]
    refine (bind_mismatch first).symm ▸ (bind_mismatch second).symm ▸ ?_
    exact .mismatch
  | read found left =>
    rename_i rest
    by_cases call : ∃ after, rest = '(' :: after
    · obtain ⟨after, rfl⟩ := call
      rw [member_call first, member_call second]
      exact ((cutOff_arguments inert cut.expression).map (methodCall e found) _).within left
    · have ends (after : List Char) : rest ≠ '(' :: after := fun ahead => call ⟨after, ahead⟩
      rw [member_field first ends,
        member_field second (inert.append_ne_cons (by decide) ends)]
      exact .read (e.field found) left

private theorem cutOff_subscript (inert : Inert tail) (cut : few.CutOff tail more) (e : Expr) :
    Parser.CutOff tail (subscript few e) (subscript more e) := by
  refine (cut.expression.spaced inert).bind fun key => ?_
  exact (cutOff_char (inert.foreign (by decide))).bind fun _ => cutOff_pure (Expr.index e key)

/-- A parser that looks at what stands behind the spaces agrees where it finds a given character if
what it goes on with agrees. -/
private theorem agrees_ahead {α : Type} {p q : Parser α} {s rest : List Char} {c : Char}
    (ahead : Text.skipSpace s = c :: rest) (cut : Parser.CutOff tail p q) :
    Agrees tail s (p rest) (q (rest ++ tail)) := by
  have shorter : rest <:+ s :=
    (List.suffix_cons c rest).trans (ahead ▸ Text.skipSpace_suffix s)
  exact (cut rest).within shorter

private theorem cutOff_postfixRestStep (inert : Inert tail) (below : BelowCutOff tail low high)
    (e : Expr) : Parser.CutOff tail (postfixRestStep low e) (postfixRestStep high e) := by
  intro s
  have visible := inert.skipSpace_append s
  by_cases field : ∃ rest, Text.skipSpace s = '.' :: rest
  · obtain ⟨rest, ahead⟩ := field
    rw [postfixRestStep_field ahead,
      postfixRestStep_field (visible.trans (congrArg (· ++ tail) ahead))]
    refine agrees_ahead ahead (cutOff_enter below fun g g' cut => ?_)
    exact (cutOff_member inert cut e).bind cut.postfixRest
  by_cases index : ∃ rest, Text.skipSpace s = '[' :: rest
  · obtain ⟨rest, ahead⟩ := index
    rw [postfixRestStep_index ahead,
      postfixRestStep_index (visible.trans (congrArg (· ++ tail) ahead))]
    refine agrees_ahead ahead (cutOff_enter below fun g g' cut => ?_)
    exact (cutOff_subscript inert cut e).bind cut.postfixRest
  have noField (rest : List Char) : Text.skipSpace s ≠ '.' :: rest := fun same => field ⟨rest, same⟩
  have noIndex (rest : List Char) : Text.skipSpace s ≠ '[' :: rest := fun same => index ⟨rest, same⟩
  rw [postfixRestStep_end noField noIndex,
    postfixRestStep_end (visible ▸ inert.append_ne_cons (by decide) noField)
      (visible ▸ inert.append_ne_cons (by decide) noIndex)]
  exact .read e (List.suffix_refl s)

private theorem cutOff_conditionalRest (inert : Inert tail) (cut : few.CutOff tail more)
    (e : Expr) : Parser.CutOff tail (conditionalRest few e) (conditionalRest more e) := by
  intro s
  have visible := inert.skipSpace_append s
  by_cases question : ∃ rest, Text.skipSpace s = '?' :: rest
  · obtain ⟨rest, ahead⟩ := question
    rw [conditionalRest_question ahead,
      conditionalRest_question (visible.trans (congrArg (· ++ tail) ahead))]
    refine agrees_ahead ahead ((cut.expression.spaced inert).bind fun yes => ?_)
    refine (cutOff_char (inert.foreign (by decide))).bind fun _ => ?_
    exact cut.expression.bind fun no => cutOff_pure (Expr.conditional e yes no)
  have none (rest : List Char) : Text.skipSpace s ≠ '?' :: rest := fun same => question ⟨rest, same⟩
  rw [conditionalRest_end none,
    conditionalRest_end (visible ▸ inert.append_ne_cons (by decide) none)]
  exact .read e (List.suffix_refl s)

private theorem cutOff_expressionStep (inert : Inert tail) (below : BelowCutOff tail low high) :
    Parser.CutOff tail (expressionStep low) (expressionStep high) := by
  refine cutOff_enter below fun g g' cut => ?_
  exact (cut.tier tierCount).bind (cutOff_conditionalRest inert cut)

private theorem cutOff_postfixed (inert : Inert tail) (below : BelowCutOff tail low high) :
    Parser.CutOff tail (postfixed low) (postfixed high) :=
  (cutOff_atom inert (cutOff_expressionStep inert below)).bind (cutOff_postfixRestStep inert below)

private theorem cutOff_tierRestStep (inert : Inert tail) (below : BelowCutOff tail low high)
    (tier : Nat) (left : Expr) :
    Parser.CutOff tail (tierRestStep low tier left) (tierRestStep high tier left) := by
  intro s
  have visible : operator? tier (Text.skipSpace (s ++ tail)) = _ :=
    (congrArg _ (inert.skipSpace_append s)).trans (operator?_behind inert tier (Text.skipSpace s))
  cases found : operator? tier (Text.skipSpace s) with
  | none =>
    rw [found] at visible
    rw [tierRestStep_end found, tierRestStep_end visible]
    exact .read left (List.suffix_refl s)
  | some read =>
    obtain ⟨op, rest⟩ := read
    rw [found] at visible
    rw [tierRestStep_operator found, tierRestStep_operator visible]
    obtain ⟨token, -, same⟩ := operator?_eq_some found
    have visibly : rest <:+ Text.skipSpace s := same ▸ List.suffix_append token.toList rest
    have left : rest <:+ s := visibly.trans (Text.skipSpace_suffix s)
    refine Agrees.within (cutOff_enter below (fun g g' cut => ?_) rest) left
    exact (cut.tier tier).bind fun right => cut.tierRest tier _

private theorem signed_append (inert : Inert tail) {op : UnaryOp} {s more : List Char} :
    Signed op (s ++ tail) more ↔ ∃ rest, more = rest ++ tail ∧ Signed op s rest := by
  constructor
  · rintro ⟨ahead, single, simple⟩
    have sign : sign op ≠ ';' := by cases op <;> decide
    obtain ⟨rest, found, rfl⟩ := inert.cons_eq_append sign ahead
    refine ⟨rest, rfl, found, fun after same => ?_, fun neg after same => ?_⟩
    · exact single (after ++ tail) (congrArg (· ++ tail) same)
    · exact simple neg (after ++ tail) (congrArg (· ++ tail) same)
  · rintro ⟨rest, rfl, ahead, single, simple⟩
    exact ⟨congrArg (· ++ tail) ahead, inert.append_ne_cons (by decide) single,
      fun neg => inert.append_ne_cons (by decide) (simple neg)⟩

private theorem cutOff_unaryStep (inert : Inert tail) (below : BelowCutOff tail low high) :
    Parser.CutOff tail (unaryStep low) (unaryStep high) := by
  intro s
  have visible := inert.skipSpace_append s
  by_cases signed : ∃ op rest, Signed op (Text.skipSpace s) rest
  · obtain ⟨op, rest, here⟩ := signed
    have behind : Signed op (Text.skipSpace (s ++ tail)) (rest ++ tail) :=
      visible ▸ (signed_append inert).2 ⟨rest, rfl, here⟩
    rw [unaryStep_signed here, unaryStep_signed behind]
    exact agrees_ahead here.ahead (cutOff_enter below fun g g' cut => cut.unary.map (Expr.unary op))
  · have here (op : UnaryOp) (rest : List Char) : ¬ Signed op (Text.skipSpace s) rest :=
      fun found => signed ⟨op, rest, found⟩
    have behind (op : UnaryOp) (rest : List Char) :
        ¬ Signed op (Text.skipSpace (s ++ tail)) rest := by
      rw [visible, signed_append inert]
      rintro ⟨front, -, found⟩
      exact here op front found
    rw [unaryStep_operand here, unaryStep_operand behind, visible]
    exact (cutOff_postfixed inert below _).within (Text.skipSpace_suffix s)

private theorem cutOff_tierStep (inert : Inert tail) (below : BelowCutOff tail low high)
    (tier : Nat) : Parser.CutOff tail (tierStep low tier) (tierStep high tier) := by
  induction tier with
  | zero => exact cutOff_unaryStep inert below
  | succ tier ih => exact ih.bind (cutOff_tierRestStep inert below tier)

theorem cutOff_step (inert : Inert tail) (below : BelowCutOff tail low high) :
    (step low).CutOff tail (step high) where
  expression := cutOff_expressionStep inert below
  unary := cutOff_unaryStep inert below
  tier := cutOff_tierStep inert below
  tierRest := cutOff_tierRestStep inert below
  postfixRest := cutOff_postfixRestStep inert below

end Operators

/-- The parsers of fewer levels are those of more levels cut off. -/
theorem cutOff_ofLevels (inert : Inert tail) {few more : Nat} (fewer : few ≤ more) :
    (ofLevels few).CutOff tail (ofLevels more) := by
  induction few generalizing more with
  | zero =>
    rw [ofLevels_eq_step more]
    exact cutOff_step inert fun g same => nomatch same
  | succ few ih =>
    obtain ⟨more, rfl⟩ : ∃ fewer, more = fewer + 1 := ⟨more - 1, by omega⟩
    refine cutOff_step inert fun g same => ?_
    cases same
    exact ⟨_, rfl, ih (Nat.le_of_succ_le_succ fewer)⟩

/-! ### Statements -/

section Statements

variable {few more : Grammar}

private theorem cutOff_endOfStatement : Parser.CutOff [] endOfStatement endOfStatement := by
  refine (cutOff_spaces .nothing).bind fun _ => ?_
  exact (cutOff_char List.not_mem_nil).optional.bind fun _ => cutOff_pure ()

private theorem cutOff_declaration (cut : few.CutOff [] more) :
    Parser.CutOff [] (declaration few) (declaration more) := by
  have word {word : String} (letters : ';' ∉ word.toList) (constant : Bool) :
      Parser.CutOff [] (do keyword word; return constant) (do keyword word; return constant) :=
    (cutOff_keyword .nothing letters).bind fun _ => cutOff_pure constant
  refine CutOff.bind ((word (by decide) false).orElse ((word (by decide) true).orElse
    (word (by decide) false))) fun constant => ?_
  refine ((cutOff_name .nothing).spaced .nothing).bind fun found => ?_
  refine (cutOff_char List.not_mem_nil).bind fun _ => ?_
  refine cut.expression.bind fun value => ?_
  exact cutOff_endOfStatement.bind fun _ => cutOff_pure (Stmt.declare constant found value)

private theorem cutOff_block (statement : Parser.CutOff [] few.statement more.statement) :
    Parser.CutOff [] (block few) (block more) := by
  refine (cutOff_char List.not_mem_nil).bind fun _ => ?_
  refine statement.many.bind fun body => ?_
  refine (cutOff_spaces .nothing).bind fun _ => ?_
  exact (cutOff_char List.not_mem_nil).bind fun _ => cutOff_pure body

private theorem cutOff_branchBody (statement : Parser.CutOff [] few.statement more.statement) :
    Parser.CutOff [] (branchBody few) (branchBody more) := by
  intro s
  have single := statement.map ([·]) s
  have whole := cutOff_block statement s
  rw [List.append_nil] at single whole ⊢
  rw [branchBody.eq_def, branchBody.eq_def]
  split
  · exact whole
  · exact single

private theorem cutOff_elseBranch (statement : Parser.CutOff [] few.statement more.statement) :
    Parser.CutOff [] (elseBranch few) (elseBranch more) := by
  intro s
  rw [List.append_nil, elseBranch, elseBranch]
  split
  · rename_i rest read
    have body := cutOff_branchBody statement (Text.skipSpace rest)
    rw [List.append_nil] at body
    have after := (cutOff_keyword .nothing (by decide)).leaves _ _ _ read
    exact body.within ((Text.skipSpace_suffix rest).trans (after.trans (Text.skipSpace_suffix s)))
  · exact Agrees.same (List.suffix_refl s)

private theorem cutOff_branching (cut : few.CutOff [] more)
    (statement : Parser.CutOff [] few.statement more.statement) :
    Parser.CutOff [] (branching few) (branching more) := by
  refine (cutOff_keyword .nothing (by decide)).bind fun _ => ?_
  refine ((cutOff_char List.not_mem_nil).spaced .nothing).bind fun _ => ?_
  refine cut.expression.bind fun condition => ?_
  refine ((cutOff_char List.not_mem_nil).spaced .nothing).bind fun _ => ?_
  refine (cutOff_branchBody statement).bind fun yes => ?_
  exact (cutOff_elseBranch statement).bind fun no => cutOff_pure (Stmt.branch condition yes no)

private theorem cutOff_returning (cut : few.CutOff [] more) :
    Parser.CutOff [] (returning few) (returning more) := by
  refine (cutOff_keyword .nothing (by decide)).bind fun _ => ?_
  refine cut.expression.optional.bind fun value => ?_
  exact cutOff_endOfStatement.bind fun _ => cutOff_pure (Stmt.ret value)

private theorem cutOff_placeRest (cut : few.CutOff [] more) (bound : List Char)
    (taken : List PathStep) :
    Parser.CutOff [] (placeRest few bound taken) (placeRest more bound taken) := by
  induction bound generalizing taken with
  | nil => exact cutOff_pure taken.reverse
  | cons _ bound ih =>
    intro s
    rw [List.append_nil, placeRest, placeRest]
    split
    · rename_i rest ahead
      have found := agrees_ahead ahead ((cutOff_anyName .nothing).spaced .nothing)
      rw [List.append_nil] at found
      cases read : spaced anyName rest with
      | error e =>
        cases e with
        | mismatch => exact .mismatch
        | tooDeep => exact .tooDeep _
      | ok out =>
        rw [read] at found
        have next := ih (.field out.1 :: taken) out.2
        rw [List.append_nil] at next
        exact next.within found.suffix
    · rename_i rest ahead
      have key : Parser.CutOff []
          (do let key ← spaced few.expression; char ']'; return key : Parser Expr)
          (do let key ← spaced more.expression; char ']'; return key) := by
        refine (cut.expression.spaced .nothing).bind fun key => ?_
        exact (cutOff_char List.not_mem_nil).bind fun _ => cutOff_pure key
      have agrees := agrees_ahead ahead key
      rw [List.append_nil] at agrees
      generalize
        (do let key ← spaced few.expression; char ']'; return key : Parser Expr) rest = read,
        (do let key ← spaced more.expression; char ']'; return key : Parser Expr) rest = other
        at agrees ⊢
      cases agrees with
      | tooDeep => exact .tooDeep _
      | mismatch => exact .mismatch
      | read key left => exact (ih (.index key :: taken) _).within left
    · exact Agrees.same (List.suffix_refl s)

private theorem cutOff_place (cut : few.CutOff [] more) :
    Parser.CutOff [] (place few) (place more) := by
  refine (cutOff_name .nothing).bind fun root => ?_
  refine CutOff.bind (fun s => ?_) fun path => cutOff_pure (Place.mk root path)
  have steps := cutOff_placeRest cut s [] s
  rw [List.append_nil] at steps ⊢
  exact steps

private theorem leaves_assignOp : assignOp.Leaves := by
  intro s op rest read
  have two (c d : Char) (rest : List Char) : rest <:+ c :: d :: rest :=
    (List.suffix_cons d rest).trans (List.suffix_cons c _)
  rw [assignOp.eq_def] at read
  split at read
  · cases read
    exact two _ _ rest
  · cases read
    exact two _ _ rest
  · cases read
    exact two _ _ rest
  · cases read
    exact two _ _ rest
  · cases read
  · cases read
    exact List.suffix_cons _ rest
  · cases read

private theorem cutOff_assignedValue (cut : few.CutOff [] more) :
    Parser.CutOff [] (assignedValue few) (assignedValue more) := by
  have pair : Parser.CutOff []
      (do let op ← assignOp; let value ← few.expression; return (op, value))
      (do let op ← assignOp; let value ← more.expression; return (op, value)) := by
    refine leaves_assignOp.cutOff.bind fun op => ?_
    exact cut.expression.bind fun value => cutOff_pure (op, value)
  intro s
  have agrees := pair s
  rw [List.append_nil] at agrees ⊢
  rw [assignedValue.eq_def, assignedValue.eq_def]
  split
  · rename_i rest
    exact Agrees.same ((List.suffix_cons _ rest).trans (List.suffix_cons _ _))
  · rename_i rest
    exact Agrees.same ((List.suffix_cons _ rest).trans (List.suffix_cons _ _))
  · exact agrees

private theorem cutOff_assignment (cut : few.CutOff [] more) :
    Parser.CutOff [] (assignment few) (assignment more) := by
  refine (cutOff_place cut).bind fun target => ?_
  refine (cutOff_spaces .nothing).bind fun _ => ?_
  refine (cutOff_assignedValue cut).bind fun (op, value) => ?_
  exact cutOff_endOfStatement.bind fun _ => cutOff_pure (Stmt.assign target op value)

private theorem cutOff_expressionStatement (cut : few.CutOff [] more) :
    Parser.CutOff [] (expressionStatement few) (expressionStatement more) := by
  refine cut.expression.bind fun value => ?_
  exact cutOff_endOfStatement.bind fun _ => cutOff_pure (Stmt.eval value)

private theorem cutOff_emptyStatement : Parser.CutOff [] emptyStatement emptyStatement :=
  (cutOff_char List.not_mem_nil).bind fun _ => cutOff_pure (Stmt.block [])

end Statements

/-- Statements of fewer levels are those of more levels cut off. -/
theorem cutOff_statement {few more : Nat} (fewer : few ≤ more) :
    Parser.CutOff [] (ofLevels few).statement (ofLevels more).statement := by
  induction few generalizing more with
  | zero =>
    rw [ofLevels_eq_step more]
    exact (cutOff_spaces .nothing).bind fun _ => cutOff_tooDeep _
  | succ few ih =>
    obtain ⟨more, rfl⟩ : ∃ fewer, more = fewer + 1 := ⟨more - 1, by omega⟩
    have cut := cutOff_ofLevels .nothing (Nat.le_of_succ_le_succ fewer)
    have statement := ih (Nat.le_of_succ_le_succ fewer)
    refine (cutOff_spaces .nothing).bind fun _ => ?_
    exact cutOff_emptyStatement.orElse <| (cutOff_declaration cut).orElse <|
      (cutOff_branching cut statement).orElse <| (cutOff_returning cut).orElse <|
      ((cutOff_block statement).map Stmt.block).orElse <|
      (cutOff_assignment cut).orElse (cutOff_expressionStatement cut)

end Grammar

/-- A program that is read within a limit is read as the same one within every greater limit, and a
text that is no program within a limit is none within a greater one, for the same reason, unless the
limit was the reason. -/
theorem parseProgram_cutOff {few more : Nat} (fewer : few ≤ more) (source : String) :
    (∀ program, parseProgram few source = .ok program → parseProgram more source = .ok program) ∧
    (∀ e, parseProgram few source = .error e → e ≠ .tooDeep few →
      parseProgram more source = .error e) := by
  have agrees := (Grammar.cutOff_statement fewer).many (removeComments source.toList)
  rw [List.append_nil] at agrees
  rw [parseProgram, parseProgram]
  generalize many (Grammar.ofLevels few).statement (removeComments source.toList) = read,
    many (Grammar.ofLevels more).statement (removeComments source.toList) = other at agrees ⊢
  cases agrees with
  | tooDeep =>
    refine ⟨fun _ same => ?_, fun e same limit => ?_⟩ <;> cases same
    exact absurd rfl limit
  | mismatch =>
    refine ⟨fun _ same => ?_, fun e same limit => ?_⟩ <;> cases same
    exact absurd rfl limit
  | read program left =>
    rw [List.append_nil]
    exact ⟨fun _ same => same, fun _ same _ => same⟩

/-- A program of two levels and a text that is none, each within one level more. -/
theorem parseProgram_cutOff_two :
    2 ≤ 3 ∧ parseProgram 3 (String.ofList (deepestSource 0)) = .ok [.ret (some (.map []))] ∧
      parseProgram 3 (String.ofList [')']) = .error (.unexpected [')']) := by
  have fewer : 2 ≤ 3 := by decide
  have refused : parseProgram 2 (String.ofList [')']) = .error (.unexpected [')']) := by
    rw [parseProgram, String.toList_ofList]
    rfl
  exact ⟨fewer, (parseProgram_cutOff fewer _).1 _ (parseProgram_deepest 0),
    (parseProgram_cutOff fewer _).2 _ refused fun same => by cases same⟩

end Relay.Script
