import Relay.Proofs.Script.Comments
import Relay.Proofs.Script.Equations
import Relay.Proofs.Script.Nesting

/-! # The highest programs

For every number of levels there is a program of the greatest height: an operand that is itself as
high as possible, followed by as many postfix steps, as many operators of each tier and one
conditional as the levels allow. Their right operands are names, so that all the height comes from
chains whose first operand gave its levels back.
-/

namespace Relay.Script

open Relay.Script.Parser Relay.Script.Grammar

/-- A text in front of which an expression of the first so many tiers ends. -/
structure Ends (tier : Nat) (rest : List Char) : Prop where
  visible : Text.skipSpace rest = rest
  word : ∀ c cs, rest = c :: cs → isNameChar c = false
  call : ∀ cs, rest ≠ '(' :: cs
  field : ∀ cs, rest ≠ '.' :: cs
  index : ∀ cs, rest ≠ '[' :: cs
  operator : ∀ t < tier, operator? t rest = none

theorem Ends.fewer {tier fewer : Nat} {rest : List Char} (ends : Ends tier rest)
    (less : fewer ≤ tier) : Ends fewer rest :=
  { ends with operator := fun t below => ends.operator t (by omega) }

/-- A text in front of which every expression ends. -/
structure Closed (rest : List Char) : Prop extends Ends tierCount rest where
  question : ∀ cs, rest ≠ '?' :: cs

/-! ### Names -/

theorem anyName_a {rest : List Char} (word : ∀ c cs, rest = c :: cs → isNameChar c = false) :
    anyName ('a' :: rest) = .ok ("a", rest) := by
  have none : rest.takeWhile isNameChar = [] ∧ rest.dropWhile isNameChar = rest := by
    cases rest with
    | nil => exact ⟨rfl, rfl⟩
    | cons c cs =>
      have stop := word c cs rfl
      rw [List.takeWhile_cons, List.dropWhile_cons, stop]
      exact ⟨rfl, rfl⟩
  have start : isNameStart 'a' = true := by decide
  rw [anyName, if_pos start, none.1, none.2]

theorem atom_a (expression : Parser Expr) {rest : List Char} (ends : Ends 0 rest) :
    atom expression ('a' :: rest) = .ok (.ident "a", rest) := by
  have found : name ('a' :: rest) = .ok ("a", rest) := by
    rw [name, bind_ok (anyName_a ends.word)]
    rfl
  have words : wordLiteral ('a' :: rest) = .error .mismatch := rfl
  have numbers : number ('a' :: rest) = .error .mismatch := rfl
  have strings : (Expr.string <$> quotedString) ('a' :: rest) = .error .mismatch := rfl
  have templates : template expression ('a' :: rest) = .error .mismatch := rfl
  have lists : listLiteral expression ('a' :: rest) = .error .mismatch := rfl
  have maps : mapLiteral expression ('a' :: rest) = .error .mismatch := rfl
  have inner : parenthesized expression ('a' :: rest) = .error .mismatch := rfl
  have named : callOrName expression ('a' :: rest) = .ok (.ident "a", rest) := by
    have next : Except.ok (Text.skipSpace rest, rest) = (.ok (rest, rest) : Except Refusal _) := by
      rw [ends.visible]
    rw [callOrName, bind_ok found]
    refine (bind_ok next).trans ?_
    split
    · rename_i more
      exact absurd rfl (ends.call more)
    · rfl
  have here : spaces ('a' :: rest) = .ok ((), 'a' :: rest) := rfl
  rw [atom, bind_ok here, orElse_mismatch words, orElse_mismatch numbers, orElse_mismatch strings,
    orElse_mismatch templates, orElse_mismatch lists, orElse_mismatch maps, orElse_mismatch inner,
    named]

/-- What is below the top level of a grammar. -/
def belowOf : Nat → Option (Thunk Grammar)
  | 0 => none
  | levels + 1 => some ⟨fun _ => ofLevels levels⟩

theorem ofLevels_eq_step (levels : Nat) : ofLevels levels = step (belowOf levels) := by
  cases levels <;> rfl

section Ending

variable {below : Option (Thunk Grammar)}

theorem postfixRestStep_ends {rest : List Char} (ends : Ends 0 rest) (e : Expr) :
    postfixRestStep below e rest = .ok (e, rest) := by
  rw [postfixRestStep, ends.visible]
  split
  · rename_i more
    exact absurd rfl (ends.field more)
  · rename_i more
    exact absurd rfl (ends.index more)
  · rfl

theorem tierRestStep_ends {tier : Nat} {rest : List Char} (ends : Ends (tier + 1) rest)
    (e : Expr) : tierRestStep below tier e rest = .ok (e, rest) := by
  rw [tierRestStep, ends.visible, ends.operator tier (Nat.lt_succ_self tier)]

theorem unaryStep_a {rest : List Char} (ends : Ends 0 rest) :
    unaryStep below ('a' :: rest) = .ok (.ident "a", rest) := by
  have plain : unaryStep below ('a' :: rest) = postfixed below ('a' :: rest) := rfl
  rw [plain, postfixed, bind_ok (atom_a _ ends), postfixRestStep_ends ends]

/-- An operand is an expression of every tier if no operator of the tier follows. -/
theorem tierStep_ends {tier : Nat} {s rest : List Char} {e : Expr}
    (operand : unaryStep below s = .ok (e, rest)) (ends : Ends tier rest) :
    tierStep below tier s = .ok (e, rest) := by
  induction tier with
  | zero => exact operand
  | succ tier ih =>
    rw [tierStep, bind_ok (ih (ends.fewer (Nat.le_succ tier))), tierRestStep_ends ends]

theorem tier_a (levels : Nat) {tier : Nat} {rest : List Char} (ends : Ends tier rest) :
    (ofLevels levels).tier tier ('a' :: rest) = .ok (.ident "a", rest) := by
  rw [ofLevels_eq_step]
  exact tierStep_ends (unaryStep_a (ends.fewer (Nat.zero_le tier))) ends

end Ending

/-! ### Chains -/

/-- So many times a word and a name, in front of a text. -/
def chain (word : List Char) : Nat → List Char → List Char
  | 0, rest => rest
  | n + 1, rest => word ++ 'a' :: chain word n rest

/-- A tree with so many further nodes above it. -/
def grow (node : Expr → Expr) : Nat → Expr → Expr
  | 0, e => e
  | n + 1, e => grow node n (node e)

/-- The operator applied to the tree and a name. -/
def joined (op : BinaryOp) (left : Expr) : Expr :=
  .binary op left (.ident "a")

theorem height_grow {node : Expr → Expr} (above : ∀ e, (node e).height = 1 + e.height) (n : Nat)
    (e : Expr) : (grow node n e).height = n + e.height := by
  induction n generalizing e with
  | zero => exact (Nat.zero_add _).symm
  | succ n ih =>
    rw [grow, ih, above]
    omega

/-- The word is read as the operator of the tier, and no operator of a tier before it. -/
structure Joins (tier : Nat) (word : List Char) (op : BinaryOp) : Prop where
  token : ∀ more, operator? tier (word ++ 'a' :: more) = some (op, 'a' :: more)
  ends : ∀ more, Ends tier (word ++ 'a' :: more)

theorem Joins.chain {tier : Nat} {word : List Char} {op : BinaryOp} (joins : Joins tier word op)
    {rest : List Char} (ends : Ends tier rest) (n : Nat) : Ends tier (chain word n rest) := by
  cases n with
  | zero => exact ends
  | succ n => exact joins.ends _

/-- A chain of operators of one tier uses all levels of the grammar. -/
theorem tierRest_chain {tier : Nat} {word : List Char} {op : BinaryOp} (joins : Joins tier word op)
    {rest : List Char} (ends : Ends (tier + 1) rest) (levels : Nat) (left : Expr) :
    (ofLevels levels).tierRest tier left (chain word levels rest) =
      .ok (grow (joined op) levels left, rest) := by
  induction levels generalizing left with
  | zero => exact tierRestStep_ends ends left
  | succ levels ih =>
    have after : Ends tier (chain word levels rest) :=
      joins.chain (ends.fewer (Nat.le_succ tier)) levels
    have turn : (ofLevels (levels + 1)).tierRest tier left (word ++ 'a' :: chain word levels rest) =
        (do
          let right ← (ofLevels levels).tier tier
          (ofLevels levels).tierRest tier (.binary op left right) : Parser Expr)
          ('a' :: chain word levels rest) := by
      change tierRestStep _ tier left _ = _
      rw [tierRestStep, (joins.ends _).visible, joins.token]
      rfl
    rw [Script.chain, turn, bind_ok (tier_a levels after)]
    exact ih (joined op left)

theorem spaced_anyName_a {rest : List Char} (visible : Text.skipSpace rest = rest)
    (word : ∀ c cs, rest = c :: cs → isNameChar c = false) :
    spaced anyName ('a' :: rest) = .ok ("a", rest) := by
  have here : spaces ('a' :: rest) = .ok ((), 'a' :: rest) := rfl
  have after : spaces rest = .ok ((), rest) := by rw [spaces, visible]
  rw [spaced, bind_ok here, bind_ok (anyName_a word), bind_ok after, pure_run]

/-- A field is read up to a text that goes on with neither the name nor a call. -/
private theorem member_a (g : Grammar) (e : Expr) {rest : List Char}
    (visible : Text.skipSpace rest = rest)
    (word : ∀ c cs, rest = c :: cs → isNameChar c = false) (call : ∀ cs, rest ≠ '(' :: cs) :
    member g e ('a' :: rest) = .ok (.field e "a", rest) := by
  rw [member]
  refine (bind_ok (spaced_anyName_a visible word)).trans ?_
  split
  · rename_i more
    exact absurd rfl (call more)
  · rfl

/-- A chain of fields uses all levels of the grammar. -/
theorem postfixRest_chain {rest : List Char} (ends : Ends 0 rest) (levels : Nat) (e : Expr) :
    (ofLevels levels).postfixRest e (chain ['.'] levels rest) =
      .ok (grow (.field · "a") levels e, rest) := by
  induction levels generalizing e with
  | zero => exact postfixRestStep_ends ends e
  | succ levels ih =>
    have turn : (ofLevels (levels + 1)).postfixRest e (chain ['.'] (levels + 1) rest) =
        (member (ofLevels levels) e >>= (ofLevels levels).postfixRest)
          ('a' :: chain ['.'] levels rest) := rfl
    have read : member (ofLevels levels) e ('a' :: chain ['.'] levels rest) =
        .ok (.field e "a", chain ['.'] levels rest) := by
      cases levels with
      | zero => exact member_a _ e ends.visible ends.word ends.call
      | succ fewer =>
        refine member_a _ e rfl (fun c cs same => ?_) (fun cs same => ?_)
        · cases same
          decide
        · cases same
    rw [turn, bind_ok read]
    exact ih (.field e "a")

/-! ### Words -/

/-- No token of the tier starts with the character. -/
def Foreign (tier : Nat) (c : Char) : Prop :=
  ∀ token ∈ operatorTiers.getD tier [], token.1.toList.head?.any (· ≠ c) = true

instance (tier : Nat) (c : Char) : Decidable (Foreign tier c) :=
  inferInstanceAs (Decidable (∀ token ∈ operatorTiers.getD tier [], _))

theorem operator?_foreign {tier : Nat} {c : Char} (foreign : Foreign tier c)
    (cs : List Char) : operator? tier (c :: cs) = none := by
  have none : firstToken? (operatorTiers.getD tier []) (c :: cs) = none := by
    refine List.findSome?_eq_none_iff.2 fun token member => ?_
    have start := foreign token member
    obtain ⟨text, op⟩ := token
    rw [Option.map_eq_none_iff]
    cases word : text.toList with
    | nil => simp [word] at start
    | cons d ds =>
      have different : d ≠ c := by simpa [word] using start
      rw [Text.afterWord?, if_neg different]
  rw [operator?, none]

private theorem ends_cons {tier : Nat} {c : Char} (cs : List Char)
    (head : Text.isSpace c = false ∧ isNameChar c = false ∧ c ≠ '(' ∧ c ≠ '.' ∧ c ≠ '[')
    (foreign : ∀ t < tier, Foreign t c) : Ends tier (c :: cs) where
  visible := by rw [Text.skipSpace, List.dropWhile_cons, head.1]; rfl
  word d ds same := by cases same; exact head.2.1
  call ds same := by cases same; exact absurd rfl head.2.2.1
  field ds same := by cases same; exact absurd rfl head.2.2.2.1
  index ds same := by cases same; exact absurd rfl head.2.2.2.2
  operator t below := operator?_foreign (foreign t below) cs

theorem joins_mul : Joins 0 ['*'] .mul where
  token _ := rfl
  ends _ := ends_cons _ (by decide) (by decide)

theorem joins_add : Joins 1 ['+'] .add where
  token _ := rfl
  ends _ := ends_cons _ (by decide) (by decide)

theorem joins_lt : Joins 2 ['<'] .lt where
  token _ := rfl
  ends _ := ends_cons _ (by decide) (by decide)

theorem joins_eq : Joins 3 ['=', '='] .eq where
  token _ := rfl
  ends _ := ends_cons _ (by decide) (by decide)

theorem joins_and : Joins 4 ['&', '&'] .and where
  token _ := rfl
  ends _ := ends_cons _ (by decide) (by decide)

theorem joins_or : Joins 5 ['|', '|'] .or where
  token _ := rfl
  ends _ := ends_cons _ (by decide) (by decide)

private theorem closed_bracket (cs : List Char) : Closed (']' :: cs) where
  toEnds := ends_cons cs (by decide) (by decide)
  question _ same := nomatch same

private theorem closed_colon (cs : List Char) : Closed (':' :: cs) where
  toEnds := ends_cons cs (by decide) (by decide)
  question _ same := nomatch same

private theorem ends_question (cs : List Char) : Ends tierCount ('?' :: cs) :=
  ends_cons cs (by decide) (by decide)

theorem closed_nil : Closed [] where
  visible := rfl
  word _ _ same := nomatch same
  call _ same := nomatch same
  field _ same := nomatch same
  index _ same := nomatch same
  operator := by decide
  question _ same := nomatch same

/-! ### Expressions -/

/-- The text of an expression of greatest height for one level more than the number, in front of
another text. -/
def deepest : Nat → List Char → List Char
  | 0, rest => '\x7b' :: '\x7d' :: rest
  | n + 1, rest =>
    let chains := chain ['.'] (n + 1) <| chain ['*'] (n + 1) <| chain ['+'] (n + 1) <|
      chain ['<'] (n + 1) <| chain ['=', '='] (n + 1) <| chain ['&', '&'] (n + 1) <|
      chain ['|', '|'] (n + 1) ('?' :: 'a' :: ':' :: 'a' :: rest)
    '[' :: deepest n (']' :: chains)

/-- The tree of `deepest`. -/
def deepestExpr : Nat → Expr
  | 0 => .map []
  | n + 1 =>
    let operand := grow (.field · "a") (n + 1) (.list [deepestExpr n])
    let joinedAll := grow (joined .or) (n + 1) <| grow (joined .and) (n + 1) <|
      grow (joined .eq) (n + 1) <| grow (joined .lt) (n + 1) <| grow (joined .add) (n + 1) <|
      grow (joined .mul) (n + 1) operand
    .conditional joinedAll (.ident "a") (.ident "a")

private theorem height_joined (op : BinaryOp) (e : Expr) :
    (joined op e).height = 1 + e.height := by
  rw [joined, Expr.height, Expr.height, Nat.max_zero]

theorem height_deepestExpr (n : Nat) : (deepestExpr n).height = expressionBound (n + 1) := by
  induction n with
  | zero => rfl
  | succ n ih =>
    have field (e : Expr) : (Expr.field e "a").height = 1 + e.height := by rw [Expr.height]
    have list : (Expr.list [deepestExpr n]).height = 1 + expressionBound (n + 1) := by
      rw [Expr.height, Expr.heightItems, Expr.heightItems, ih, Nat.max_zero]
    have leaf : (Expr.ident "a").height = 0 := rfl
    have top (e : Expr) :
        (Expr.conditional e (.ident "a") (.ident "a")).height = 1 + e.height := by
      rw [Expr.height, leaf, Nat.max_self, Nat.max_zero]
    rw [deepestExpr, top]
    simp only [height_grow (height_joined _), height_grow field, list, expressionBound]
    omega

/-- A literal is read from its brackets if its item is read from what is between them. -/
private theorem unaryStep_list {levels : Nat} {s rest after : List Char}
    {item e : Expr} (visible : Text.skipSpace s = s)
    (read : (ofLevels levels).expression s = .ok (item, ']' :: rest))
    (steps : (ofLevels levels).postfixRest (.list [item]) rest = .ok (e, after)) :
    unaryStep (belowOf levels) ('[' :: s) = .ok (e, after) := by
  rw [ofLevels_eq_step] at read steps
  -- Reading a literal never looks at what is below, which would otherwise be unfolded.
  have inside : expressionStep (belowOf levels) s = .ok (item, ']' :: rest) := read
  have outside : postfixRestStep (belowOf levels) (.list [item]) rest = .ok (e, after) := steps
  generalize belowOf levels = below at inside outside ⊢
  have plain : unaryStep below ('[' :: s) = postfixed below ('[' :: s) := rfl
  have words : wordLiteral ('[' :: s) = .error .mismatch := rfl
  have numbers : number ('[' :: s) = .error .mismatch := rfl
  have strings : (Expr.string <$> quotedString) ('[' :: s) = .error .mismatch := rfl
  have templates : template (expressionStep below) ('[' :: s) = .error .mismatch := rfl
  have items : commaList (expressionStep below) s = .ok ([item], ']' :: rest) := by
    have all : separated (spaced (char ',')) (expressionStep below) s =
        .ok ([item], ']' :: rest) := by
      rw [separated, inside]
      rfl
    rw [commaList, bind_ok all]
    rfl
  have lists : listLiteral (expressionStep below) ('[' :: s) = .ok (.list [item], rest) := by
    have opened : char '[' ('[' :: s) = .ok ((), s) := rfl
    have here : spaces s = .ok ((), s) := by rw [spaces, visible]
    rw [listLiteral, bind_ok opened, bind_ok here, bind_ok items]
    rfl
  have here : spaces ('[' :: s) = .ok ((), '[' :: s) := rfl
  have operand : atom (expressionStep below) ('[' :: s) = .ok (.list [item], rest) := by
    rw [atom, bind_ok here, orElse_mismatch words, orElse_mismatch numbers,
      orElse_mismatch strings, orElse_mismatch templates, orElse_ok lists]
  rw [plain, postfixed, bind_ok operand, outside]

private theorem unaryStep_emptyMap {below : Option (Thunk Grammar)} {rest : List Char}
    (ends : Ends 0 rest) :
    unaryStep below ('\x7b' :: '\x7d' :: rest) = .ok (.map [], rest) := by
  have plain : unaryStep below ('\x7b' :: '\x7d' :: rest) =
      postfixed below ('\x7b' :: '\x7d' :: rest) := rfl
  have operand : atom (expressionStep below) ('\x7b' :: '\x7d' :: rest) = .ok (.map [], rest) := rfl
  rw [plain, postfixed, bind_ok operand, postfixRestStep_ends ends]

private theorem conditionalRest_closed (g : Grammar) {rest : List Char} (closed : Closed rest)
    (e : Expr) : conditionalRest g e rest = .ok (e, rest) := by
  rw [conditionalRest, closed.visible]
  split
  · rename_i more
    exact absurd rfl (closed.question more)
  · rfl

private theorem expression_a (levels : Nat) {rest : List Char} (closed : Closed rest) :
    (ofLevels (levels + 1)).expression ('a' :: rest) = .ok (.ident "a", rest) := by
  have turn : (ofLevels (levels + 1)).expression ('a' :: rest) =
      ((ofLevels levels).tier tierCount >>= conditionalRest (ofLevels levels)) ('a' :: rest) := rfl
  rw [turn, bind_ok (tier_a levels closed.toEnds), conditionalRest_closed _ closed]

private theorem tierStep_chain {levels tier : Nat} {word s rest : List Char} {op : BinaryOp}
    {e : Expr} (joins : Joins tier word op) (ends : Ends (tier + 1) rest)
    (operand : tierStep (belowOf levels) tier s = .ok (e, chain word levels rest)) :
    tierStep (belowOf levels) (tier + 1) s = .ok (grow (joined op) levels e, rest) := by
  have chained := tierRest_chain joins ends levels e
  rw [ofLevels_eq_step] at chained
  rw [tierStep, bind_ok operand]
  exact chained

private theorem skipSpace_deepest (n : Nat) (rest : List Char) :
    Text.skipSpace (deepest n rest) = deepest n rest := by
  cases n <;> rfl

private theorem conditionalRest_a (levels : Nat) {rest : List Char} (closed : Closed rest)
    (e : Expr) :
    conditionalRest (ofLevels (levels + 1)) e ('?' :: 'a' :: ':' :: 'a' :: rest) =
      .ok (.conditional e (.ident "a") (.ident "a"), rest) := by
  have yes : spaced (ofLevels (levels + 1)).expression ('a' :: ':' :: 'a' :: rest) =
      .ok (.ident "a", ':' :: 'a' :: rest) := by
    have here : spaces ('a' :: ':' :: 'a' :: rest) = .ok ((), 'a' :: ':' :: 'a' :: rest) := rfl
    rw [spaced, bind_ok here, bind_ok (expression_a levels (closed_colon ('a' :: rest)))]
    rfl
  have no := expression_a levels closed
  have turn : conditionalRest (ofLevels (levels + 1)) e ('?' :: 'a' :: ':' :: 'a' :: rest) =
      (do
        let yes ← spaced (ofLevels (levels + 1)).expression
        char ':'
        let no ← (ofLevels (levels + 1)).expression
        return .conditional e yes no : Parser Expr) ('a' :: ':' :: 'a' :: rest) := rfl
  have colon : char ':' (':' :: 'a' :: rest) = .ok ((), 'a' :: rest) := rfl
  rw [turn, bind_ok yes, bind_ok colon, bind_ok no, pure_run]

/-- The text of greatest height is read as its tree. -/
theorem expression_deepest (n : Nat) {rest : List Char} (closed : Closed rest) :
    (ofLevels (n + 1)).expression (deepest n rest) = .ok (deepestExpr n, rest) := by
  induction n generalizing rest with
  | zero =>
    have turn : (ofLevels 1).expression (deepest 0 rest) =
        (tierStep none tierCount >>= conditionalRest (ofLevels 0)) (deepest 0 rest) := rfl
    have operand : unaryStep none (deepest 0 rest) = .ok (.map [], rest) :=
      unaryStep_emptyMap (closed.toEnds.fewer (Nat.zero_le _))
    rw [turn, bind_ok (tierStep_ends operand closed.toEnds), conditionalRest_closed _ closed]
    rfl
  | succ n ih =>
    -- Each chain ends in front of the next one, so the texts are followed from the last one on.
    have last := ends_question ('a' :: ':' :: 'a' :: rest)
    have turn (s : List Char) : (ofLevels (n + 2)).expression s =
        (tierStep (belowOf (n + 1)) tierCount >>= conditionalRest (ofLevels (n + 1))) s := rfl
    have item (after : List Char) : (ofLevels (n + 1)).expression (deepest n (']' :: after)) =
        .ok (deepestExpr n, ']' :: after) := ih (closed_bracket after)
    have or := joins_or.chain (last.fewer (by decide)) (n + 1)
    have and := joins_and.chain (or.fewer (by decide)) (n + 1)
    have eq := joins_eq.chain (and.fewer (by decide)) (n + 1)
    have lt := joins_lt.chain (eq.fewer (by decide)) (n + 1)
    have add := joins_add.chain (lt.fewer (by decide)) (n + 1)
    have mul := joins_mul.chain (add.fewer (by decide)) (n + 1)
    have fields := postfixRest_chain mul (n + 1) (.list [deepestExpr n])
    have operand := unaryStep_list (skipSpace_deepest n _) (item _) fields
    have joinedAll := tierStep_chain joins_or last <| tierStep_chain joins_and or <|
      tierStep_chain joins_eq and <| tierStep_chain joins_lt eq <| tierStep_chain joins_add lt <|
      tierStep_chain joins_mul add operand
    refine (turn _).trans ((bind_ok joinedAll).trans ?_)
    exact conditionalRest_a n closed _

/-! ### Programs -/

/-- The program that returns an expression of greatest height. -/
def deepestSource (n : Nat) : List Char :=
  ['r', 'e', 't', 'u', 'r', 'n'] ++ deepest n []

theorem plain_chain (word : List Char) (plain : word.all isPlain = true) {rest : List Char}
    (after : ∀ c ∈ rest, isPlain c = true) (n : Nat) :
    ∀ c ∈ chain word n rest, isPlain c = true := by
  induction n with
  | zero => exact after
  | succ n ih =>
    rw [chain, List.forall_mem_append, List.forall_mem_cons]
    exact ⟨List.all_eq_true.1 plain, rfl, ih⟩

private theorem plain_deepest (n : Nat) {rest : List Char} (after : ∀ c ∈ rest, isPlain c = true) :
    ∀ c ∈ deepest n rest, isPlain c = true := by
  induction n generalizing rest with
  | zero =>
    rw [deepest, List.forall_mem_cons, List.forall_mem_cons]
    exact ⟨rfl, rfl, after⟩
  | succ n ih =>
    have last : ∀ c ∈ ['?', 'a', ':', 'a'] ++ rest, isPlain c = true :=
      List.forall_mem_append.2 ⟨List.all_eq_true.1 rfl, after⟩
    have or := plain_chain ['|', '|'] rfl last (n + 1)
    have and := plain_chain ['&', '&'] rfl or (n + 1)
    have eq := plain_chain ['=', '='] rfl and (n + 1)
    have lt := plain_chain ['<'] rfl eq (n + 1)
    have add := plain_chain ['+'] rfl lt (n + 1)
    have mul := plain_chain ['*'] rfl add (n + 1)
    have fields := plain_chain ['.'] rfl mul (n + 1)
    rw [deepest, List.forall_mem_cons]
    exact ⟨rfl, ih (List.forall_mem_cons.2 ⟨rfl, fields⟩)⟩

private theorem statement_deepest (n : Nat) :
    (ofLevels (n + 2)).statement (deepestSource n) =
      .ok (.ret (some (deepestExpr n)), []) := by
  have apart : Apart (deepest n []) := by
    intro c cs same
    cases n <;> (cases same; rfl)
  exact statement_return apart (expression_deepest n closed_nil) rfl

private theorem tier_nil (levels tier : Nat) :
    (ofLevels levels).tier tier [] = .error .mismatch := by
  rw [ofLevels_eq_step]
  change tierStep (belowOf levels) tier [] = _
  induction tier with
  | zero => rfl
  | succ tier ih => rw [tierStep, bind_mismatch ih]

/-- No statement stands at the end of a text. -/
theorem statement_nil (n : Nat) : (ofLevels (n + 2)).statement [] = .error .mismatch := by
  have value : (ofLevels (n + 1)).expression [] = .error .mismatch := by
    have turn : (ofLevels (n + 1)).expression [] =
        ((ofLevels n).tier tierCount >>= conditionalRest (ofLevels n)) [] := rfl
    rw [turn, bind_mismatch (tier_nil n tierCount)]
  have turn : (ofLevels (n + 2)).statement [] = expressionStatement (ofLevels (n + 1)) [] := rfl
  rw [turn, expressionStatement, bind_mismatch value]

/-- A program of one statement that is the whole text. -/
theorem parseProgram_single {n : Nat} {source : String} {stmt : Stmt}
    (kept : removeComments source.toList = source.toList) (nonempty : source.toList ≠ [])
    (read : (ofLevels (n + 2)).statement source.toList = .ok (stmt, [])) :
    parseProgram (n + 2) source = .ok [stmt] := by
  have statements : many (ofLevels (n + 2)).statement source.toList = .ok ([stmt], []) := by
    obtain ⟨c, more, letters⟩ := List.exists_cons_of_ne_nil nonempty
    rw [letters] at read ⊢
    rw [many, manyFrom, read]
    dsimp only
    rw [manyFrom, statement_nil]
    rfl
  rw [parseProgram, kept, statements]
  rfl

theorem parseProgram_deepest (n : Nat) :
    parseProgram (n + 2) (String.ofList (deepestSource n)) =
      .ok [.ret (some (deepestExpr n))] := by
  have plain : ∀ c ∈ deepestSource n, isPlain c = true := by
    rw [deepestSource, List.forall_mem_append]
    exact ⟨List.all_eq_true.1 rfl, plain_deepest n (List.forall_mem_nil _)⟩
  refine parseProgram_single ?_ ?_ ?_
  · rw [String.toList_ofList, removeComments_plain plain]
  · rw [String.toList_ofList]
    exact List.cons_ne_nil _ _
  · rw [String.toList_ofList]
    exact statement_deepest n

/-- Within a limit, programs are as high as `treeBound` says and no higher. So their height stays
within the limit itself only if that is at most two. -/
theorem parseProgram_height (limit : Nat) :
    ((∀ source program, parseProgram limit source = .ok program →
        Stmt.heightBody program ≤ limit) ↔ limit ≤ 2) ∧
    (∀ source program, parseProgram limit source = .ok program →
      Stmt.heightBody program ≤ treeBound limit) ∧
    (2 ≤ limit → ∃ source program, parseProgram limit source = .ok program ∧
      Stmt.heightBody program = treeBound limit) := by
  have highest (n : Nat) : ∃ source program, parseProgram (n + 2) source = .ok program ∧
      Stmt.heightBody program = treeBound (n + 2) := by
    refine ⟨_, _, parseProgram_deepest n, ?_⟩
    rw [Stmt.heightBody, Stmt.heightBody, Stmt.height, height_deepestExpr, Nat.max_zero, treeBound]
  refine ⟨⟨?_, ?_⟩, ?_, ?_⟩
  · intro within
    apply Nat.le_of_not_lt
    intro three
    -- From three levels on the highest program is higher than the limit.
    obtain ⟨n, rfl⟩ : ∃ n, limit = n + 1 + 2 := ⟨limit - 3, by omega⟩
    obtain ⟨source, program, parsed, height⟩ := highest (n + 1)
    have bounded := within source program parsed
    rw [height, treeBound, expressionBound] at bounded
    omega
  · intro small source program parsed
    have bounded := heightBody_le_treeBound parsed
    have same : treeBound limit = limit := by
      have cases : limit = 0 ∨ limit = 1 ∨ limit = 2 := by omega
      rcases cases with rfl | rfl | rfl <;> rfl
    rwa [same] at bounded
  · intro source program parsed
    exact heightBody_le_treeBound parsed
  · intro two
    obtain ⟨n, rfl⟩ : ∃ n, limit = n + 2 := ⟨limit - 2, by omega⟩
    exact highest n

/-- Operators of different tiers in one expression are enough to exceed the limit. -/
theorem not_height_le_limit :
    ∃ program, parseProgram 3 "a*b+c==d" = .ok program ∧ ¬ Stmt.heightBody program ≤ 3 := by
  have high : (parseProgram 3 "a*b+c==d").toOption.any (3 < Stmt.heightBody ·) = true := by
    decide +kernel
  cases parsed : parseProgram 3 "a*b+c==d" with
  | error e =>
    rw [parsed] at high
    cases high
  | ok program =>
    rw [parsed] at high
    exact ⟨program, rfl, Nat.not_le_of_lt (of_decide_eq_true high)⟩

end Relay.Script
