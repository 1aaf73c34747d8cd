import Relay.Proofs.Script.Charges
import Relay.Proofs.Script.Deepest

/-! # The length of assignment targets

A step of a postfix chain holds a level of the grammar while it is read; a step of an assignment
target holds none. So the limit on nesting does not bound the number of steps of a target: a text
with a limit of two or more may have targets of any length, and only the length of the text bounds
them, `parseProgram_targets`.
-/

namespace Relay.Script

open Relay.Script.Parser Grammar

mutual

/-- The places to which a statement and the statements inside it assign. -/
def Stmt.targets : Stmt → List Place
  | assign place _ _ => [place]
  | branch _ yes no => targetsIn yes ++ targetsIn no
  | block body => targetsIn body
  | declare _ _ _ => []
  | ret _ => []
  | eval _ => []

/-- The places to which statements assign. -/
def Stmt.targetsIn : List Stmt → List Place
  | [] => []
  | stmt :: rest => stmt.targets ++ targetsIn rest

end

/-! ## The text bounds the steps -/

theorem Place.steps_le_cost (place : Place) : 2 * place.path.length ≤ place.cost .perStep := by
  obtain ⟨root, path⟩ := place
  change 2 * path.length ≤ (path.map (PathStep.cost .perStep)).sum
  induction path with
  | nil => exact Nat.le_refl 0
  | cons step rest ih =>
    have two : 2 ≤ step.cost .perStep := by
      cases step with
      | field name => exact Nat.le_refl 2
      | index key => exact Nat.le_add_left 2 _
    rw [List.length_cons, List.map_cons, List.sum_cons]
    omega

mutual

theorem Stmt.steps_le_cost {place : Place} (stmt : Stmt) (member : place ∈ stmt.targets) :
    2 * place.path.length ≤ stmt.cost .perStep := by
  cases stmt with
  | assign target op value =>
    rw [targets, List.mem_singleton] at member
    have steps := place.steps_le_cost
    rw [cost, ← member]
    omega
  | branch condition yes no =>
    rw [targets, List.mem_append] at member
    rw [cost]
    rcases member with member | member
    · have steps := steps_le_costBody yes member
      omega
    · have steps := steps_le_costBody no member
      omega
  | block body =>
    rw [targets] at member
    have steps := steps_le_costBody body member
    rw [cost]
    omega
  | declare constant name value => cases member
  | ret value => cases member
  | eval value => cases member

theorem Stmt.steps_le_costBody {place : Place} (body : List Stmt)
    (member : place ∈ targetsIn body) : 2 * place.path.length ≤ costBody .perStep body := by
  cases body with
  | nil => cases member
  | cons stmt rest =>
    rw [targetsIn, List.mem_append] at member
    rw [costBody]
    rcases member with member | member
    · have steps := steps_le_cost stmt member
      omega
    · have steps := steps_le_costBody rest member
      omega

end

/-- A target has at most half as many steps as the text has characters. -/
theorem steps_le_length {limit : Nat} {source : String} {program : Program}
    (parsed : parseProgram limit source = .ok program) {target : Place}
    (member : target ∈ Stmt.targetsIn program) : 2 * target.path.length ≤ source.length := by
  have paid : _ ≤ total (fun _ => 1) source.toList := costBody_le_total .perStep parsed
  rw [total_const, String.length_toList, Nat.one_mul] at paid
  exact Nat.le_trans (Stmt.steps_le_costBody program member) paid

/-! ## One level is not enough for a program -/

/-- A loop over a parser that takes something at every turn ends where the parser mismatches. -/
private theorem manyFrom_ends {α : Type} {p : Parser α}
    (takes : ∀ s a rest, p s = .ok (a, rest) → rest.length < s.length) {bound s rest : List Char}
    {taken items : List α} (enough : s.length < bound.length)
    (read : manyFrom p bound taken s = .ok (items, rest)) : p rest = .error .mismatch := by
  induction bound generalizing s taken with
  | nil => exact absurd enough (Nat.not_lt_zero _)
  | cons _ bound ih =>
    rw [manyFrom] at read
    split at read
    · rename_i a after parsed
      have shorter := takes s a after parsed
      rw [List.length_cons] at enough
      exact ih (by omega) read
    · rename_i missed
      cases read
      exact missed
    · cases read

theorem Stmt.one_le_cost (stmt : Stmt) : 1 ≤ stmt.cost .perNode := by
  cases stmt with
  | ret value =>
    cases value with
    | none => exact Nat.le_refl 1
    | some e => exact Nat.le_add_right 1 _
  | branch condition yes no =>
    rw [cost, Nat.add_assoc, Nat.add_assoc]
    exact Nat.le_add_right 1 _
  | assign place op value =>
    rw [cost, Nat.add_assoc]
    exact Nat.le_add_right 1 _
  | _ => exact Nat.le_add_right 1 _

theorem orElse_ne_mismatch {α : Type} {p q : Parser α} {s : List Char}
    (never : q s ≠ .error .mismatch) : (p <|> q) s ≠ .error .mismatch := by
  intro missed
  change Parser.orElse p (fun _ => q) s = _ at missed
  rw [Parser.orElse] at missed
  split at missed
  · exact never missed
  · rename_i other
    exact other missed

/-- With one level an expression is too deep, so where no statement stands the text is refused as
too deep. -/
theorem statement_ne_mismatch {limit : Nat} (small : limit ≤ 1) (s : List Char) :
    (ofLevels limit).statement s ≠ .error .mismatch := by
  cases limit with
  | zero => exact nofun
  | succ below =>
    obtain rfl : below = 0 := by omega
    have last : expressionStatement (ofLevels 0) (Text.skipSpace s) ≠ .error .mismatch := nofun
    exact orElse_ne_mismatch <| orElse_ne_mismatch <| orElse_ne_mismatch <| orElse_ne_mismatch <|
      orElse_ne_mismatch <| orElse_ne_mismatch last

/-- Every program needs two levels, even the empty one. -/
theorem two_le_of_parseProgram {limit : Nat} {source : String} {program : Program}
    (parsed : parseProgram limit source = .ok program) : 2 ≤ limit := by
  refine Nat.le_of_not_lt fun few => ?_
  have takes : ∀ s stmt rest, (ofLevels limit).statement s = .ok (stmt, rest) →
      rest.length < s.length := by
    intro s stmt rest read
    have paid : _ ≤ 0 + total (fun _ => 2) s :=
      (pays_ofLevels .perNode limit).statement s stmt rest read
    have node := stmt.one_le_cost
    change stmt.cost .perNode + total (fun _ => 2) rest ≤ _ at paid
    rw [total_const, total_const] at paid
    omega
  rw [parseProgram] at parsed
  split at parsed
  · cases parsed
  · rename_i read
    exact statement_ne_mismatch (by omega) _ (manyFrom_ends takes (Nat.lt_succ_self _) read)

/-! ## Targets of any length -/

/-- A step up of a field of so many levels. -/
def climb (steps : Nat) : List Char :=
  'a' :: chain ['.'] steps ['+', '+']

/-- The place that steps up. -/
def climbed (steps : Nat) : Place :=
  ⟨"a", List.replicate steps (.field "a")⟩

private theorem length_climb (steps : Nat) : (climb steps).length = 2 * steps + 3 := by
  have behind : (chain ['.'] steps ['+', '+']).length = 2 * steps + 2 := by
    induction steps with
    | zero => rfl
    | succ steps ih =>
      rw [chain, List.length_append, List.length_cons, List.length_cons, ih, List.length_nil]
      omega
  rw [climb, List.length_cons, behind]

/-- Neither a field nor the operator goes on with the name before it, or starts with a space. -/
private theorem chain_front (steps : Nat) :
    Text.skipSpace (chain ['.'] steps ['+', '+']) = chain ['.'] steps ['+', '+'] ∧
      ∀ c cs, chain ['.'] steps ['+', '+'] = c :: cs → isNameChar c = false := by
  cases steps <;> exact ⟨rfl, fun c cs same => by cases same; decide⟩

private theorem placeRest_chain (g : Grammar) (steps : Nat) {bound : List Char}
    (taken : List PathStep) (enough : steps < bound.length) :
    placeRest g bound taken (chain ['.'] steps ['+', '+']) =
      .ok (taken.reverse ++ List.replicate steps (.field "a"), ['+', '+']) := by
  induction steps generalizing bound taken with
  | zero =>
    obtain ⟨turn, bound, rfl⟩ := List.exists_cons_of_length_pos enough
    rw [List.replicate_zero, List.append_nil]
    rfl
  | succ steps ih =>
    obtain ⟨turn, bound, rfl⟩ := List.exists_cons_of_length_pos (Nat.zero_lt_of_lt enough)
    obtain ⟨visible, word⟩ := chain_front steps
    have more : steps < bound.length := Nat.lt_of_succ_lt_succ enough
    have dot (rest : List Char) : Text.skipSpace ('.' :: rest) = '.' :: rest := rfl
    have onward : placeRest g (turn :: bound) taken (chain ['.'] (steps + 1) ['+', '+']) =
        placeRest g bound (.field "a" :: taken) (chain ['.'] steps ['+', '+']) := by
      simp only [chain, List.singleton_append, placeRest, dot, spaced_anyName_a visible word]
    rw [onward, ih _ more, List.reverse_cons, List.append_assoc, List.replicate_succ]
    rfl

private theorem statement_climb (n steps : Nat) :
    (ofLevels (n + 2)).statement (climb steps) =
      .ok (.assign (climbed steps) .add (.int 1), []) := by
  obtain ⟨visible, word⟩ := chain_front steps
  let g := ofLevels (n + 1)
  have turn : (ofLevels (n + 2)).statement (climb steps) =
      (emptyStatement <|> declaration g <|> branching g <|> returning g <|>
        (Stmt.block <$> block g) <|> assignment g <|> expressionStatement g) (climb steps) := rfl
  have empty : emptyStatement (climb steps) = .error .mismatch := rfl
  have declared : declaration g (climb steps) = .error .mismatch := rfl
  have branched : branching g (climb steps) = .error .mismatch := rfl
  have returned : returning g (climb steps) = .error .mismatch := rfl
  have blocks : (Stmt.block <$> block g) (climb steps) = .error .mismatch := rfl
  have root : name (climb steps) = .ok ("a", chain ['.'] steps ['+', '+']) := by
    rw [name, climb, bind_ok (anyName_a word)]
    rfl
  have long : steps < (chain ['.'] steps ['+', '+']).length := by
    have whole := length_climb steps
    rw [climb, List.length_cons] at whole
    omega
  have path := placeRest_chain g steps [] long
  have target : place g (climb steps) = .ok (climbed steps, ['+', '+']) := by
    rw [place, bind_ok root]
    exact bind_ok path
  have assigned : assignment g (climb steps) =
      .ok (.assign (climbed steps) .add (.int 1), []) := by
    rw [assignment, bind_ok target]
    rfl
  rw [turn, orElse_mismatch empty, orElse_mismatch declared, orElse_mismatch branched,
    orElse_mismatch returned, orElse_mismatch blocks, orElse_ok assigned]

theorem parseProgram_climb (n steps : Nat) :
    parseProgram (n + 2) (String.ofList (climb steps)) =
      .ok [.assign (climbed steps) .add (.int 1)] := by
  have plain : ∀ c ∈ climb steps, isPlain c = true := by
    rw [climb, List.forall_mem_cons]
    exact ⟨rfl, plain_chain ['.'] rfl (List.all_eq_true.1 rfl) steps⟩
  refine parseProgram_single ?_ ?_ ?_
  · rw [String.toList_ofList, removeComments_plain plain]
  · rw [String.toList_ofList]
    exact List.cons_ne_nil _ _
  · rw [String.toList_ofList]
    exact statement_climb n steps

/-- All targets of the programs within a limit have at most as many steps as the limit says only if
the limit is so small that there are no such programs. From two levels on there are targets of every
number of steps. What bounds the steps of a target is the text, which has two characters for each.
-/
theorem parseProgram_targets (limit : Nat) :
    ((∀ source program, parseProgram limit source = .ok program →
        ∀ target ∈ Stmt.targetsIn program, target.path.length ≤ limit) ↔ limit ≤ 1) ∧
    (∀ source program, parseProgram limit source = .ok program →
      ∀ target ∈ Stmt.targetsIn program, 2 * target.path.length ≤ source.length) ∧
    (2 ≤ limit → ∀ steps, ∃ source program, parseProgram limit source = .ok program ∧
      source.length = 2 * steps + 3 ∧ ∃ target ∈ Stmt.targetsIn program,
        target.path.length = steps) := by
  have any (two : 2 ≤ limit) (steps : Nat) : ∃ source program,
      parseProgram limit source = .ok program ∧ source.length = 2 * steps + 3 ∧
        ∃ target ∈ Stmt.targetsIn program, target.path.length = steps := by
    obtain ⟨n, rfl⟩ : ∃ n, limit = n + 2 := ⟨limit - 2, by omega⟩
    refine ⟨_, _, parseProgram_climb n steps, ?_, climbed steps, List.mem_cons_self, ?_⟩
    · rw [String.length_ofList, length_climb]
    · exact List.length_replicate
  refine ⟨⟨?_, ?_⟩, fun source program parsed target => steps_le_length parsed, any⟩
  · intro within
    refine Nat.le_of_not_lt fun two => ?_
    obtain ⟨source, program, parsed, -, target, member, steps⟩ := any two (limit + 1)
    have few := within source program parsed target member
    omega
  · intro small source program parsed
    have two := two_le_of_parseProgram parsed
    omega

/-- A program that writes to a place is within a limit that the one that reads it exceeds. -/
theorem not_steps_le_limit :
    (∃ program, parseProgram 2 "ctx.a.b.c=1" = .ok program ∧
      ¬ ∀ target ∈ Stmt.targetsIn program, target.path.length ≤ 2) ∧
    parseProgram 2 "return ctx.a.b.c" = .error (.tooDeep 2) := by
  have long : (parseProgram 2 "ctx.a.b.c=1").toOption.any
      (fun program => (Stmt.targetsIn program).any (2 < ·.path.length)) = true := by
    decide +kernel
  have refused : (match parseProgram 2 "return ctx.a.b.c" with
      | .error e => some e
      | .ok _ => none) = some (.tooDeep 2) := by
    decide +kernel
  constructor
  · cases parsed : parseProgram 2 "ctx.a.b.c=1" with
    | error e =>
      rw [parsed] at long
      cases long
    | ok program =>
      rw [parsed] at long
      obtain ⟨target, member, more⟩ := List.any_eq_true.1 long
      exact ⟨program, rfl, fun within =>
        Nat.not_le_of_lt (of_decide_eq_true more) (within target member)⟩
  · cases parsed : parseProgram 2 "return ctx.a.b.c" with
    | error e =>
      rw [parsed] at refused
      exact congrArg Except.error (Option.some.inj refused)
    | ok program =>
      rw [parsed] at refused
      cases refused

end Relay.Script
