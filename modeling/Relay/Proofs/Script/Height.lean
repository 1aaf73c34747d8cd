import Relay.Proofs.Script.Rules
import Relay.Script.Grammar

/-! # Height of a program

The parser holds a level while it reads an operator, a step of a postfix chain, a conditional, an
element of a literal or a statement. But it gives the levels of an operand back before it goes on
with what follows the operand, so all six tiers of operators and the postfix chain may each use all
levels that are left, and the tree may be higher than there are levels. `treeBound` is the greatest
height that so many levels allow.
-/

namespace Relay.Script

mutual

/-- The number of operators, fields, indices, calls, conditionals, lists, maps and templates on the
longest path down. -/
def Expr.height : Expr → Nat
  | template holes _ => 1 + heightEntries holes
  | list items => 1 + heightItems items
  | map entries => 1 + heightEntries entries
  | field base _ => 1 + base.height
  | index base key => 1 + max base.height key.height
  | unary _ operand => 1 + operand.height
  | binary _ left right => 1 + max left.height right.height
  | conditional condition yes no => 1 + max condition.height (max yes.height no.height)
  | call _ args => 1 + heightItems args
  | invoke _ _ args => 1 + heightItems args
  | null => 0
  | bool _ => 0
  | int _ => 0
  | float _ => 0
  | string _ => 0
  | ident _ => 0

/-- The greatest height of the items, zero if there are none. -/
def Expr.heightItems : List Expr → Nat
  | [] => 0
  | e :: rest => max e.height (heightItems rest)

/-- The greatest height of the values, zero if there are none. -/
def Expr.heightEntries : List (String × Expr) → Nat
  | [] => 0
  | (_, e) :: rest => max e.height (heightEntries rest)

end

/-- The height of what the steps of a target are computed from; the steps themselves do not
count. -/
def Place.height (place : Place) : Nat :=
  place.path.foldr (fun step height =>
    match step with
    | .field _ => height
    | .index key => max key.height height) 0

mutual

/-- The number of statements on the longest path down, and the height of the expression that it
goes on into. -/
def Stmt.height : Stmt → Nat
  | declare _ _ value => 1 + value.height
  | assign place _ value => 1 + max place.height value.height
  | branch condition yes no => 1 + max condition.height (max (heightBody yes) (heightBody no))
  | ret none => 1
  | ret (some value) => 1 + value.height
  | block body => 1 + heightBody body
  | eval value => 1 + value.height

/-- The greatest height of the statements, zero if there are none. -/
def Stmt.heightBody : List Stmt → Nat
  | [] => 0
  | stmt :: rest => max stmt.height (heightBody rest)

end

theorem Expr.heightItems_le {bound : Nat} {items : List Expr} :
    heightItems items ≤ bound ↔ ∀ e ∈ items, e.height ≤ bound := by
  induction items with
  | nil => simp [heightItems]
  | cons e rest ih => rw [heightItems, Nat.max_le, ih, List.forall_mem_cons]

theorem Expr.heightEntries_le {bound : Nat} {entries : List (String × Expr)} :
    heightEntries entries ≤ bound ↔ ∀ entry ∈ entries, entry.2.height ≤ bound := by
  induction entries with
  | nil => simp [heightEntries]
  | cons entry rest ih => rw [heightEntries, Nat.max_le, ih, List.forall_mem_cons]

theorem Stmt.heightBody_le {bound : Nat} {body : List Stmt} :
    heightBody body ≤ bound ↔ ∀ stmt ∈ body, stmt.height ≤ bound := by
  induction body with
  | nil => simp [heightBody]
  | cons stmt rest ih => rw [heightBody, Nat.max_le, ih, List.forall_mem_cons]

theorem Place.height_le {bound : Nat} {place : Place}
    (keys : ∀ key, .index key ∈ place.path → key.height ≤ bound) : place.height ≤ bound := by
  obtain ⟨root, path⟩ := place
  rw [height]
  induction path with
  | nil => exact Nat.zero_le _
  | cons step rest ih =>
    have below := ih fun key member => keys key (List.mem_cons_of_mem _ member)
    cases step with
    | field name => exact below
    | index key => exact Nat.max_le.2 ⟨keys key List.mem_cons_self, below⟩

/-! ## Bounds -/

/-- The greatest height of an expression. -/
def expressionBound : Nat → Nat
  | 0 => 0
  | 1 => 1
  | levels + 2 => 2 + 7 * (levels + 1) + expressionBound (levels + 1)

/-- The greatest height of an operand with what stands in front of and behind it. -/
def operandBound (levels : Nat) : Nat :=
  1 + expressionBound levels + levels

/-- The greatest height of an expression of the first so many tiers. -/
def tierBound (levels tier : Nat) : Nat :=
  operandBound levels + tier * levels

/-- The greatest height of a program. -/
def treeBound : Nat → Nat
  | 0 => 0
  | levels + 1 => 1 + expressionBound levels

theorem expressionBound_succ (levels : Nat) :
    expressionBound (levels + 1) =
      if levels = 0 then tierBound levels Grammar.tierCount
      else 1 + tierBound levels Grammar.tierCount := by
  cases levels with
  | zero => rfl
  | succ levels =>
    rw [if_neg (Nat.succ_ne_zero levels), expressionBound, tierBound, operandBound,
      Grammar.tierCount]
    omega

theorem expressionBound_le_succ (levels : Nat) :
    expressionBound levels ≤ expressionBound (levels + 1) := by
  cases levels with
  | zero => decide
  | succ levels =>
    rw [expressionBound]
    omega

theorem operandBound_lt_succ (levels : Nat) :
    operandBound levels < operandBound (levels + 1) := by
  have less := expressionBound_le_succ levels
  rw [operandBound, operandBound]
  omega

theorem tierBound_le_succ (levels tier : Nat) :
    tierBound levels tier ≤ tierBound (levels + 1) tier := by
  have less := operandBound_lt_succ levels
  rw [tierBound, tierBound, Nat.mul_succ]
  omega

theorem treeBound_le_expressionBound {levels : Nat} (some : 0 < levels) :
    treeBound levels ≤ expressionBound levels := by
  obtain ⟨below, rfl⟩ : ∃ below, levels = below + 1 := ⟨levels - 1, by omega⟩
  cases below with
  | zero => decide
  | succ below =>
    rw [treeBound, expressionBound]
    omega

end Relay.Script
