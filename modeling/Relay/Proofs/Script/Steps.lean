import Relay.Proofs.Script.Metering

/-! # The steps of a run

A run counts a step for each statement and each expression that it comes to, and it comes to each
node of its program at most once. A text pays two nodes with each of its characters, so no run
counts more steps than twice the length of its text.
-/

namespace Relay.Script

/-- The number of steps that a run of a program on a store counts until it ends. -/
def countedSteps (setting : Setting) (program : Program) (store : Store) : Nat :=
  (execList setting program (Point.start program store).state).2.meter.steps

namespace MeterLaw

/-- No more steps are counted than may be. -/
def counting (setting : Setting) : MeterLaw setting where
  Leads n m _ after := after.steps ≤ m.steps + n
  stay _ := Nat.le_refl _
  fail _ _ _ := Nat.le_refl _
  more fewer led := Nat.le_trans led (Nat.add_le_add_left fewer _)
  trans first second := by omega
  tick m := by simp only [tick_eq, Nat.le_refl]
  giveWay m := by
    rw [giveWay_eq]
    split <;> exact Nat.le_refl _
  note _ _ := Nat.le_refl _
  pass delay m := by
    rw [pass_eq]
    split
    · split <;> exact Nat.le_refl _
    · exact Nat.le_refl _

end MeterLaw

/-- A program takes at most as many steps as it has nodes. -/
theorem countedSteps_le_cost (setting : Setting) (program : Program) (store : Store) :
    countedSteps setting program store ≤ Stmt.costBody .perNode program := by
  have obeys : Obeys (.counting setting) RunState.meter _ (execList setting program) :=
    obeys_execList program
  exact Nat.le_trans (obeys (Point.start program store).state) (Nat.le_of_eq (Nat.zero_add _))

/-- No run counts more steps than twice the number of characters of its text. -/
theorem countedSteps_le (setting : Setting) {limit : Nat} {source : String} {program : Program}
    (parsed : parseProgram limit source = .ok program) (store : Store) :
    countedSteps setting program store ≤ 2 * source.length := by
  have nodes := countedSteps_le_cost setting program store
  have paid : _ ≤ total (fun _ => 2) source.toList := costBody_le_total .perNode parsed
  rw [total_const, String.length_toList] at paid
  exact Nat.le_trans nodes paid

/-- A declaration, a comment and a condition that is taken. -/
theorem countedSteps_le_condition :
    ∃ program, parseProgram 8 "let n=0/**/;if(!n)n" = .ok program ∧
      countedSteps .offline program Dict.empty = 7 ∧ 7 ≤ 2 * "let n=0/**/;if(!n)n".length := by
  have counted : (parseProgram 8 "let n=0/**/;if(!n)n").toOption.map
      (countedSteps .offline · Dict.empty) = some 7 := by
    decide +kernel
  cases parsed : parseProgram 8 "let n=0/**/;if(!n)n" with
  | error _ =>
    rw [parsed] at counted
    cases counted
  | ok program =>
    rw [parsed] at counted
    have seven : countedSteps .offline program Dict.empty = 7 := Option.some.inj counted
    have bound := countedSteps_le .offline parsed Dict.empty
    rw [seven] at bound
    exact ⟨program, rfl, seven, bound⟩

end Relay.Script
