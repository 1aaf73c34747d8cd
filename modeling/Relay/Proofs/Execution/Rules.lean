import Relay.Execution.Interpreter
import Relay.Proofs.Except

/-! # Rules for executions

An invariant of the state and a class of permitted errors pass through a computation part by part:
there is one rule for each way in which computations are put together, and one for each that reads
or changes the state.
-/

namespace Relay.Executing

variable {α β : Type} {I : ExecutionState → Prop} {E : ExecutionError → Prop}

/-- The computation keeps the invariant, and it fails only with a permitted error. -/
def Keeps (I : ExecutionState → Prop) (E : ExecutionError → Prop) (x : Executing α) : Prop :=
  ∀ st, I st → I (x st).2 ∧ ∀ e, (x st).1 = .error e → E e

theorem keeps_pure (value : α) : Keeps I E (pure value : Executing α) := by
  intro st held
  exact ⟨held, nofun⟩

theorem keeps_throw {e : ExecutionError} (permitted : E e) :
    Keeps I E (throw e : Executing α) := by
  intro st held
  refine ⟨held, ?_⟩
  intro e' failed
  cases failed
  exact permitted

theorem keeps_get : Keeps I E (get : Executing ExecutionState) := by
  intro st held
  exact ⟨held, nofun⟩

theorem keeps_modify {f : ExecutionState → ExecutionState} (kept : ∀ st, I st → I (f st)) :
    Keeps I E (modify f : Executing Unit) := by
  intro st held
  exact ⟨kept st held, nofun⟩

theorem bind_error {x : Executing α} {f : α → Executing β} {e : ExecutionError}
    {st after : ExecutionState} (failed : x st = (.error e, after)) :
    (x >>= f) st = (.error e, after) := by
  rw [bind_apply, failed]

theorem Keeps.bind {x : Executing α} {f : α → Executing β} (first : Keeps I E x)
    (second : ∀ value, Keeps I E (f value)) : Keeps I E (x >>= f) := by
  intro st held
  obtain ⟨between, permitted⟩ := first st held
  rw [bind_apply]
  cases ended : x st with
  | mk result after =>
    rw [ended] at between permitted
    cases result with
    | ok value => exact second value after between
    | error e =>
      refine ⟨between, ?_⟩
      intro e' failed
      apply permitted
      cases failed
      rfl

theorem keeps_ofExcept {ε : Type} {wrap : ε → ExecutionError} (permitted : ∀ e, E (wrap e))
    (result : Except ε α) : Keeps I E (ofExcept wrap result) := by
  cases result with
  | ok value => exact keeps_pure value
  | error e => exact keeps_throw (permitted e)

theorem keeps_repeated {once : Executing Flow} (kept : Keeps I E once) (n : Nat) :
    Keeps I E (repeated once n) := by
  induction n with
  | zero => exact keeps_pure none
  | succ n ih =>
    refine kept.bind fun flow => ?_
    cases flow with
    | ret value => exact keeps_pure (some value)
    | next value => exact ih

theorem keeps_times {once : Executing Unit} (kept : Keeps I E once) (n : Nat) :
    Keeps I E (times once n) := by
  induction n with
  | zero => exact keeps_pure ()
  | succ n ih => exact kept.bind fun _ => ih

end Relay.Executing
