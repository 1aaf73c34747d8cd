import Relay.Proofs.Script.InPlace
import Relay.Proofs.Script.Deadline

/-! # What a failure leaves

A statement that fails writes nothing to the store, even where the scope is changed in place. So a
run that fails leaves what the store was right after the last assignment that it completed, and what
is not run leaves the store alone.
-/

namespace Relay.Script

open Running

variable {setting : Setting}

namespace InPlace

/-- Computations that agree end alike, with the same meter and the same store. -/
theorem Agrees.ends {α : Type} {x y : Running α} (agrees : Agrees x y) (st : RunState) :
    (y st).1 = (x st).1 ∧ (y st).2.meter = (x st).2.meter ∧
      (y st).2.scope.store = (x st).2.scope.store := by
  have same := agrees st
  rcases ran : x st with ⟨e | a, after⟩
  · rw [ran] at same
    obtain ⟨left, failed, meter, store⟩ := same
    rw [failed]
    exact ⟨rfl, meter, store⟩
  · rw [ran] at same
    rw [show y st = _ from same]
    exact ⟨rfl, rfl, rfl⟩

/-- An assignment that fails in place leaves the store, whatever it has done before. -/
theorem exec_assign_failed {place : Place} {op : AssignOp} {value : Expr} {st left : RunState}
    {e : ScriptError} (failed : exec setting (.assign place op value) st = (.error e, left)) :
    left.scope.store = st.scope.store := by
  obtain ⟨result, -, store⟩ := (agrees_exec (.assign place op value)).ends st
  rw [failed] at result store
  rcases whole : Script.exec setting (.assign place op value) st with ⟨ended, after⟩
  rw [whole] at result store
  have last : ended ≠ .ok .next := fun next => nomatch result.trans next
  exact store.trans (congrArg Scope.store (exec_scope rfl whole last))

end InPlace

namespace Point

variable {p q last : Point} {n : Nat}

/-- The next statement is an assignment. -/
def Assigns (p : Point) : Prop :=
  ∃ place op value rest, p.pending = .assign place op value :: rest

/-- Of all points that a run gets to in a number of steps, the one right after the last assignment,
or the first one if there is no assignment among the steps. -/
def Settled (setting : Setting) (p : Point) (n : Nat) (q : Point) : Prop :=
  ∃ k ≤ n, p.after? setting k = some q ∧
    (k = 0 ∨ ∃ before, p.after? setting (k - 1) = some before ∧ before.Assigns) ∧
    ∀ j between, k ≤ j → j < n → p.after? setting j = some between → ¬ between.Assigns

theorem after?_succ (n : Nat) (p : Point) :
    p.after? setting (n + 1) = (p.after? setting n).bind (·.next? setting) := by
  induction n generalizing p with
  | zero =>
    rw [after?, after?, Option.bind_some]
    exact Option.bind_fun_some _
  | succ n ih =>
    rw [after?, after?, Option.bind_assoc]
    exact congrArg _ (funext ih)

/-- A step that is no assignment leaves the store. -/
theorem store_next?_of_not_assigns (moved : p.next? setting = some q) (other : ¬ p.Assigns) :
    q.state.scope.store = p.state.scope.store := by
  have nothing : p.write? setting = none := by
    obtain ⟨pending, st, written⟩ := p
    cases pending with
    | nil => rfl
    | cons s rest =>
      cases s with
      | assign place op value => exact (other ⟨place, op, value, rest, rfl⟩).elim
      | _ => rfl
  rw [store_next? moved, nothing]
  rfl

/-- Since the last assignment the store has not changed. -/
theorem exists_settled (reached : p.after? setting n = some last) :
    ∃ q, p.Settled setting n q ∧ q.state.scope.store = last.state.scope.store := by
  induction n generalizing last with
  | zero => exact ⟨last, ⟨0, Nat.le_refl 0, reached, .inl rfl, nofun⟩, rfl⟩
  | succ n ih =>
    rw [after?_succ] at reached
    obtain ⟨before, arrived, moved⟩ := Option.bind_eq_some_iff.1 reached
    by_cases assigns : before.Assigns
    · refine ⟨last, ⟨n + 1, Nat.le_refl _, ?_, .inr ⟨before, arrived, assigns⟩, ?_⟩, rfl⟩
      · rw [after?_succ]
        exact reached
      · intro j _ since until_
        omega
    · obtain ⟨q, ⟨k, early, there, assigned, none_since⟩, same⟩ := ih arrived
      refine ⟨q, ⟨k, Nat.le_succ_of_le early, there, assigned, ?_⟩,
        same.trans (store_next?_of_not_assigns moved assigns).symm⟩
      intro j between since until_ found
      rcases Nat.lt_succ_iff_lt_or_eq.1 until_ with earlier | rfl
      · exact none_since j between since earlier found
      · rw [arrived] at found
        cases found
        exact assigns

end Point

section Runs

variable (host : Host) {limits : Limits} {source : String} (store : Store)

/-- A script that is too long or cannot be read is not run. -/
theorem Host.run_refused (refused : limits.maxSourceBytes < source.utf8ByteSize ∨
    ∃ cause, parseProgram limits.maxNesting source = .error cause) :
    (host.run limits source store).store = store := by
  rw [Host.run]
  split
  · rfl
  rename_i short
  obtain long | ⟨cause, parsed⟩ := refused
  · exact absurd long short
  · rw [parsed]

theorem Host.run_program {program : Program}
    (short : ¬ limits.maxSourceBytes < source.utf8ByteSize)
    (parsed : parseProgram limits.maxNesting source = .ok program) :
    (host.run limits source store).result =
        (runProgram (host.setting limits) program store).result.map Control.toJson ∧
      (host.run limits source store).store =
        (runProgram (host.setting limits) program store).store := by
  rw [Host.run, if_neg short, parsed]
  exact ⟨rfl, rfl⟩

/-- A run that fails does so at the last of its points, with the store as it was right after the
last assignment before. -/
theorem Host.run_failed {program : Program} {e : ScriptError}
    (short : ¬ limits.maxSourceBytes < source.utf8ByteSize)
    (parsed : parseProgram limits.maxNesting source = .ok program)
    (failed : (host.run limits source store).result = .error e) :
    ∃ n last q, (Point.start program store).after? (host.setting limits) n = some last ∧
      last.next? (host.setting limits) = none ∧
      (execList (host.setting limits) last.pending last.state).1 = .error e ∧
      (Point.start program store).Settled (host.setting limits) n q ∧
      (host.run limits source store).store = q.state.scope.store := by
  obtain ⟨result, left⟩ := Host.run_program host store short parsed
  have ended : (runProgram (host.setting limits) program store).result = .error e := by
    rw [result] at failed
    cases given : (runProgram (host.setting limits) program store).result with
    | ok control => rw [given] at failed; cases failed
    | error e => rw [given] at failed; exact congrArg _ (Except.error.inj failed)
  obtain ⟨n, last, reached, stopped, same⟩ :=
    Point.exists_last (host.setting limits) (.start program store)
  obtain ⟨q, settled, before⟩ := Point.exists_settled reached
  refine ⟨n, last, q, reached, stopped, ?_, settled, ?_⟩
  · rw [← Point.execList_after? reached]
    exact ended
  · exact left.trans ((congrArg Scope.store same).trans before.symm)

end Runs

/-- What fails leaves the store alone. An expression that is evaluated in place, with success or
not, leaves the scope; an assignment to the store that fails in place leaves the store, at whatever
point of its work it fails; and statements that are run in place end as with whole writes, with the
same meter and the same store. So after a run that fails, or that is cut off in a step, in a wait or
where it gives way, at whatever time it has used up what it has, the store is what it was right
after the last assignment that was completed, at the start if none was, and it is as it was before
if the script is too long or cannot be read. -/
theorem Host.run_failed_store (setting : Setting) (host : Host) (limits : Limits) :
    (∀ e st, (InPlace.eval setting e st).2.scope = st.scope ∧
      InPlace.eval setting e st = evaluate setting e st) ∧
    (∀ place op value st e left, isStoreName place.root →
      InPlace.exec setting (.assign place op value) st = (.error e, left) →
      left.scope.store = st.scope.store) ∧
    (∀ statements st,
      (InPlace.execList setting statements st).1 = (execList setting statements st).1 ∧
      (InPlace.execList setting statements st).2.meter =
        (execList setting statements st).2.meter ∧
      (InPlace.execList setting statements st).2.scope.store =
        (execList setting statements st).2.scope.store) ∧
    (∀ source store, (limits.maxSourceBytes < source.utf8ByteSize ∨
        ∃ cause, parseProgram limits.maxNesting source = .error cause) →
      (host.run limits source store).store = store) ∧
    ∀ source store program e, ¬ limits.maxSourceBytes < source.utf8ByteSize →
      parseProgram limits.maxNesting source = .ok program →
      (host.run limits source store).result = .error e →
      ∃ n last q, (Point.start program store).after? (host.setting limits) n = some last ∧
        last.next? (host.setting limits) = none ∧
        (execList (host.setting limits) last.pending last.state).1 = .error e ∧
        (Point.start program store).Settled (host.setting limits) n q ∧
        (host.run limits source store).store = q.state.scope.store := by
  refine ⟨fun e st => ?_, fun _ _ _ _ _ _ _ failed => InPlace.exec_assign_failed failed,
    fun statements st => (InPlace.agrees_execList statements).ends st,
    fun source store refused => Host.run_refused host store refused,
    fun source store program e short parsed failed =>
      Host.run_failed host store short parsed failed⟩
  rw [InPlace.eval_eq_evaluate]
  exact ⟨steady_evaluate setting e st, rfl⟩

/-- The script fails on the way to a field of a text. It has completed two assignments, and it does
not get to the last one. -/
theorem Host.run_failed_store_onText :
    let limits : Limits := { maxNesting := 8 }
    let host : Host := {}
    let source := "ctx.a=true;ctx.b='';if(ctx.a){ctx.b.x.y=true}ctx.c=true"
    let out := host.run limits source Dict.empty
    failure? out.result = some (.mismatch (.assign (.name "x") .string)) ∧
      out.store.entries.map (·.1) = ["a", "b"] ∧
      ∃ program n q, (Point.start program Dict.empty).Settled (host.setting limits) n q ∧
        out.store = q.state.scope.store := by
  intro limits host source out
  have failed : failure? out.result = some (.mismatch (.assign (.name "x") .string)) := by
    decide +kernel
  have written : out.store.entries.map (·.1) = ["a", "b"] := by decide +kernel
  refine ⟨failed, written, ?_⟩
  have short : ¬ limits.maxSourceBytes < source.utf8ByteSize := by decide
  obtain ⟨-, -, -, refused, run⟩ := Host.run_failed_store Setting.offline host limits
  cases parsed : parseProgram limits.maxNesting source with
  | error cause =>
    rw [show out.store = Dict.empty from refused _ _ (.inr ⟨cause, parsed⟩)] at written
    cases written
  | ok program =>
    cases result : out.result with
    | ok j => rw [result] at failed; cases failed
    | error e =>
      obtain ⟨n, last, q, -, -, -, settled, store⟩ := run _ _ program e short parsed result
      exact ⟨program, n, q, settled, store⟩

end Relay.Script
