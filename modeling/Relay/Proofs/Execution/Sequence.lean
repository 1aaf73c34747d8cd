import Relay.Proofs.Execution.Plan

/-! # Executions one after another

Neither the time at which a plan is carried out nor what was seen before it makes a difference to
it: carried out later it does the same things later, `run_followedBy`. So a list that follows
another one runs as it would from the store that the first one leaves, `execute_eq_andThen`.
-/

namespace Relay

/-- Effects of a computation and of one that starts when it ends. -/
def Effects.followedBy (first second : Effects) : Effects where
  elapsed := first.elapsed + second.elapsed
  events := first.events ++ second.events.shift first.elapsed
  tasks := first.tasks ++ second.tasks.map (Task.shift first.elapsed)

/-- Go on from the store that an execution leaves, unless it fails or returns. -/
def Interpreter.Ended.andThen (first : Ended) (later : Store → Ended) : Ended :=
  match first.result with
  | .ok (.next _) =>
    let second := later first.store
    ⟨second.result, second.store, first.effects.followedBy second.effects⟩
  | .ok (.ret _) => first
  | .error _ => first

theorem Events.shift_shift (m n : Nat) (events : Events) :
    (events.shift n).shift m = events.shift (m + n) := by
  simp only [Events.shift, List.map_map, Function.comp_def, Nat.add_assoc]

theorem Task.shift_shift (m n : Nat) (task : Task) :
    (task.shift n).shift m = task.shift (m + n) := by
  simp only [Task.shift, Events.shift_shift, Nat.add_assoc]

namespace ExecutionState

/-- The state after a part that was computed as if it had started at time zero. -/
def followedBy (st part : ExecutionState) : ExecutionState where
  store := part.store
  now := st.now + part.now
  events := part.events.shift st.now ++ st.events
  tasks := part.tasks.map (Task.shift st.now) ++ st.tasks

theorem followedBy_passed (st part : ExecutionState) (ms : Nat) :
    (st.followedBy part).passed ms = st.followedBy (part.passed ms) := by
  simp only [followedBy, passed, Nat.add_assoc]

theorem followedBy_absorbed (st part : ExecutionState) (effects : Effects) :
    (st.followedBy part).absorbed effects = st.followedBy (part.absorbed effects) := by
  have shifted : (Task.shift st.now ∘ Task.shift part.now) = Task.shift (st.now + part.now) :=
    funext fun task => Task.shift_shift st.now part.now task
  simp only [followedBy, absorbed, Nat.add_assoc, List.reverseAux_eq, List.map_append,
    List.map_reverse, List.map_map, shifted, List.append_assoc]
  simp only [Events.shift, List.map_append, List.map_reverse, List.map_map, Function.comp_def,
    Nat.add_assoc, List.append_assoc]

/-- A task that is launched later starts later. -/
theorem followedBy_forked (st part : ExecutionState) :
    (st.followedBy part).forked = st.forked.followedBy part.forked := rfl

theorem failureEvents_shift (kind : String) (start ended : Nat)
    (result : Except ExecutionError Flow) :
    Task.failureEvents kind (start + ended) result =
      (Task.failureEvents kind ended result).shift start := by
  cases result <;> rfl

theorem followedBy_launched (st part : ExecutionState) (action : Action) (depth : Nat)
    (result : Except ExecutionError Flow) (ended : ExecutionState) :
    (st.followedBy part).launched action depth (result, st.forked.followedBy ended) =
      st.followedBy (part.launched action depth (result, ended)) := by
  simp only [followedBy, launched, forked, failureEvents_shift, List.append_nil, List.map_append,
    List.map_cons, List.append_assoc, List.cons_append, Task.shift]
  simp only [Events.shift, List.map_append, List.map_reverse]

end ExecutionState

namespace Plan

open ExecutionState

/-- A plan that is carried out later does the same things later. -/
theorem run_followedBy (i : Interpreter) (plan : Plan) (st part : ExecutionState) :
    plan.run i (st.followedBy part) =
      ((plan.run i part).1, st.followedBy (plan.run i part).2) := by
  induction plan generalizing st part with
  | done flow => rfl
  | fail e => rfl
  | note event rest ih => exact ih st (part.noted event)
  | pass ms rest ih =>
    rw [run, followedBy_passed]
    exact ih st (part.passed ms)
  | look rest ih => exact ih part.store st part
  | keep key value rest ih => exact ih st (part.kept key value)
  | script source rest ih =>
    have later := followedBy_absorbed st { part with store := (i.scripts source part.store).store }
      (scriptEffects (i.scripts source part.store))
    change (rest _).run i (ExecutionState.absorbed _ _) = _
    exact (congrArg _ later).trans (ih _ st (part.scripted (i.scripts source part.store)))
  | send request rest ih =>
    rw [run, followedBy_absorbed]
    exact ih _ st (part.absorbed (i.dispatch request).effects)
  | launch action depth once rest ihOnce ih =>
    rw [run, followedBy_forked, ihOnce, followedBy_launched]
    exact ih st (part.launched action depth (once.run i part.forked))

/-- What a plan does from any state is what it does from the store of that state, only later. -/
theorem run_eq_followedBy (i : Interpreter) (plan : Plan) (st : ExecutionState) :
    plan.run i st = ((plan.run i { store := st.store }).1,
      st.followedBy (plan.run i { store := st.store }).2) :=
  run_followedBy i plan st { store := st.store }

end Plan

namespace Interpreter

open Plan

/-- How an execution ends whose plan ends in the given way. -/
def Ended.ofRun (ran : Except ExecutionError Flow × ExecutionState) : Ended :=
  ⟨ran.1, ran.2.store, ⟨ran.2.now, ran.2.events.reverse, ran.2.tasks.reverse⟩⟩

theorem execute_eq_run (i : Interpreter) (actions : List Action) (store : Store) :
    i.execute actions store = .ofRun ((whole i.config actions).run i { store }) := by
  rw [run_whole]
  rfl

private theorem ofRun_followedBy (result : Except ExecutionError Flow)
    (st part : ExecutionState) :
    Ended.ofRun (result, st.followedBy part) =
      ⟨result, part.store,
        (Ended.ofRun (result, st)).effects.followedBy (Ended.ofRun (result, part)).effects⟩ := by
  simp only [Ended.ofRun, ExecutionState.followedBy, Effects.followedBy, Events.shift,
    List.reverse_append, List.map_reverse]

/-- A list that follows another one runs as if it were run on the store that the first one leaves,
and only if the first one does not fail or return. -/
theorem execute_eq_andThen (i : Interpreter) (p q : List Action) (store : Store) :
    i.execute (p ++ q) store = (i.execute p store).andThen (i.execute q) := by
  rw [execute_eq_run, whole_append, run_andThen, execute_eq_run]
  cases (whole i.config p).run i { store } with
  | mk result st =>
    cases result with
    | error e => rfl
    | ok flow =>
      cases flow with
      | ret value => rfl
      | next value =>
        change Ended.ofRun ((whole i.config q).run i st) = _
        rw [run_eq_followedBy, ofRun_followedBy]
        simp only [Ended.andThen, Ended.ofRun, execute_eq_run]

end Interpreter

end Relay
