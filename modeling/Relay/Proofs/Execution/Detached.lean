import Relay.Proofs.Execution.Blocking
import Relay.Proofs.Execution.Ends
import Relay.Proofs.Execution.Outcomes

/-! # Detached tasks

A task is launched with a copy of the store of its launcher, and nothing that happens afterwards
reaches it: whenever it gets its turns, it does what performing its action does from the moment of
the launch. What launched it goes on as if there were no task, `detached_apart`.
-/

namespace Relay

universe u

variable {W : Type u} {s : Surroundings W} {i : Interpreter}

/-- Whatever the plan launches is a repetition of an action that is not waited for. -/
def Plan.Faithful (config : ExecutionConfig) (plan : Plan) : Prop :=
  plan.Meets (fun _ => True) fun action depth once =>
    action.mode.wait = false ∧ once = ofAction config depth action

theorem Plan.faithful_whole (config : ExecutionConfig) (actions : List Action) :
    (whole config actions).Faithful config := by
  refine Meets.entering ?_ 1
  refine meets_ofList (fun _ => trivial) (fun a depth detached => ⟨detached, rfl⟩) 1 ?_
  exact Action.AllList.of_forall (fun _ _ _ _ => trivial) (fun _ => trivial) actions

/-- How a task of an action of some kind ends that ran in the given way. -/
def Ending.ofTask (kind : String) (ran : Except ExecutionError Flow × ExecutionState) : Ending :=
  { ofRun ran with
    events := ran.2.events.reverse ++ Task.failureEvents kind ran.2.now ran.1 }

theorem Plan.ofRun_reporting (kind : String) (plan : Plan) (st : ExecutionState) :
    Ending.ofRun ((plan.reporting kind).run i st) = .ofTask kind (plan.run i st) := by
  rw [run_reporting]
  rcases plan.run i st with ⟨e | flow, st⟩
  · simp only [Ending.ofRun, Ending.ofTask, ExecutionState.noted, Task.failureEvents,
      List.reverse_cons]
  · simp only [Ending.ofRun, Ending.ofTask, Task.failureEvents, List.append_nil]

/-! ## Launches in a pool -/

namespace Pool

/-- A thread of a pool is about to launch a repetition of an action. -/
structure Launching (m : Pool W) (j : Nat) (launcher : Thread) (action : Action) (depth : Nat) :
    Prop where
  found : m.threads[j]? = some launcher
  next : ∃ once rest, launcher.plan = .launch action depth once rest

/-- Whatever the threads of a pool launch is a repetition of an action that is not waited for. -/
def Faithful (config : ExecutionConfig) (m : Pool W) : Prop :=
  ∀ (k : Nat) (t : Thread), m.threads[k]? = some t → t.plan.Faithful config

variable {m : Pool W} {config : ExecutionConfig}

theorem faithful_start {plan : Plan} (faithful : plan.Faithful config) (store : Store) (world : W) :
    (start plan store world).Faithful config := by
  intro k t found
  cases k with
  | zero => cases found; exact faithful
  | succ k => cases found

theorem Faithful.act (faithful : m.Faithful config) (k : Nat) : (m.act s k).Faithful config := by
  rcases act_cases s k m with idle | ⟨t, turn, found, acted, after⟩
  · rw [idle]
    exact faithful
  · obtain ⟨left, launched⟩ := (faithful k t found).turn? acted
    intro j t' here
    rw [after] at here
    rcases threads_settle_cases turn found here with ⟨rfl, rfl⟩ | ⟨-, old⟩ | ⟨plan, task, rfl, rfl⟩
    · exact left
    · exact faithful j t' old
    · exact launched plan task

theorem Faithful.play (faithful : m.Faithful config) (schedule : List Nat) :
    (m.play s schedule).Faithful config := by
  induction schedule generalizing m with
  | nil => exact faithful
  | cons k schedule ih => exact ih (faithful.act k)

theorem future?_of_view? {k : Nat} {plan : Plan} {st : ExecutionState}
    (seen : m.view? k = some (plan, st)) : m.future? i k = some (.ofRun (plan.run i st)) := by
  rw [Pool.future?, seen]
  rfl

/-- A turn after which there is a new thread is a launch. -/
theorem launching_of_length {k : Nat}
    (grown : m.threads.length < (m.act s k).threads.length) :
    (m.act s k).threads.length = m.threads.length + 1 ∧
      ∃ launcher action depth, m.Launching k launcher action depth := by
  rcases act_cases s k m with idle | ⟨t, turn, found, acted, after⟩
  · rw [idle] at grown
    exact absurd grown (Nat.lt_irrefl _)
  · rw [after, length_settle] at grown ⊢
    cases plan : t.plan with
    | launch action depth once rest =>
      rw [plan] at acted
      cases acted
      exact ⟨rfl, t, action, depth, found, once, rest, plan⟩
    | _ =>
      rw [plan] at acted
      cases acted
      all_goals exact absurd grown (Nat.lt_irrefl _)

/-- Every thread that was not there at the start was launched. -/
theorem exists_launching {n : Nat} {schedule : List Nat} (young : m.threads.length ≤ n)
    (there : n < (m.play s schedule).threads.length) :
    ∃ before j after launcher action depth, schedule = before ++ j :: after ∧
      (m.play s before).threads.length = n ∧
      (m.play s before).Launching j launcher action depth := by
  induction schedule generalizing m with
  | nil => exact absurd there (Nat.not_lt.2 young)
  | cons k schedule ih =>
    by_cases now : n < (m.act s k).threads.length
    · obtain ⟨length, launcher, action, depth, launching⟩ :=
        launching_of_length (Nat.lt_of_le_of_lt young now)
      have last : m.threads.length = n := by omega
      exact ⟨[], k, schedule, launcher, action, depth, rfl, last, launching⟩
    · obtain ⟨before, j, after, launcher, action, depth, rfl, last, launching⟩ :=
        ih (Nat.not_lt.1 now) there
      exact ⟨k :: before, j, after, launcher, action, depth, rfl, last, launching⟩

/-- Whatever happens after a launch, the task comes to what its action comes to when it is performed
on the store at the launch. -/
theorem Launching.future? {j : Nat} {launcher : Thread} {action : Action} {depth : Nat}
    (launching : m.Launching j launcher action depth) (answers : s.AnswersAs i) (apart : m.Apart)
    (faithful : m.Faithful i.config) (after : List Nat) :
    action.mode.wait = false ∧
      (m.play s (j :: after)).future? i m.threads.length =
        some (.ofTask action.kind (i.perform depth action (m.stateOf launcher).forked)) := by
  obtain ⟨found, once, rest, plan⟩ := launching
  have own := faithful j launcher found
  rw [plan] at own
  obtain ⟨⟨detached, rfl⟩, -, -⟩ := own
  refine ⟨detached, ?_⟩
  let task := (Plan.ofAction i.config depth action).reporting action.kind
  have acted : m.act s j =
      m.settle j launcher ⟨rest, m.stateOf launcher, m.world, some task⟩ := by
    simp only [act, found, plan, Plan.turn?]
    rfl
  have length : m.threads.length < (m.act s j).threads.length := by
    rw [acted, length_settle]
    exact Nat.lt_succ_self _
  have view : (m.act s j).view? m.threads.length =
      some (task, (m.stateOf launcher).forked) := by
    rw [acted, view?_settle_new _ rfl]
    rfl
  rw [play, future?_play answers (apart.act j) length, future?_of_view? view, Plan.ofRun_reporting,
    Interpreter.run_ofAction]

end Pool

namespace Interpreter

open Plan Pool

/-- Detached tasks and what launches them stay apart, in whatever order threads take their turns.
The list itself does what it does without its detached actions, but for announcing them. A
task does what its action does from a copy of the store at the launch. All threads can get to
their ends. -/
theorem detached_apart (answers : s.AnswersAs i) (actions : List Action) (store : Store)
    (world : W) (schedule : List Nat) :
    let pool := fun schedule => (Pool.start (whole i.config actions) store world).play s schedule
    (∀ ending, (pool schedule).ending? 0 = some ending →
      let less := i.execute (Action.blockingList actions) store
      ending.result = less.result ∧ ending.store = less.store ∧
        ending.ended = less.effects.elapsed ∧
        Events.Amid (Action.Announces (Action.detachedList actions)) less.effects.events
          ending.events ∧
        ((∀ a ∈ Action.detachedList actions, a.mode.verbose = false) →
          ending.events = less.effects.events)) ∧
    (∀ n plan st, 0 < n → (pool schedule).view? n = some (plan, st) →
      ∃ before j after launcher action depth, schedule = before ++ j :: after ∧
        (pool before).threads.length = n ∧ (pool before).Launching j launcher action depth ∧
        action.mode.wait = false ∧
        let snapshot := ((pool before).stateOf launcher).forked
        let alone := Ending.ofTask action.kind (i.perform depth action snapshot)
        st.events.reverse <+: alone.events ∧
          ∀ ending, (pool schedule).ending? n = some ending → ending = alone) ∧
    ∃ later, ∀ k < (pool (schedule ++ later)).threads.length,
      (pool (schedule ++ later)).Ended k := by
  intro pool
  have apart : (pool []).Apart := apart_start _ store world
  refine ⟨?_, ?_, ?_⟩
  · intro ending ended
    have future := (future?_play answers apart Nat.one_pos schedule).symm.trans
      (future?_of_ending? ended)
    cases future
    obtain ⟨result, left, elapsed, amid⟩ := execute_blockingList i actions store
    have silent := events_blockingList i actions store
    rw [execute_eq_run i actions] at result left elapsed amid silent
    exact ⟨result, left, elapsed, amid, silent⟩
  · intro n plan st young seen
    obtain ⟨t, there, same⟩ := Option.map_eq_some_iff.1 seen
    obtain ⟨before, j, after, launcher, action, depth, rfl, rfl, launching⟩ :=
      exists_launching (m := pool []) young (List.getElem?_eq_some_iff.1 there).1
    have faithful : (pool []).Faithful i.config :=
      faithful_start (faithful_whole i.config actions) store world
    obtain ⟨detached, future⟩ :=
      launching.future? answers (apart.play before) (faithful.play before) after
    rw [← play_append] at future
    refine ⟨before, j, after, launcher, action, depth, rfl, rfl, launching, detached, ?_, ?_⟩
    · have same := Option.some.inj ((future?_of_view? seen).symm.trans future)
      exact same ▸ events_prefix plan st
    · intro ending ended
      exact Option.some.inj ((future?_of_ending? ended).symm.trans future)
  · obtain ⟨later, ended⟩ := exists_ended s (pool schedule)
    refine ⟨later, ?_⟩
    have played : pool (schedule ++ later) = (pool schedule).play s later :=
      play_append s schedule later (pool [])
    rw [played]
    exact ended

/-- Answers that do not depend on how many came before. -/
def counting : Surroundings Nat where
  scripts _ store asked := (⟨.ok .null, store, 0, []⟩, asked + 1)
  dispatch _ asked := (⟨.ok .null, {}⟩, asked + 1)

/-- An interpreter that gets the same answers. -/
def idle : Interpreter where
  scripts _ store := ⟨.ok .null, store, 0, []⟩
  dispatch _ := ⟨.ok .null, {}⟩

/-- A task is launched before the store is written. -/
def errand : List Action :=
  [.step { wait := false, verbose := true } (.log (some "x")),
    .step {} (.set "key" (.bool true))]

/-- The task runs last, and still on the store as it was at its launch. -/
theorem detached_apart_errand :
    counting.AnswersAs idle ∧
      let pool := (Pool.start (whole idle.config errand) Dict.empty 0).play counting [0, 0, 0, 1]
      (∃ ending, pool.ending? 0 = some ending ∧
        ending.store = (idle.execute (Action.blockingList errand) Dict.empty).store) ∧
      ∃ ending, pool.ending? 1 = some ending ∧ ending.store = Dict.empty ∧
        ∃ (action : Action) (depth : Nat) (snapshot : ExecutionState), action.mode.wait = false ∧
          ending = .ofTask action.kind (idle.perform depth action snapshot) := by
  have answers : counting.AnswersAs idle := ⟨fun _ _ _ => rfl, fun _ _ => rfl⟩
  obtain ⟨parent, tasks, -⟩ := detached_apart answers errand Dict.empty 0 [0, 0, 0, 1]
  refine ⟨answers, ⟨_, rfl, (parent _ rfl).2.1⟩, _, rfl, rfl, ?_⟩
  obtain ⟨before, j, after, launcher, action, depth, -, -, -, detached, -, ended⟩ :=
    tasks 1 _ _ Nat.one_pos rfl
  exact ⟨action, depth, _, detached, ended _ rfl⟩

/-- The announcement of a verbose task is seen in the list that launches it. -/
theorem not_detached_apart_verbose :
    let actions : List Action := [.step { wait := false, verbose := true } (.log (some "x"))]
    let pool := (Pool.start (whole idle.config actions) Dict.empty 0).play counting [0, 0, 1]
    ∃ ending, pool.ending? 0 = some ending ∧
      ending.events ≠ (idle.execute (Action.blockingList actions) Dict.empty).effects.events :=
  ⟨_, rfl, nofun⟩

end Interpreter

end Relay
