import Relay.Proofs.Execution.Depth
import Relay.Proofs.Execution.Ends

/-! # Plans that go the same way

One plan tracks another if it goes through the same acts, but may label the tasks that it launches
in another way. Certain failures of the first plan are excused: from such a failure on, the second
one may do anything. Where none is met, both plans come to the same, `Tracks.run`, and threads that
carry them out stay in step under every schedule, `Pool.Tracks.play`.
-/

namespace Relay

universe u

variable {excused : ExecutionError → Prop} {label : Action → Action}

namespace Plan

/-- All that is left to do is to note things and to fail with an excused error. -/
def Lost (excused : ExecutionError → Prop) : Plan → Prop
  | fail e => excused e
  | note _ rest => rest.Lost excused
  | _ => False

/-- The second plan goes through the acts of the first one until that is lost. Launches may differ
in their depth and in what `label` leaves out of their actions. -/
inductive Tracks (excused : ExecutionError → Prop) (label : Action → Action) :
    Plan → Plan → Prop where
  | done (flow : Flow) : Tracks excused label (done flow) (done flow)
  | fail (e : ExecutionError) : Tracks excused label (fail e) (fail e)
  | lost {x : Plan} (lost : x.Lost excused) (y : Plan) : Tracks excused label x y
  | note (event : Event) {x y : Plan} (rest : Tracks excused label x y) :
      Tracks excused label (note event x) (note event y)
  | pass (ms : Nat) {x y : Plan} (rest : Tracks excused label x y) :
      Tracks excused label (pass ms x) (pass ms y)
  | look {x y : Store → Plan} (rest : ∀ store, Tracks excused label (x store) (y store)) :
      Tracks excused label (look x) (look y)
  | keep (key : String) (value : Json) {x y : Plan} (rest : Tracks excused label x y) :
      Tracks excused label (keep key value x) (keep key value y)
  | script (source : String) {x y : Except Script.ScriptError Json → Plan}
      (rest : ∀ answer, Tracks excused label (x answer) (y answer)) :
      Tracks excused label (script source x) (script source y)
  | send (request : Request) {x y : Except DispatchError Json → Plan}
      (rest : ∀ answer, Tracks excused label (x answer) (y answer)) :
      Tracks excused label (send request x) (send request y)
  | launch {a b : Action} (kind : a.kind = b.kind) (same : label a = label b) (depth depth' : Nat)
      {once once' x y : Plan} (task : Tracks excused label once once')
      (rest : Tracks excused label x y) :
      Tracks excused label (launch a depth once x) (launch b depth' once' y)

/-- Nothing is lost if nothing is excused. -/
theorem not_lost_of_none (none : ∀ e, ¬ excused e) (x : Plan) : ¬ x.Lost excused := by
  induction x with
  | fail e => exact none e
  | note event rest ih => exact ih
  | _ => exact id

theorem Lost.andThen {x : Plan} (lost : x.Lost excused) (later : Plan) :
    (x.andThen later).Lost excused := by
  induction x with
  | fail e => exact lost
  | note event rest ih => exact ih lost
  | _ => exact lost.elim

theorem Lost.reporting {x : Plan} (lost : x.Lost excused) (kind : String) :
    (x.reporting kind).Lost excused := by
  induction x with
  | fail e => exact lost
  | note event rest ih => exact ih lost
  | _ => exact lost.elim

namespace Tracks

variable {x y x' y' : Plan}

theorem refl (x : Plan) : Tracks excused label x x := by
  induction x with
  | done flow => exact .done flow
  | fail e => exact .fail e
  | note event _ ih => exact .note event ih
  | pass ms _ ih => exact .pass ms ih
  | look _ ih => exact .look ih
  | keep key value _ ih => exact .keep key value ih
  | script source _ ih => exact .script source ih
  | send request _ ih => exact .send request ih
  | launch action depth _ _ ihOnce ih => exact .launch rfl rfl depth depth ihOnce ih

theorem andThen (first : Tracks excused label x y) (second : Tracks excused label x' y') :
    Tracks excused label (x.andThen x') (y.andThen y') := by
  induction first with
  | done flow =>
    cases flow with
    | next value => exact second
    | ret value => exact .done _
  | fail e => exact .fail e
  | lost lost y => exact .lost (lost.andThen x') _
  | note event _ ih => exact .note event ih
  | pass ms _ ih => exact .pass ms ih
  | look _ ih => exact .look ih
  | keep key value _ ih => exact .keep key value ih
  | script source _ ih => exact .script source ih
  | send request _ ih => exact .send request ih
  | launch kind same depth depth' task _ _ ih => exact .launch kind same depth depth' task ih

theorem reporting (tracks : Tracks excused label x y) (kind : String) :
    Tracks excused label (x.reporting kind) (y.reporting kind) := by
  induction tracks with
  | done flow => exact .done flow
  | fail e => exact .note _ (.fail e)
  | lost lost y => exact .lost (lost.reporting kind) _
  | note event _ ih => exact .note event ih
  | pass ms _ ih => exact .pass ms ih
  | look _ ih => exact .look ih
  | keep key value _ ih => exact .keep key value ih
  | script source _ ih => exact .script source ih
  | send request _ ih => exact .send request ih
  | launch kind same depth depth' task _ _ ih => exact .launch kind same depth depth' task ih

theorem repeated (once : Tracks excused label x y) (later : Tracks excused label x' y') (n : Nat) :
    Tracks excused label (Plan.repeated x x' n) (Plan.repeated y y' n) := by
  induction n with
  | zero => exact later
  | succ n ih => exact once.andThen ih

theorem launches (a b : Action) (kind : a.kind = b.kind) (same : label a = label b)
    (depth depth' : Nat) (once : Tracks excused label x y) (later : Tracks excused label x' y')
    (n : Nat) :
    Tracks excused label (Plan.launches a depth x x' n) (Plan.launches b depth' y y' n) := by
  induction n with
  | zero => exact later
  | succ n ih => exact .launch kind same depth depth' once ih

/-- If the two plans end, they end in the same way, unless the first one is lost. -/
theorem result? (tracks : Tracks excused label x y) (found : ¬ x.Lost excused) :
    y.result? = x.result? := by
  cases tracks with
  | lost lost y => exact absurd lost found
  | _ => rfl

end Tracks

/-! ## Carried out alone -/

/-- Carrying out the plan on a store does not come to an excused failure, and no task that is
launched on the way does. -/
def Avoids (excused : ExecutionError → Prop) (i : Interpreter) : Plan → Store → Prop
  | done _, _ => True
  | fail e, _ => ¬ excused e
  | note _ rest, store => rest.Avoids excused i store
  | pass _ rest, store => rest.Avoids excused i store
  | look rest, store => (rest store).Avoids excused i store
  | keep key value rest, store => rest.Avoids excused i (store.insert key value)
  | script source rest, store =>
    let ended := i.scripts source store
    (rest ended.result).Avoids excused i ended.store
  | send request rest, store => (rest (i.dispatch request).result).Avoids excused i store
  | launch _ _ once rest, store => once.Avoids excused i store ∧ rest.Avoids excused i store

variable {i : Interpreter}

theorem Avoids.not_lost {plan : Plan} {store : Store} (avoids : plan.Avoids excused i store) :
    ¬ plan.Lost excused := by
  induction plan with
  | fail e => exact avoids
  | note event rest ih => exact ih avoids
  | _ => exact id

/-- Nothing is to be avoided if nothing is excused. -/
theorem avoids_of_none (none : ∀ e, ¬ excused e) (plan : Plan) (store : Store) :
    plan.Avoids excused i store := by
  induction plan generalizing store with
  | done flow => trivial
  | fail e => exact none e
  | note event rest ih => exact ih store
  | pass ms rest ih => exact ih store
  | look rest ih => exact ih store store
  | keep key value rest ih => exact ih _
  | script source rest ih => exact ih _ _
  | send request rest ih => exact ih _ _
  | launch action depth once rest ihOnce ih => exact ⟨ihOnce store, ih store⟩

/-- What was launched before stays launched. -/
theorem mem_tasks_run (plan : Plan) {st : ExecutionState} {task : Task}
    (member : task ∈ st.tasks) : task ∈ (plan.run i st).2.tasks := by
  rw [run_eq_followedBy]
  exact List.mem_append_right _ member

end Plan

/-- The interpreter with the same answers to requests, but without the tasks that may come with
them. -/
def Interpreter.secluded (i : Interpreter) : Interpreter where
  config := i.config
  scripts := i.scripts
  dispatch request :=
    let reply := i.dispatch request
    { reply with effects := { reply.effects with tasks := [] } }

namespace Plan

variable {i : Interpreter}

/-- Tasks that come with answers make no difference to how a plan ends. -/
theorem run_secluded (plan : Plan) {st st' : ExecutionState} (same : st'.store = st.store) :
    (plan.run i.secluded st').1 = (plan.run i st).1 := by
  induction plan generalizing st st' with
  | done flow => rfl
  | fail e => rfl
  | note event rest ih => exact ih same
  | pass ms rest ih => exact ih same
  | look rest ih =>
    rw [run, run, same]
    exact ih _ same
  | keep key value rest ih => exact ih (congrArg (Dict.insert · key value) same)
  | script source rest ih =>
    rw [run, run, same]
    exact ih _ rfl
  | send request rest ih => exact ih _ same
  | launch action depth once rest _ ih => exact ih same

/-- An excused failure is met by the list itself or by one of its own tasks. -/
theorem avoids_of_run (plan : Plan) (st : ExecutionState)
    (result : ∀ e, (plan.run i.secluded st).1 = .error e → ¬ excused e)
    (tasks : ∀ task ∈ (plan.run i.secluded st).2.tasks, ∀ e, task.result = .error e → ¬ excused e) :
    plan.Avoids excused i st.store := by
  induction plan generalizing st with
  | done flow => trivial
  | fail e => exact result e rfl
  | note event rest ih => exact ih (st.noted event) result tasks
  | pass ms rest ih => exact ih (st.passed ms) result tasks
  | look rest ih => exact ih _ st result tasks
  | keep key value rest ih => exact ih (st.kept key value) result tasks
  | script source rest ih => exact ih _ (st.scripted _) result tasks
  | send request rest ih => exact ih _ (st.absorbed _) result tasks
  | launch action depth once rest ihOnce ih =>
    let ran := once.run i.secluded st.forked
    have onRecord : ∀ task ∈ (st.launched action depth ran).tasks, ∀ e,
        task.result = .error e → ¬ excused e :=
      fun task member => tasks task (mem_tasks_run rest member)
    constructor
    · -- The task is on record, and so are those that it launched in turn.
      apply ihOnce st.forked
      · exact onRecord _ (List.mem_append_right _ List.mem_cons_self)
      · intro task member
        exact onRecord task (List.mem_append_left _ member)
    · exact ih (st.launched action depth ran) result tasks

end Plan

/-- A task without its depth and without what `label` leaves out of its action. -/
def Task.labelled (label : Action → Action) (task : Task) : Task :=
  { task with action := label task.action, depth := 0 }

/-- Two executions have come equally far, but for the labels of tasks. -/
structure ExecutionState.InStep (label : Action → Action) (st st' : ExecutionState) : Prop where
  store : st.store = st'.store
  now : st.now = st'.now
  events : st.events = st'.events
  tasks : st.tasks.map (Task.labelled label) = st'.tasks.map (Task.labelled label)

namespace ExecutionState

theorem InStep.absorbed {st st' : ExecutionState} (step : InStep label st st')
    (effects : Effects) : InStep label (st.absorbed effects) (st'.absorbed effects) := by
  obtain ⟨store, now, events, tasks⟩ := step
  refine ⟨store, ?_, ?_, ?_⟩
  · simp only [ExecutionState.absorbed, now]
  · simp only [ExecutionState.absorbed, now, events]
  · simp only [ExecutionState.absorbed, List.reverseAux_eq, List.map_append, now, tasks]

theorem InStep.launched {st st' : ExecutionState} (step : InStep label st st') {a b : Action}
    (kind : a.kind = b.kind) (same : label a = label b) (depth depth' : Nat)
    {ended ended' : Except ExecutionError Flow × ExecutionState} (result : ended.1 = ended'.1)
    (after : InStep label ended.2 ended'.2) :
    InStep label (st.launched a depth ended) (st'.launched b depth' ended') := by
  refine ⟨step.store, step.now, step.events, ?_⟩
  simp only [ExecutionState.launched, List.map_append, List.map_cons, Task.labelled, kind, same,
    result, after.store, after.now, after.events, after.tasks, step.store, step.now, step.tasks]

end ExecutionState

open ExecutionState in
/-- Plans that go the same way come to the same, but for the labels of tasks. -/
theorem Plan.Tracks.run {x y : Plan} (tracks : Tracks excused label x y) {i : Interpreter}
    (st st' : ExecutionState) (avoids : x.Avoids excused i st.store)
    (step : InStep label st st') :
    (x.run i st).1 = (y.run i st').1 ∧ InStep label (x.run i st).2 (y.run i st').2 := by
  induction tracks generalizing st st' with
  | done flow => exact ⟨rfl, step⟩
  | fail e => exact ⟨rfl, step⟩
  | lost lost y => exact absurd lost avoids.not_lost
  | note event _ ih =>
    refine ih (st.noted event) (st'.noted event) avoids ⟨step.store, step.now, ?_, step.tasks⟩
    simp only [noted, step.now, step.events]
  | pass ms _ ih =>
    exact ih (st.passed ms) (st'.passed ms) avoids
      ⟨step.store, congrArg (· + ms) step.now, step.events, step.tasks⟩
  | look _ ih =>
    simp only [Plan.run, ← step.store]
    exact ih _ st st' avoids step
  | keep key value _ ih =>
    exact ih (st.kept key value) (st'.kept key value) avoids
      ⟨congrArg (Dict.insert · key value) step.store, step.now, step.events, step.tasks⟩
  | script source _ ih =>
    simp only [Plan.run, ← step.store]
    have wrote : InStep label { st with store := (i.scripts source st.store).store }
        { st' with store := (i.scripts source st.store).store } :=
      ⟨rfl, step.now, step.events, step.tasks⟩
    exact ih _ (st.scripted _) (st'.scripted _) avoids (wrote.absorbed _)
  | send request _ ih => exact ih _ (st.absorbed _) (st'.absorbed _) avoids (step.absorbed _)
  | launch kind same depth depth' _ _ ihTask ih =>
    have forked : InStep label st.forked st'.forked := ⟨step.store, step.now, rfl, rfl⟩
    obtain ⟨result, after⟩ := ihTask st.forked st'.forked avoids.1 forked
    exact ih (st.launched _ depth _) (st'.launched _ depth' _) avoids.2
      (step.launched kind same depth depth' result after)

/-! ## Threads in step -/

variable {W : Type u} {s : Surroundings W}

/-- The turns that two plans take lead to the same, but for plans that go the same way. -/
structure Turn.InStep (excused : ExecutionError → Prop) (label : Action → Action)
    (turn turn' : Turn W) : Prop where
  plan : Plan.Tracks excused label turn.plan turn'.plan
  state : turn'.state = turn.state
  world : turn'.world = turn.world
  task : Option.Rel (Plan.Tracks excused label) turn.task turn'.task

/-- A plan that is not lost and one that tracks it have both ended or take the same turn. -/
theorem Plan.Tracks.turn? {x y : Plan} (tracks : Tracks excused label x y)
    (found : ¬ x.Lost excused) (st : ExecutionState) (world : W) :
    Option.Rel (Turn.InStep excused label) (x.turn? s st world) (y.turn? s st world) := by
  cases tracks with
  | done flow => exact .none
  | fail e => exact .none
  | lost lost y => exact absurd lost found
  | note event rest => exact .some ⟨rest, rfl, rfl, .none⟩
  | pass ms rest => exact .some ⟨rest, rfl, rfl, .none⟩
  | look rest => exact .some ⟨rest _, rfl, rfl, .none⟩
  | keep key value rest => exact .some ⟨rest, rfl, rfl, .none⟩
  | script source rest => exact .some ⟨rest _, rfl, rfl, .none⟩
  | send request rest => exact .some ⟨rest _, rfl, rfl, .none⟩
  | launch kind same depth depth' task rest =>
    refine .some ⟨rest, rfl, rfl, .some ?_⟩
    rw [kind]
    exact task.reporting _

namespace Pool

variable {m m' : Pool W}

/-- Some thread has nothing left to do but to fail with an excused error. -/
def Loses (excused : ExecutionError → Prop) (m : Pool W) : Prop :=
  ∃ k plan, m.planOf? k = some plan ∧ plan.Lost excused

theorem loses_of_lost {k : Nat} {t : Thread} (found : m.threads[k]? = some t)
    (lost : t.plan.Lost excused) : m.Loses excused :=
  ⟨k, t.plan, congrArg (Option.map Thread.plan) found, lost⟩

theorem not_loses_of_none (none : ∀ e, ¬ excused e) (m : Pool W) : ¬ m.Loses excused := by
  rintro ⟨k, plan, -, lost⟩
  exact Plan.not_lost_of_none none plan lost

theorem Loses.act (loses : m.Loses excused) (k : Nat) : (m.act s k).Loses excused := by
  obtain ⟨j, plan, here, lost⟩ := loses
  rcases act_cases s k m with idle | ⟨t, turn, found, acted, after⟩
  · rw [idle]
    exact ⟨j, plan, here, lost⟩
  · rw [after]
    obtain ⟨_, there, -⟩ := Option.map_eq_some_iff.1 here
    by_cases other : j = k
    · subst other
      rw [planOf?, found] at here
      cases here
      refine ⟨j, turn.plan, planOf?_settle_self turn found, ?_⟩
      cases plan : t.plan with
      | note event rest =>
        rw [plan] at acted lost
        cases acted
        exact lost
      | fail e => rw [plan] at acted; cases acted
      | _ => rw [plan] at lost; exact lost.elim
    · have old := (List.getElem?_eq_some_iff.1 there).1
      exact ⟨j, plan, (planOf?_settle_other turn other old).trans here, lost⟩

theorem Loses.play (loses : m.Loses excused) (schedule : List Nat) :
    (m.play s schedule).Loses excused := by
  induction schedule generalizing m with
  | nil => exact loses
  | cons k schedule ih => exact ih (loses.act k)

/-- The threads of two pools stand where they do in the other one, with plans that go the same way.
-/
structure Tracks (excused : ExecutionError → Prop) (label : Action → Action) (m m' : Pool W) :
    Prop where
  memory : m'.memory = m.memory
  world : m'.world = m.world
  length : m'.threads.length = m.threads.length
  threads : ∀ (k : Nat) (t : Thread), m.threads[k]? = some t →
    ∃ y, m'.threads[k]? = some { t with plan := y } ∧ Plan.Tracks excused label t.plan y

theorem tracks_start {x y : Plan} (tracks : Plan.Tracks excused label x y) (store : Store)
    (world : W) : Tracks excused label (start x store world) (start y store world) := by
  refine ⟨rfl, rfl, rfl, ?_⟩
  intro k t found
  cases k with
  | zero => cases found; exact ⟨y, rfl, tracks⟩
  | succ k => cases found

section

variable (tracks : Tracks excused label m m') {k : Nat}

include tracks

theorem Tracks.none (nobody : m.threads[k]? = none) : m'.threads[k]? = none := by
  rw [List.getElem?_eq_none_iff] at nobody ⊢
  rw [tracks.length]
  exact nobody

theorem Tracks.stateOf (t : Thread) (y : Plan) :
    m'.stateOf { t with plan := y } = m.stateOf t := by
  simp only [Pool.stateOf, tracks.memory]

end

theorem Tracks.settle (tracks : Tracks excused label m m') {k : Nat} {t : Thread} {y : Plan}
    (found : m.threads[k]? = some t) (found' : m'.threads[k]? = some { t with plan := y })
    {turn turn' : Turn W} (step : turn.InStep excused label turn') :
    Tracks excused label (m.settle k t turn) (m'.settle k { t with plan := y } turn') := by
  obtain ⟨plan, state, world, task⟩ := turn
  obtain ⟨plan', state', world', task'⟩ := turn'
  obtain ⟨goesOn, rfl, rfl, launched⟩ := step
  obtain ⟨memory, world, length, threads⟩ := tracks
  refine ⟨?_, ?_, ?_, ?_⟩
  · cases launched <;> simp only [Pool.settle, put, spawn, memory, length, List.length_set]
  · cases launched <;> rfl
  · rw [length_settle, length_settle, length]
    cases launched <;> rfl
  · intro j t' here
    rcases threads_settle_cases _ found here with ⟨rfl, rfl⟩ | ⟨other, old⟩ | ⟨once, new, rfl, rfl⟩
    · exact ⟨plan', threads_settle_self _ found', goesOn⟩
    · obtain ⟨y', there, tracks⟩ := threads j t' old
      have room := (List.getElem?_eq_some_iff.1 there).1
      exact ⟨y', (threads_settle_other _ other room).trans there, tracks⟩
    · cases launched with
      | none => cases new
      | some task =>
        cases new
        exact ⟨_, length ▸ threads_settle_new _ rfl, task⟩

/-- A turn of a thread keeps two pools in step, unless it is lost. -/
theorem Tracks.act (tracks : Tracks excused label m m') {k : Nat}
    (found : ¬ (m.act s k).Loses excused) :
    Tracks excused label (m.act s k) (m'.act s k) := by
  cases here : m.threads[k]? with
  | none =>
    simp only [Pool.act, here, tracks.none here]
    exact tracks
  | some t =>
    obtain ⟨y, there, goes⟩ := tracks.threads k t here
    have kept : ¬ t.plan.Lost excused := fun lost => found ((loses_of_lost here lost).act k)
    have step := goes.turn? (s := s) kept (m.stateOf t) m.world
    have state := tracks.stateOf t y
    simp only [Pool.act, here, there, state, tracks.world]
    cases acted : t.plan.turn? s (m.stateOf t) m.world with
    | none =>
      rw [acted] at step
      cases acted' : y.turn? s (m.stateOf t) m.world with
      | none => exact tracks
      | some turn' => rw [acted'] at step; cases step
    | some turn =>
      rw [acted] at step
      cases acted' : y.turn? s (m.stateOf t) m.world with
      | none => rw [acted'] at step; cases step
      | some turn' =>
        rw [acted'] at step
        cases step with
        | some step => exact tracks.settle here there step

/-- Two pools stay in step under every schedule, as long as no thread is lost. -/
theorem Tracks.play (tracks : Tracks excused label m m') {schedule : List Nat}
    (found : ¬ (m.play s schedule).Loses excused) :
    Tracks excused label (m.play s schedule) (m'.play s schedule) := by
  induction schedule generalizing m m' with
  | nil => exact tracks
  | cons k schedule ih =>
    exact ih (tracks.act fun loses => found (loses.play schedule)) found

/-- Two pools cannot be told apart: scripts and requests were asked the same things, and each thread
has the same store, time and events and has ended in the same way, if it has. -/
structure Resembles (m m' : Pool W) : Prop where
  world : m'.world = m.world
  length : m'.threads.length = m.threads.length
  states : ∀ k, (m'.view? k).map Prod.snd = (m.view? k).map Prod.snd
  endings : ∀ k, m'.ending? k = m.ending? k

theorem Tracks.resembles (tracks : Tracks excused label m m') (found : ¬ m.Loses excused) :
    m.Resembles m' := by
  have views (k : Nat) : (m'.view? k).map Prod.snd = (m.view? k).map Prod.snd ∧
      m'.ending? k = m.ending? k := by
    cases here : m.threads[k]? with
    | none =>
      simp only [ending?, view?, here, tracks.none here]
      exact ⟨rfl, rfl⟩
    | some t =>
      obtain ⟨y, there, goes⟩ := tracks.threads k t here
      have ended : y.result? = t.plan.result? :=
        goes.result? fun lost => found (loses_of_lost here lost)
      have state := tracks.stateOf t y
      simp only [ending?, view?, here, there, Option.map_some, Option.bind_some, state, ended,
        and_self]
  exact ⟨tracks.world, tracks.length, fun k => (views k).1, fun k => (views k).2⟩

end Pool

end Relay
