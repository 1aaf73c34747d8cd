import Relay.Proofs.Execution.Sequence
import Mathlib.Logic.Function.Basic

/-! # Threads that take turns

An execution and the tasks that it launches are threads: each carries out a plan on a store of its
own, and a launched one gets a copy of the store of its launcher. All stores lie in one memory, and
a schedule says whose turn it is. What answers scripts and requests is shared by the threads and may
remember what it was asked.

A thread leaves the others alone, `view?_act_other`. Where the answers depend on the question alone,
what a thread comes to does not depend on the schedule, `future?_play`.
-/

namespace Relay

universe u

/-- What answers scripts and requests, and what it remembers. -/
structure Surroundings (W : Type u) where
  scripts : String → Store → W → Script.Outcome Json × W
  dispatch : Request → W → Reply (Except DispatchError Json) × W

/-- The answers depend on the question alone: they are those of the interpreter. -/
structure Surroundings.AnswersAs {W : Type u} (s : Surroundings W) (i : Interpreter) : Prop where
  scripts (source : String) (store : Store) (world : W) :
    (s.scripts source store world).1 = i.scripts source store
  dispatch (request : Request) (world : W) : (s.dispatch request world).1 = i.dispatch request

/-- What one act of a thread leads to. -/
structure Turn (W : Type u) where
  plan : Plan
  state : ExecutionState
  world : W
  /-- The plan of the task that was launched. -/
  task : Option Plan := none

namespace Plan

variable {W : Type u}

/-- How the thread of a plan ended, if it has nothing left to do. -/
def result? : Plan → Option (Except ExecutionError Flow)
  | done flow => some (.ok flow)
  | fail e => some (.error e)
  | _ => none

/-- The plan of a task: a failure is noted. -/
def reporting (kind : String) : Plan → Plan
  | done flow => done flow
  | fail e => note (.taskFailed kind e) (fail e)
  | note event rest => note event (reporting kind rest)
  | pass ms rest => pass ms (reporting kind rest)
  | look rest => look fun store => reporting kind (rest store)
  | keep key value rest => keep key value (reporting kind rest)
  | script source rest => script source fun answer => reporting kind (rest answer)
  | send request rest => send request fun answer => reporting kind (rest answer)
  | launch action depth once rest => launch action depth once (reporting kind rest)

/-- The next act of a plan that has not ended. -/
def turn? (s : Surroundings W) : Plan → ExecutionState → W → Option (Turn W)
  | done _, _, _ => none
  | fail _, _, _ => none
  | note event rest, st, world => some ⟨rest, st.noted event, world, none⟩
  | pass ms rest, st, world => some ⟨rest, st.passed ms, world, none⟩
  | look rest, st, world => some ⟨rest st.store, st, world, none⟩
  | keep key value rest, st, world => some ⟨rest, st.kept key value, world, none⟩
  | script source rest, st, world =>
    let (ended, world) := s.scripts source st.store world
    some ⟨rest ended.result, st.scripted ended, world, none⟩
  | send request rest, st, world =>
    let (reply, world) := s.dispatch request world
    some ⟨rest reply.result, st.absorbed reply.effects, world, none⟩
  | launch action _ once rest, st, world =>
    some ⟨rest, st, world, some (once.reporting action.kind)⟩

end Plan

/-- What carries out a plan. -/
structure Thread where
  plan : Plan
  /-- The place of its store in the memory. -/
  cell : Nat
  now : Nat := 0
  /-- What it did so far, last first. -/
  events : Events := []

/-- Threads, numbered in the order in which they were launched. -/
structure Pool (W : Type u) where
  memory : Nat → Store
  threads : List Thread
  world : W

namespace Pool

variable {W : Type u}

/-- An execution that is about to start. -/
def start (plan : Plan) (store : Store) (world : W) : Pool W where
  memory := fun _ => store
  threads := [{ plan, cell := 0 }]
  world := world

/-- The state of a thread. -/
def stateOf (m : Pool W) (t : Thread) : ExecutionState where
  store := m.memory t.cell
  now := t.now
  events := t.events

/-- A thread goes on with a plan from a state. -/
def put (m : Pool W) (k : Nat) (t : Thread) (plan : Plan) (st : ExecutionState) : Pool W :=
  { m with
    memory := Function.update m.memory t.cell st.store
    threads := m.threads.set k { t with plan, now := st.now, events := st.events } }

/-- A new thread starts at some time on a copy of a store. -/
def spawn (m : Pool W) (plan : Plan) (store : Store) (now : Nat) : Pool W :=
  { m with
    memory := Function.update m.memory m.threads.length store
    threads := m.threads ++ [{ plan, cell := m.threads.length, now }] }

/-- The pool after a turn of a thread. -/
def settle (m : Pool W) (k : Nat) (t : Thread) (turn : Turn W) : Pool W :=
  let moved := { m with world := turn.world }.put k t turn.plan turn.state
  match turn.task with
  | none => moved
  | some plan => moved.spawn plan (m.memory t.cell) t.now

/-- One act of a thread. A thread that has ended, or does not exist, does nothing. -/
def act (s : Surroundings W) (k : Nat) (m : Pool W) : Pool W :=
  match m.threads[k]? with
  | none => m
  | some t =>
    match t.plan.turn? s (m.stateOf t) m.world with
    | none => m
    | some turn => m.settle k t turn

/-- Let threads act in turn. -/
def play (s : Surroundings W) : List Nat → Pool W → Pool W
  | [], m => m
  | k :: schedule, m => play s schedule (act s k m)

theorem play_append (s : Surroundings W) (first second : List Nat) (m : Pool W) :
    m.play s (first ++ second) = (m.play s first).play s second := by
  induction first generalizing m with
  | nil => rfl
  | cons k first ih => exact ih (m.act s k)

/-- What a thread has to do, and its state. -/
def view? (m : Pool W) (k : Nat) : Option (Plan × ExecutionState) :=
  m.threads[k]?.map fun t => (t.plan, m.stateOf t)

/-- Every thread works on the store of its own number. -/
def Apart (m : Pool W) : Prop :=
  ∀ k (t : Thread), m.threads[k]? = some t → t.cell = k

end Pool

/-- How a thread ended. -/
structure Ending where
  result : Except ExecutionError Flow
  store : Store
  ended : Nat
  events : Events

/-- The ending that carrying out a plan leads to. -/
def Ending.ofRun (ran : Except ExecutionError Flow × ExecutionState) : Ending :=
  ⟨ran.1, ran.2.store, ran.2.now, ran.2.events.reverse⟩

namespace Pool

variable {W : Type u}

/-- How a thread ended, if it has. -/
def ending? (m : Pool W) (k : Nat) : Option Ending :=
  (m.view? k).bind fun view => view.1.result?.map fun result => .ofRun (result, view.2)

/-- How a thread will end if nobody else takes a turn from now on. -/
def future? (i : Interpreter) (m : Pool W) (k : Nat) : Option Ending :=
  (m.view? k).map fun view => .ofRun (view.1.run i view.2)

end Pool

/-! ## Turns of one thread -/

namespace Plan

variable {W : Type u} {s : Surroundings W} {i : Interpreter}

/-- What was launched before makes no difference to what a thread comes to. -/
theorem ofRun_tasks (plan : Plan) (st : ExecutionState) (tasks : List Task) :
    Ending.ofRun (plan.run i { st with tasks }) = Ending.ofRun (plan.run i st) := by
  rw [run_eq_followedBy, run_eq_followedBy i plan st]
  rfl

/-- A turn changes nothing about what the thread comes to. -/
theorem ofRun_turn? (answers : s.AnswersAs i) {plan : Plan} {st : ExecutionState} {world : W}
    {turn : Turn W} (acted : plan.turn? s st world = some turn) :
    Ending.ofRun (turn.plan.run i { turn.state with tasks := [] }) =
      Ending.ofRun (plan.run i st) := by
  rw [ofRun_tasks]
  cases plan with
  | done flow => cases acted
  | fail e => cases acted
  | script source rest =>
    cases acted
    rw [answers.scripts]
    rfl
  | send request rest =>
    cases acted
    rw [answers.dispatch]
    rfl
  | launch action depth once rest =>
    cases acted
    rw [run]
    exact (ofRun_tasks rest st _).symm
  | _ => cases acted; rfl

theorem run_reporting (kind : String) (plan : Plan) (st : ExecutionState) :
    (plan.reporting kind).run i st =
      match plan.run i st with
      | (.ok flow, st) => (.ok flow, st)
      | (.error e, st) => (.error e, st.noted (.taskFailed kind e)) := by
  induction plan generalizing st with
  | done flow => rfl
  | fail e => rfl
  | note event rest ih => exact ih _
  | pass ms rest ih => exact ih _
  | look rest ih => exact ih _ _
  | keep key value rest ih => exact ih _
  | script source rest ih => exact ih _ _
  | send request rest ih => exact ih _ _
  | launch action depth once rest _ ih => exact ih _

/-- What a plan does is seen behind what was seen before. -/
theorem events_prefix (plan : Plan) (st : ExecutionState) :
    st.events.reverse <+: (Ending.ofRun (plan.run i st)).events := by
  rw [run_eq_followedBy]
  exact ⟨_, (List.reverse_append).symm⟩

end Plan

/-! ## Turns in a pool -/

namespace Pool

variable {W : Type u} {s : Surroundings W} {i : Interpreter} {m : Pool W}

theorem apart_start (plan : Plan) (store : Store) (world : W) :
    (start plan store world).Apart := by
  intro k t found
  cases k with
  | zero => cases found; rfl
  | succ k => cases found

section Settle

variable {k : Nat} {t : Thread} (turn : Turn W)

theorem length_settle :
    (m.settle k t turn).threads.length = m.threads.length + turn.task.toList.length := by
  unfold settle
  split <;> rename_i launched <;> simp [launched, put, spawn]

theorem threads_settle_other {j : Nat} (other : j ≠ k) (old : j < m.threads.length) :
    (m.settle k t turn).threads[j]? = m.threads[j]? := by
  unfold settle
  split
  · exact List.getElem?_set_ne other.symm
  · simp only [put, spawn]
    rw [List.getElem?_append_left (by rw [List.length_set]; exact old),
      List.getElem?_set_ne other.symm]

theorem threads_settle_self (found : m.threads[k]? = some t) :
    (m.settle k t turn).threads[k]? =
      some { t with plan := turn.plan, now := turn.state.now, events := turn.state.events } := by
  have old : k < m.threads.length := (List.getElem?_eq_some_iff.1 found).1
  unfold settle
  split
  · exact List.getElem?_set_self old
  · simp only [put, spawn]
    rw [List.getElem?_append_left (by rw [List.length_set]; exact old),
      List.getElem?_set_self old]

theorem threads_settle_new {plan : Plan} (launched : turn.task = some plan) :
    (m.settle k t turn).threads[m.threads.length]? =
      some { plan, cell := m.threads.length, now := t.now } := by
  simp only [settle, launched, put, spawn, List.length_set]
  rw [List.getElem?_append_right (Nat.le_of_eq List.length_set), List.length_set, Nat.sub_self]
  rfl

/-- After a turn of a thread there are that thread, the others, and the one that was launched. -/
theorem threads_settle_cases (found : m.threads[k]? = some t) {j : Nat} {t' : Thread}
    (here : (m.settle k t turn).threads[j]? = some t') :
    (j = k ∧
      t' = { t with plan := turn.plan, now := turn.state.now, events := turn.state.events }) ∨
    (j ≠ k ∧ m.threads[j]? = some t') ∨
    ∃ plan, turn.task = some plan ∧ j = m.threads.length ∧
      t' = { plan, cell := m.threads.length, now := t.now } := by
  by_cases old : j < m.threads.length
  · by_cases same : j = k
    · subst same
      rw [threads_settle_self turn found] at here
      exact .inl ⟨rfl, (Option.some.inj here).symm⟩
    · rw [threads_settle_other turn same old] at here
      exact .inr (.inl ⟨same, here⟩)
  · have room := (List.getElem?_eq_some_iff.1 here).1
    rw [length_settle] at room
    cases launched : turn.task with
    | none =>
      rw [launched] at room
      exact absurd room old
    | some plan =>
      rw [launched, Option.toList_some, List.length_singleton] at room
      obtain rfl : j = m.threads.length := by omega
      rw [threads_settle_new turn launched] at here
      exact .inr (.inr ⟨plan, rfl, rfl, (Option.some.inj here).symm⟩)

theorem memory_settle_other {j : Nat} (other : j ≠ t.cell) (old : j < m.threads.length) :
    (m.settle k t turn).memory j = m.memory j := by
  unfold settle
  split
  · exact Function.update_of_ne other _ _
  · simp only [put, spawn, List.length_set]
    rw [Function.update_of_ne (Nat.ne_of_lt old), Function.update_of_ne other]

theorem memory_settle_self (old : t.cell < m.threads.length) :
    (m.settle k t turn).memory t.cell = turn.state.store := by
  unfold settle
  split
  · exact Function.update_self _ _ _
  · simp only [put, spawn, List.length_set]
    rw [Function.update_of_ne (Nat.ne_of_lt old), Function.update_self]

theorem memory_settle_new {plan : Plan} (launched : turn.task = some plan) :
    (m.settle k t turn).memory m.threads.length = m.memory t.cell := by
  simp only [settle, launched, put, spawn, List.length_set]
  exact Function.update_self _ _ _

end Settle

theorem Apart.settle (apart : m.Apart) {k : Nat} {t : Thread} (found : m.threads[k]? = some t)
    (turn : Turn W) : (m.settle k t turn).Apart := by
  intro j t' here
  rcases threads_settle_cases turn found here with ⟨rfl, rfl⟩ | ⟨-, old⟩ | ⟨plan, -, rfl, rfl⟩
  · exact apart j t found
  · exact apart j t' old
  · rfl

section View

variable {k : Nat} {t : Thread} (apart : m.Apart) (found : m.threads[k]? = some t)
  (turn : Turn W)

include apart found

theorem view?_settle_self :
    (m.settle k t turn).view? k = some (turn.plan, { turn.state with tasks := [] }) := by
  have old : t.cell < m.threads.length := by
    rw [apart k t found]
    exact (List.getElem?_eq_some_iff.1 found).1
  simp only [view?, threads_settle_self turn found, Option.map_some, stateOf,
    memory_settle_self turn old]

theorem view?_settle_other {j : Nat} (other : j ≠ k) (old : j < m.threads.length) :
    (m.settle k t turn).view? j = m.view? j := by
  rw [view?, view?, threads_settle_other turn other old]
  cases there : m.threads[j]? with
  | none => rfl
  | some t' =>
    have place : t'.cell = j := apart j t' there
    have apartness : j ≠ t.cell := by rw [apart k t found]; exact other
    simp only [Option.map_some, stateOf, place, memory_settle_other turn apartness old]

omit apart found in
theorem view?_settle_new {plan : Plan} (launched : turn.task = some plan) :
    (m.settle k t turn).view? m.threads.length =
      some (plan, { store := m.memory t.cell, now := t.now }) := by
  simp only [view?, threads_settle_new turn launched, Option.map_some, stateOf,
    memory_settle_new turn launched]

end View

/-- Either a thread has nothing to do, or it does its next act. -/
theorem act_cases (s : Surroundings W) (k : Nat) (m : Pool W) :
    m.act s k = m ∨ ∃ t turn, m.threads[k]? = some t ∧
      t.plan.turn? s (m.stateOf t) m.world = some turn ∧ m.act s k = m.settle k t turn := by
  cases found : m.threads[k]? with
  | none => exact .inl (by simp only [act, found])
  | some t =>
    cases acted : t.plan.turn? s (m.stateOf t) m.world with
    | none => exact .inl (by simp only [act, found, acted])
    | some turn => exact .inr ⟨t, turn, rfl, acted, by simp only [act, found, acted]⟩

theorem length_le_act (k : Nat) : m.threads.length ≤ (m.act s k).threads.length := by
  rcases act_cases s k m with idle | ⟨t, turn, -, -, acted⟩
  · exact Nat.le_of_eq (congrArg (·.threads.length) idle.symm)
  · rw [acted, length_settle]
    exact Nat.le_add_right _ _

theorem Apart.act (apart : m.Apart) (k : Nat) : (m.act s k).Apart := by
  rcases act_cases s k m with idle | ⟨t, turn, found, -, acted⟩
  · rw [idle]
    exact apart
  · rw [acted]
    exact apart.settle found turn

/-- A thread leaves the others alone. -/
theorem view?_act_other (apart : m.Apart) {j k : Nat} (other : j ≠ k)
    (old : j < m.threads.length) : (m.act s k).view? j = m.view? j := by
  rcases act_cases s k m with idle | ⟨t, turn, found, -, acted⟩
  · rw [idle]
  · rw [acted]
    exact view?_settle_other apart found turn other old

theorem future?_act (answers : s.AnswersAs i) (apart : m.Apart) {j : Nat}
    (old : j < m.threads.length) (k : Nat) : (m.act s k).future? i j = m.future? i j := by
  by_cases other : j = k
  · subst other
    rcases act_cases s j m with idle | ⟨t, turn, found, acted, after⟩
    · rw [idle]
    · simp only [after, future?, view?_settle_self apart found, Option.map_some,
        Plan.ofRun_turn? answers acted]
      rw [view?, found]
      rfl
  · rw [future?, future?, view?_act_other apart other old]

theorem Apart.play (apart : m.Apart) (schedule : List Nat) : (m.play s schedule).Apart := by
  induction schedule generalizing m with
  | nil => exact apart
  | cons k schedule ih => exact ih (apart.act k)

theorem length_le_play (schedule : List Nat) :
    m.threads.length ≤ (m.play s schedule).threads.length := by
  induction schedule generalizing m with
  | nil => exact Nat.le_refl _
  | cons k schedule ih => exact Nat.le_trans (length_le_act k) ih

/-- Nothing that happens changes what a thread will come to. -/
theorem future?_play (answers : s.AnswersAs i) (apart : m.Apart) {j : Nat}
    (old : j < m.threads.length) (schedule : List Nat) :
    (m.play s schedule).future? i j = m.future? i j := by
  induction schedule generalizing m with
  | nil => rfl
  | cons k schedule ih =>
    rw [play, ih (apart.act k) (Nat.lt_of_lt_of_le old (length_le_act k)),
      future?_act answers apart old]

theorem future?_of_ending? {k : Nat} {ending : Ending} (ended : m.ending? k = some ending) :
    m.future? i k = some ending := by
  rw [ending?] at ended
  obtain ⟨⟨plan, st⟩, seen, ended⟩ := Option.bind_eq_some_iff.1 ended
  obtain ⟨result, last, rfl⟩ := Option.map_eq_some_iff.1 ended
  rw [future?, seen]
  cases plan <;> cases last <;> rfl

end Pool

end Relay
