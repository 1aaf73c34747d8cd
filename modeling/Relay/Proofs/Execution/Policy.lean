import Relay.Proofs.Execution.Rules

/-! # What may be recorded

A policy says which events and which tasks may be recorded in the course of an execution, and which
errors may end it. Whatever runs step by step keeps to it if each request that is sent does: there
is one rule for each way in which an execution records something, and one for each kind of action.
-/

namespace Relay

/-- An event that is neither a request nor a failure. -/
def Event.Plain : Event → Prop
  | .sent _ => False
  | .failed _ => False
  | .taskFailed _ _ => False
  | _ => True

/-- The events and tasks that may be recorded, and the errors that may occur. Plain events are
always allowed, as are errors of scripts and of calls that lead nowhere; a task is accepted for what
it records and for how it ends. -/
structure Policy where
  allows : Event → Prop
  permits : ExecutionError → Prop
  accepts : Task → Prop
  plain : ∀ event : Event, event.Plain → allows event
  script : ∀ cause, permits (.script cause)
  nowhere : ∀ flaw, permits (.dispatch (.invalidTarget flaw))
  taskFailed : ∀ kind e, permits e → allows (.taskFailed kind e)
  launched : ∀ task : Task, (∀ e, task.result = .error e → permits e) →
    (∀ event ∈ task.events, allows event.2) → accepts task

namespace Policy

variable (policy : Policy)

/-- What was recorded so far is allowed. -/
def Held (st : ExecutionState) : Prop :=
  (∀ event ∈ st.events, policy.allows event.2) ∧ ∀ task ∈ st.tasks, policy.accepts task

/-- What a computation does is allowed, whenever it starts. -/
def Covers (effects : Effects) : Prop :=
  (∀ event ∈ effects.events, policy.allows event.2) ∧
    ∀ task ∈ effects.tasks, ∀ start, policy.accepts (task.shift start)

/-- A request may be sent, and the answer keeps to the policy. -/
def Answers (i : Interpreter) (request : Request) : Prop :=
  policy.allows (.sent request) ∧ policy.Covers (i.dispatch request).effects ∧
    ∀ e, (i.dispatch request).result = .error e → policy.permits (.dispatch e)

variable {policy}

theorem held_start (store : Store) (now : Nat) : policy.Held { store, now } :=
  ⟨List.forall_mem_nil _, List.forall_mem_nil _⟩

section Rules

open Executing

variable {E : ExecutionError → Prop}

theorem keeps_note {event : Event} (allowed : policy.allows event) :
    Keeps policy.Held E (note event) :=
  keeps_modify fun _ held => ⟨List.forall_mem_cons.2 ⟨allowed, held.1⟩, held.2⟩

/-- Something that may be noted before going on. -/
theorem keeps_noteIf {α : Type} {condition : Prop} [Decidable condition] {event : Event}
    {later : Unit → Executing α} (allowed : policy.allows event)
    (kept : Keeps policy.Held E (later ())) :
    Keeps policy.Held E (if condition then note event >>= later else later ()) := by
  split
  · exact (keeps_note allowed).bind fun _ => kept
  · exact kept

theorem keeps_pass (ms : Nat) : Keeps policy.Held E (pass ms) :=
  keeps_modify fun _ held => held

theorem keeps_keep (key : String) (value : Json) : Keeps policy.Held E (keep key value) :=
  keeps_modify fun _ held => held

theorem keeps_absorb {effects : Effects} (covered : policy.Covers effects) :
    Keeps policy.Held E (absorb effects) := by
  apply keeps_modify
  intro st held
  constructor
  · intro event member
    have placed : event ∈ (effects.events.shift st.now).reverseAux st.events := member
    rw [List.reverseAux_eq, List.mem_append, List.mem_reverse] at placed
    rcases placed with new | old
    · obtain ⟨inner, inside, rfl⟩ := List.mem_map.1 new
      exact covered.1 inner inside
    · exact held.1 event old
  · intro task member
    have placed : task ∈ (effects.tasks.map (Task.shift st.now)).reverseAux st.tasks := member
    rw [List.reverseAux_eq, List.mem_append, List.mem_reverse] at placed
    rcases placed with new | old
    · obtain ⟨inner, inside, rfl⟩ := List.mem_map.1 new
      exact covered.2 inner inside st.now
    · exact held.2 task old

private theorem allows_failureEvents {kind : String} {ended : Nat}
    {result : Except ExecutionError Flow}
    (permitted : ∀ e, result = .error e → policy.permits e) :
    ∀ event ∈ Task.failureEvents kind ended result, policy.allows event.2 := by
  cases result with
  | ok flow => exact List.forall_mem_nil _
  | error e =>
    intro event noted
    obtain rfl := List.mem_singleton.1 noted
    exact policy.taskFailed kind e (permitted e rfl)

/-- A task that is launched records what the computation records that it runs, and ends as that
does. -/
theorem keeps_launch {action : Action} {depth : Nat} {once : Executing Flow}
    (kept : Keeps policy.Held policy.permits once) :
    Keeps policy.Held E (launch action depth once) := by
  apply keeps_modify
  intro st held
  refine ⟨held.1, ?_⟩
  intro task member
  obtain ⟨inner, permitted⟩ := kept _ (held_start st.store st.now)
  rcases List.mem_append.1 member with nested | here
  · exact inner.2 task nested
  · rcases List.mem_cons.1 here with rfl | old
    · refine policy.launched _ permitted fun event noted => ?_
      rcases List.mem_append.1 noted with own | failure
      · exact inner.1 event (List.mem_reverse.1 own)
      · exact allows_failureEvents permitted event failure
    · exact held.2 task old

end Rules

section Actions

open Executing Interpreter

variable (i : Interpreter)

private theorem keeps_runScript (source : String) :
    Keeps policy.Held policy.permits (i.runScript source) := by
  refine (keeps_note (policy.plain _ (by trivial))).bind fun _ => keeps_get.bind fun st => ?_
  refine Keeps.bind ?_ fun _ => ?_
  · exact keeps_modify fun _ held => held
  refine (keeps_absorb ⟨?_, List.forall_mem_nil _⟩).bind fun _ => ?_
  · intro event member
    obtain ⟨inner, -, rfl⟩ := List.mem_map.1 member
    exact policy.plain _ (by trivial)
  · exact keeps_ofExcept policy.script _

theorem keeps_performStep (s : Step) : Keeps policy.Held policy.permits (i.performStep s) := by
  cases s with
  | log message => exact (keeps_note (policy.plain _ (by trivial))).bind fun _ => keeps_pure _
  | wait duration => exact (keeps_pass _).bind fun _ => keeps_pure _
  | set key value => exact (keeps_keep key value).bind fun _ => keeps_pure _
  | code source => exact (keeps_runScript i source).bind fun _ => keeps_pure _
  | ret data => exact keeps_get.bind fun _ => keeps_pure _
  | unknown kind => exact (keeps_note (policy.plain _ (by trivial))).bind fun _ => keeps_pure _

variable {i}

private theorem keeps_send {request : Request} (answers : policy.Answers i request) :
    Keeps policy.Held policy.permits (i.send request) := by
  obtain ⟨allowed, covered, permitted⟩ := answers
  refine (keeps_note allowed).bind fun _ => (keeps_absorb covered).bind fun _ => ?_
  cases ended : (i.dispatch request).result with
  | ok response => exact keeps_pure response
  | error e => exact keeps_throw (permitted e ended)

/-- A call keeps to the policy if the request that it makes does. -/
theorem keeps_performCall {c : Call} {shipped : List Action}
    (answers : ∀ request, Request.ofCall c shipped = .ok request → policy.Answers i request) :
    Keeps policy.Held policy.permits (i.performCall c shipped) := by
  rw [performCall]
  cases made : Request.ofCall c shipped with
  | error e =>
    have lost : policy.permits (.dispatch e) := by
      rw [Request.ofCall] at made
      split at made
      · cases made
        exact policy.nowhere _
      · cases made
    exact keeps_throw (α := Flow) lost
  | ok request =>
    refine (keeps_send (answers request made)).bind fun response => ?_
    dsimp only
    split
    · split
      · exact (keeps_keep _ response).bind fun _ => keeps_pure _
      · exact (keeps_note (policy.plain _ (by trivial))).bind fun _ => keeps_pure _
    · exact keeps_pure _

theorem keeps_checkDepth {depth : Nat}
    (permitted : i.config.maxDepth < depth → policy.permits (.tooDeep depth i.config.maxDepth)) :
    Keeps policy.Held policy.permits (i.checkDepth depth) := by
  rw [checkDepth]
  split
  · rename_i beyond
    exact keeps_throw (permitted beyond)
  · exact keeps_pure ()

/-- A list keeps to the policy if its first action and its rest do. -/
theorem keeps_performAll_cons {depth : Nat} {a : Action} {rest : List Action}
    (once : Keeps policy.Held policy.permits (i.perform depth a))
    (others : Keeps policy.Held policy.permits (i.performAll depth rest)) :
    Keeps policy.Held policy.permits (i.performAll depth (a :: rest)) := by
  rw [performAll]
  refine keeps_noteIf (policy.plain _ (by trivial)) ?_
  dsimp only
  split
  · refine (keeps_repeated once _).bind fun ended => ?_
    cases ended with
    | some value => exact keeps_pure _
    | none => exact others
  · exact (keeps_times (keeps_launch once) _).bind fun _ => others

end Actions

end Policy

end Relay
