import Relay.Proofs.Execution.Sequence

/-! # Lists without their detached actions

An action that is not waited for leaves one trace in the list that launches it: if it is verbose,
its start is announced. Apart from these announcements a list does what is left of it when all such
actions are deleted, `execute_blockingList`.
-/

namespace Relay

namespace Action

mutual

/-- A waiting action without the detached actions inside it. What a call ships is left alone. -/
def blocking : Action → Action
  | step mode s => step mode s
  | call mode c shipped => call mode c shipped
  | group mode members => group mode (blockingList members)

/-- The waiting actions of a list, without the detached actions inside them. -/
def blockingList : List Action → List Action
  | [] => []
  | a :: rest => if a.mode.wait then a.blocking :: blockingList rest else blockingList rest

end

mutual

/-- The actions that one repetition of an action may launch itself. -/
def detached : Action → List Action
  | step _ _ => []
  | call _ _ _ => []
  | group _ members => detachedList members

/-- The actions of a list, at any level of waiting groups, that are not waited for. -/
def detachedList : List Action → List Action
  | [] => []
  | a :: rest => (if a.mode.wait then a.detached else [a]) ++ detachedList rest

end

@[simp] theorem blocking_mode (a : Action) : a.blocking.mode = a.mode := by
  cases a <;> rfl

@[simp] theorem blocking_kind (a : Action) : a.blocking.kind = a.kind := by
  cases a <;> rfl

@[simp] theorem blocking_repetitions (a : Action) : a.blocking.repetitions = a.repetitions := by
  rw [repetitions, blocking_mode, repetitions]

/-- An event announces the start of one of the actions. -/
def Announces (actions : List Action) (event : Event) : Prop :=
  ∃ a ∈ actions, a.mode.verbose = true ∧ event = .processing a.kind a.mode

end Action

/-- The second list has the events of the first one, and others between them that are of a certain
kind. -/
inductive Events.Amid (kind : Event → Prop) : Events → Events → Prop where
  | nil : Amid kind [] []
  | both (event : Nat × Event) {fewer more : Events} (rest : Amid kind fewer more) :
      Amid kind (event :: fewer) (event :: more)
  | extra {event : Nat × Event} (fits : kind event.2) {fewer more : Events}
      (rest : Amid kind fewer more) : Amid kind fewer (event :: more)

namespace Events.Amid

variable {kind : Event → Prop} {fewer more fewer' more' : Events}

theorem append (first : Amid kind fewer more) (second : Amid kind fewer' more') :
    Amid kind (fewer ++ fewer') (more ++ more') := by
  induction first with
  | nil => exact second
  | both event _ ih => exact .both event ih
  | extra fits _ ih => exact .extra fits ih

theorem refl (events : Events) : Amid kind events events := by
  induction events with
  | nil => exact .nil
  | cons event rest ih => exact .both event ih

theorem reverse (amid : Amid kind fewer more) : Amid kind fewer.reverse more.reverse := by
  induction amid with
  | nil => exact .nil
  | both event _ ih =>
    rw [List.reverse_cons, List.reverse_cons]
    exact ih.append (refl [event])
  | extra fits _ ih =>
    rw [List.reverse_cons]
    exact List.append_nil (List.reverse _) ▸ ih.append (.extra fits .nil)

/-- Without events of the kind there is nothing in between. -/
theorem eq_of_none (amid : Amid kind fewer more) (none : ∀ event, ¬ kind event) :
    more = fewer := by
  induction amid with
  | nil => rfl
  | both event _ ih => rw [ih]
  | extra fits _ _ => exact absurd fits (none _)

end Events.Amid

/-! ## Plans that lose announcements and launches -/

/-- The second plan is the first one without its launches, and without some notes of a certain
kind. -/
inductive Plan.Sheds (kind : Event → Prop) : Plan → Plan → Prop where
  | done (flow : Flow) : Sheds kind (done flow) (done flow)
  | fail (e : ExecutionError) : Sheds kind (fail e) (fail e)
  | note (event : Event) {x y : Plan} (rest : Sheds kind x y) :
      Sheds kind (note event x) (note event y)
  | pass (ms : Nat) {x y : Plan} (rest : Sheds kind x y) : Sheds kind (pass ms x) (pass ms y)
  | look {x y : Store → Plan} (rest : ∀ store, Sheds kind (x store) (y store)) :
      Sheds kind (look x) (look y)
  | keep (key : String) (value : Json) {x y : Plan} (rest : Sheds kind x y) :
      Sheds kind (keep key value x) (keep key value y)
  | script (source : String) {x y : Except Script.ScriptError Json → Plan}
      (rest : ∀ answer, Sheds kind (x answer) (y answer)) :
      Sheds kind (script source x) (script source y)
  | send (request : Request) {x y : Except DispatchError Json → Plan}
      (rest : ∀ answer, Sheds kind (x answer) (y answer)) :
      Sheds kind (send request x) (send request y)
  | quiet {event : Event} (fits : kind event) {x y : Plan} (rest : Sheds kind x y) :
      Sheds kind (note event x) y
  | single (action : Action) (depth : Nat) (once : Plan) {x y : Plan} (rest : Sheds kind x y) :
      Sheds kind (launch action depth once x) y

/-- Two executions have come equally far, but for events of a certain kind and for tasks. -/
structure ExecutionState.Alike (kind : Event → Prop) (st st' : ExecutionState) : Prop where
  store : st.store = st'.store
  now : st.now = st'.now
  events : Events.Amid kind st'.events st.events

theorem ExecutionState.Alike.absorbed {kind : Event → Prop} {st st' : ExecutionState}
    (alike : Alike kind st st') (effects : Effects) :
    Alike kind (st.absorbed effects) (st'.absorbed effects) := by
  refine ⟨alike.store, congrArg (· + _) alike.now, ?_⟩
  simp only [ExecutionState.absorbed, List.reverseAux_eq, alike.now]
  exact (Events.Amid.refl _).append alike.events

namespace Plan.Sheds

variable {kind : Event → Prop} {x y x' y' : Plan}

theorem andThen (first : Sheds kind x y) (second : Sheds kind x' y') :
    Sheds kind (x.andThen x') (y.andThen y') := by
  induction first with
  | done flow =>
    cases flow with
    | next value => exact second
    | ret value => exact .done _
  | fail e => exact .fail e
  | note event _ ih => exact .note event ih
  | pass ms _ ih => exact .pass ms ih
  | look _ ih => exact .look ih
  | keep key value _ ih => exact .keep key value ih
  | script source _ ih => exact .script source ih
  | send request _ ih => exact .send request ih
  | quiet fits _ ih => exact .quiet fits ih
  | single action depth once _ ih => exact .single action depth once ih

theorem repeated (once : Sheds kind x y) (later : Sheds kind x' y') (n : Nat) :
    Sheds kind (Plan.repeated x x' n) (Plan.repeated y y' n) := by
  induction n with
  | zero => exact later
  | succ n ih => exact once.andThen ih

theorem launches (action : Action) (depth : Nat) (once : Plan) (later : Sheds kind x y) (n : Nat) :
    Sheds kind (Plan.launches action depth once x n) y := by
  induction n with
  | zero => exact later
  | succ n ih => exact .single action depth once ih

theorem entering (config : ExecutionConfig) (depth : Nat) (inside : Sheds kind x y) :
    Sheds kind (Plan.entering config depth x) (Plan.entering config depth y) := by
  rw [Plan.entering, Plan.entering]
  split
  · exact .fail _
  · exact inside

open ExecutionState in
/-- What a plan sheds makes no difference to the rest of it. -/
theorem run (sheds : Sheds kind x y) (i : Interpreter) {st st' : ExecutionState}
    (alike : Alike kind st st') :
    (x.run i st).1 = (y.run i st').1 ∧ Alike kind (x.run i st).2 (y.run i st').2 := by
  induction sheds generalizing st st' with
  | done flow => exact ⟨rfl, alike⟩
  | fail e => exact ⟨rfl, alike⟩
  | note event _ ih =>
    refine ih ⟨alike.store, alike.now, ?_⟩
    simp only [noted, alike.now]
    exact .both _ alike.events
  | pass ms _ ih => exact ih ⟨alike.store, congrArg (· + ms) alike.now, alike.events⟩
  | look _ ih =>
    simp only [Plan.run, alike.store]
    exact ih _ alike
  | keep key value _ ih =>
    exact ih ⟨congrArg (Dict.insert · key value) alike.store, alike.now, alike.events⟩
  | script source _ ih =>
    simp only [Plan.run, alike.store]
    have same : Alike kind { st with store := (i.scripts source st'.store).store }
        { st' with store := (i.scripts source st'.store).store } := ⟨rfl, alike.now, alike.events⟩
    exact ih _ (same.absorbed _)
  | send request _ ih => exact ih _ (alike.absorbed _)
  | quiet fits _ ih => exact ih ⟨alike.store, alike.now, .extra fits alike.events⟩
  | single action depth once _ ih => exact ih ⟨alike.store, alike.now, alike.events⟩

end Plan.Sheds

namespace Plan

open Relay.Action

variable {kind : Event → Prop}

theorem Sheds.refl_ofStep (config : ExecutionConfig) (s : Step) :
    Sheds kind (ofStep config s) (ofStep config s) := by
  cases s with
  | log message => exact .note _ (.done _)
  | wait duration => exact .pass _ (.done _)
  | set key value => exact .keep _ _ (.done _)
  | code source =>
    refine .note _ (.script _ fun answer => ?_)
    cases answer with
    | ok value => exact .done _
    | error e => exact .fail _
  | ret data => exact .look fun _ => .done _
  | unknown kind => exact .note _ (.done _)

theorem Sheds.refl_ofCall (call : Call) (shipped : List Action) :
    Sheds kind (ofCall call shipped) (ofCall call shipped) := by
  rw [ofCall]
  split
  · exact .fail _
  · refine .note _ (.send _ fun answer => ?_)
    cases answer with
    | error e => exact .fail _
    | ok response =>
      simp only [keepResponse]
      split
      · split
        · exact .keep _ _ (.done _)
        · exact .note _ (.done _)
      · exact .done _

mutual

theorem sheds_ofAction (config : ExecutionConfig) (depth : Nat) (a : Action)
    (fits : ∀ event, Announces a.detached event → kind event) :
    Sheds kind (ofAction config depth a) (ofAction config depth a.blocking) := by
  cases a with
  | step mode s => exact .refl_ofStep config s
  | call mode c shipped => exact .refl_ofCall c shipped
  | group mode members =>
    exact .entering config (depth + 1) (sheds_ofList config (depth + 1) members fits)

/-- The plan of a list without its detached actions has neither their launches nor their
announcements. -/
theorem sheds_ofList (config : ExecutionConfig) (depth : Nat) (actions : List Action)
    (fits : ∀ event, Announces (detachedList actions) event → kind event) :
    Sheds kind (ofList config depth actions) (ofList config depth (blockingList actions)) := by
  cases actions with
  | nil => exact .done _
  | cons a rest =>
    have others : Sheds kind (ofList config depth rest) (ofList config depth (blockingList rest)) :=
      sheds_ofList config depth rest fun event ⟨b, there, announced⟩ =>
        fits event ⟨b, List.mem_append_right _ there, announced⟩
    by_cases wait : a.mode.wait = true
    · have once : Sheds kind (ofAction config depth a) (ofAction config depth a.blocking) :=
        sheds_ofAction config depth a fun event ⟨b, there, announced⟩ =>
          fits event ⟨b, List.mem_append_left _ (by rwa [if_pos wait]), announced⟩
      have run := once.repeated others a.repetitions
      simp only [blockingList, if_pos wait, ofList, blocking_mode, blocking_kind,
        blocking_repetitions]
      split
      · exact .note _ run
      · exact run
    · have run := others.launches a depth (ofAction config depth a) a.repetitions
      simp only [blockingList, if_neg wait, ofList]
      split
      · rename_i verbose
        refine .quiet (fits _ ⟨a, List.mem_append_left _ ?_, verbose, rfl⟩) run
        rw [if_neg wait]
        exact List.mem_singleton_self a
      · exact run

end

end Plan

/-- Deleting the detached actions of a list takes nothing away from what the list itself does but
the announcements of these actions. -/
theorem Interpreter.execute_blockingList (i : Interpreter) (actions : List Action) (store : Store) :
    let ended := i.execute actions store
    let less := i.execute (Action.blockingList actions) store
    ended.result = less.result ∧ ended.store = less.store ∧
      ended.effects.elapsed = less.effects.elapsed ∧
      Events.Amid (Action.Announces (Action.detachedList actions)) less.effects.events
        ended.effects.events := by
  have sheds := (Plan.sheds_ofList i.config 1 actions fun _ announced => announced).entering
    i.config 1
  have start : ExecutionState.Alike (Action.Announces (Action.detachedList actions)) { store }
      { store } := ⟨rfl, rfl, .nil⟩
  obtain ⟨result, alike⟩ := sheds.run i start
  rw [execute_eq_run, execute_eq_run]
  exact ⟨result, alike.store, alike.now, alike.events.reverse⟩

/-- If none of the detached actions is verbose, nothing at all is taken away. -/
theorem Interpreter.events_blockingList (i : Interpreter) (actions : List Action) (store : Store)
    (silent : ∀ a ∈ Action.detachedList actions, a.mode.verbose = false) :
    (i.execute actions store).effects.events =
      (i.execute (Action.blockingList actions) store).effects.events := by
  refine (execute_blockingList i actions store).2.2.2.eq_of_none ?_
  rintro event ⟨a, there, verbose, -⟩
  rw [silent a there] at verbose
  cases verbose

end Relay
