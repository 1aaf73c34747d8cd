import Relay.Proofs.Execution.Pool

/-! # What an execution writes

An execution writes to its store where it sets a key and where it keeps the response to a call. Both
are written down in the list: a list without scripts changes no key but those that its awaited
actions name, and a key that is only named for a response changes to nothing but such a response
that counts as something, `execute_writes`. Neither what is shipped to other nodes nor what is
launched beside the list counts, whenever it runs and however the list ends.
-/

namespace Relay

universe u

namespace Action

/-- The action lies in the list or in its groups, and it is waited for like every group around
it. -/
inductive Awaited : List Action → Action → Prop where
  | here {actions : List Action} {a : Action} (member : a ∈ actions)
      (waits : a.mode.wait = true) : Awaited actions a
  | inside {actions members : List Action} {mode : Mode} {a : Action}
      (member : group mode members ∈ actions) (waits : mode.wait = true)
      (inner : Awaited members a) : Awaited actions a

/-- An awaited action sets the key. -/
def Sets (actions : List Action) (key : String) : Prop :=
  ∃ mode value, Awaited actions (step mode (.set key value))

/-- The response to an awaited call is kept under the key. -/
def Saves (actions : List Action) (key : String) : Prop :=
  ∃ mode c shipped, Awaited actions (call mode c shipped) ∧ c.saveTo = some key

/-- A response to an awaited call that is kept under the key, where requests get the given
answers. -/
def SavesResponse (answers : Request → Json → Prop) (actions : List Action) (key : String)
    (response : Json) : Prop :=
  ∃ mode c shipped request, Awaited actions (call mode c shipped) ∧ c.saveTo = some key ∧
    Request.ofCall c shipped = .ok request ∧ answers request response

/-- How a store may differ after a list has run on it, where requests get the given answers. -/
structure WritesNamed (answers : Request → Json → Prop) (actions : List Action)
    (before after : Store) : Prop where
  /-- A key that no awaited action names is as it was, present or absent. -/
  unnamed {key : String} : ¬ Sets actions key → ¬ Saves actions key →
    after.get? key = before.get? key
  /-- A key that is only named for a response is as it was, or such a response that counts as
  something. -/
  saved {key : String} : ¬ Sets actions key → after.get? key = before.get? key ∨
    ∃ response, after.get? key = some response ∧ response.truthy = true ∧
      SavesResponse answers actions key response

/-- What one repetition of the action writes itself may be written; it runs no script. -/
def Permitted (answers : Request → Json → Prop) (may : String → Json → Prop) : Action → Prop
  | step _ (.set key value) => may key value
  | step _ (.code _) => False
  | step _ _ => True
  | call _ c shipped => ∀ request key response, Request.ofCall c shipped = .ok request →
      c.saveTo = some key → answers request response → response.truthy = true → may key response
  | group _ _ => True

/-- What a list may write: what it sets, and responses that count as something. -/
def MayWrite (answers : Request → Json → Prop) (actions : List Action) (key : String)
    (value : Json) : Prop :=
  Sets actions key ∨ value.truthy = true ∧ SavesResponse answers actions key value

@[simp] theorem not_awaited_nil (a : Action) : ¬ Awaited [] a := by
  rintro (⟨member, -⟩ | ⟨member, -, -⟩) <;> cases member

/-- The awaited actions of a list are those of its first action, if that is waited for, and those
of the rest. -/
@[simp] theorem awaited_cons {first a : Action} {rest : List Action} :
    Awaited (first :: rest) a ↔
      first.mode.wait = true ∧
        (first = a ∨ ∃ mode members, first = group mode members ∧ Awaited members a) ∨
      Awaited rest a := by
  constructor
  · rintro (⟨member, waits⟩ | ⟨member, waits, inner⟩)
    · rcases List.mem_cons.1 member with rfl | later
      · exact .inl ⟨waits, .inl rfl⟩
      · exact .inr (.here later waits)
    · rcases List.mem_cons.1 member with rfl | later
      · exact .inl ⟨waits, .inr ⟨_, _, rfl, inner⟩⟩
      · exact .inr (.inside later waits inner)
  · rintro (⟨waits, rfl | ⟨mode, members, rfl, inner⟩⟩ | ⟨member, waits⟩ | ⟨member, waits, inner⟩)
    · exact .here List.mem_cons_self waits
    · exact .inside List.mem_cons_self waits inner
    · exact .here (List.mem_cons_of_mem first member) waits
    · exact .inside (List.mem_cons_of_mem first member) waits inner

theorem SavesResponse.saves {answers : Request → Json → Prop} {actions : List Action} {key : String}
    {response : Json} (saved : SavesResponse answers actions key response) : Saves actions key :=
  let ⟨mode, c, shipped, _, awaited, named, _⟩ := saved
  ⟨mode, c, shipped, awaited, named⟩

/-- Every awaited action writes what the list may write, if none runs a script. -/
theorem permitted_mayWrite {answers : Request → Json → Prop} {actions : List Action}
    (noCode : ∀ mode source, ¬ Awaited actions (step mode (.code source))) {a : Action}
    (awaited : Awaited actions a) : a.Permitted answers (MayWrite answers actions) := by
  cases a with
  | step mode s =>
    cases s with
    | set key value => exact .inl ⟨mode, value, awaited⟩
    | code source => exact noCode mode source awaited
    | _ => trivial
  | call mode c shipped =>
    intro request key response made named given counts
    exact .inr ⟨counts, mode, c, shipped, request, awaited, named, made, given⟩
  | group mode members => trivial

end Action

/-- Where two stores differ, the second one has a value that may be written. -/
def Store.WrittenOver (may : String → Json → Prop) (before after : Store) : Prop :=
  ∀ key, after.get? key = before.get? key ∨ ∃ value, may key value ∧ after.get? key = some value

theorem Store.WrittenOver.insert {may : String → Json → Prop} {before after : Store}
    (written : WrittenOver may before after) {key : String} {value : Json}
    (allowed : may key value) : WrittenOver may before (after.insert key value) := by
  intro other
  rw [Dict.get?_insert]
  split
  · rename_i same
    subst same
    exact .inr ⟨value, allowed, rfl⟩
  · exact written other

/-- Writing only what a list may write leaves the other keys alone. -/
theorem Store.WrittenOver.named {answers : Request → Json → Prop} {actions : List Action}
    {before after : Store}
    (written : WrittenOver (Action.MayWrite answers actions) before after) :
    Action.WritesNamed answers actions before after where
  unnamed {key} unset unsaved := by
    rcases written key with same | ⟨value, set | ⟨-, response⟩, -⟩
    · exact same
    · exact absurd set unset
    · exact absurd response.saves unsaved
  saved {key} unset := by
    rcases written key with same | ⟨value, set | ⟨counts, response⟩, here⟩
    · exact .inl same
    · exact absurd set unset
    · exact .inr ⟨value, here, counts, response⟩

/-- The request may be answered with the response. -/
def Interpreter.Answers (i : Interpreter) (request : Request) (response : Json) : Prop :=
  (i.dispatch request).result = .ok response

/-- The request may be answered with the response, depending on what was asked before. -/
def Surroundings.Answers {W : Type u} (s : Surroundings W) (request : Request)
    (response : Json) : Prop :=
  ∃ world, (s.dispatch request world).1.result = .ok response

namespace Plan

variable {answers : Request → Json → Prop} {may : String → Json → Prop} {config : ExecutionConfig}

/-- Every entry that a plan writes may be written if requests get the given answers, and it runs no
scripts. What it launches is not asked about. -/
def WritesOnly (answers : Request → Json → Prop) (may : String → Json → Prop) : Plan → Prop
  | done _ => True
  | fail _ => True
  | note _ rest => rest.WritesOnly answers may
  | pass _ rest => rest.WritesOnly answers may
  | look rest => ∀ store, (rest store).WritesOnly answers may
  | keep key value rest => may key value ∧ rest.WritesOnly answers may
  | script _ _ => False
  | send request rest => ∀ answer, (∀ response, answer = .ok response → answers request response) →
      (rest answer).WritesOnly answers may
  | launch _ _ _ rest => rest.WritesOnly answers may

theorem WritesOnly.andThen {x y : Plan} (first : x.WritesOnly answers may)
    (second : y.WritesOnly answers may) : (x.andThen y).WritesOnly answers may := by
  induction x with
  | done flow =>
    cases flow with
    | next value => exact second
    | ret value => trivial
  | fail e => trivial
  | note event rest ih => exact ih first
  | pass ms rest ih => exact ih first
  | look rest ih => exact fun store => ih store (first store)
  | keep key value rest ih => exact ⟨first.1, ih first.2⟩
  | script source rest ih => exact first.elim
  | send request rest ih => exact fun answer given => ih answer (first answer given)
  | launch action depth once rest _ ih => exact ih first

theorem WritesOnly.repeated {once later : Plan} (first : once.WritesOnly answers may)
    (second : later.WritesOnly answers may) (n : Nat) :
    (Plan.repeated once later n).WritesOnly answers may := by
  induction n with
  | zero => exact second
  | succ n ih => exact first.andThen ih

theorem WritesOnly.launches {later : Plan} (rest : later.WritesOnly answers may) (action : Action)
    (depth : Nat) (once : Plan) (n : Nat) :
    (Plan.launches action depth once later n).WritesOnly answers may := by
  induction n with
  | zero => exact rest
  | succ n ih => exact ih

theorem WritesOnly.entering {inside : Plan} (inner : inside.WritesOnly answers may) (depth : Nat) :
    (Plan.entering config depth inside).WritesOnly answers may := by
  rw [Plan.entering]
  split
  · trivial
  · exact inner

/-- What is written in the course of a plan may be written. -/
theorem WritesOnly.run {i : Interpreter} {plan : Plan} {before : Store} {st : ExecutionState}
    (only : plan.WritesOnly i.Answers may) (written : before.WrittenOver may st.store) :
    before.WrittenOver may (plan.run i st).2.store := by
  induction plan generalizing st with
  | done flow => exact written
  | fail e => exact written
  | note event rest ih => exact ih only written
  | pass ms rest ih => exact ih only written
  | look rest ih => exact ih _ (only _) written
  | keep key value rest ih => exact ih only.2 (written.insert only.1)
  | script source rest ih => exact only.elim
  | send request rest ih => exact ih _ (only _ fun _ => id) written
  | launch action depth once rest _ ih => exact ih only written

/-- What one turn writes may be written, and so may what is written later. -/
theorem WritesOnly.turn? {W : Type u} {s : Surroundings W} {plan : Plan} {before : Store}
    {st : ExecutionState} {world : W} {turn : Turn W}
    (only : plan.WritesOnly s.Answers may) (written : before.WrittenOver may st.store)
    (acted : plan.turn? s st world = some turn) :
    turn.plan.WritesOnly s.Answers may ∧ before.WrittenOver may turn.state.store := by
  cases plan with
  | done flow => cases acted
  | fail e => cases acted
  | look rest =>
    cases acted
    exact ⟨only _, written⟩
  | keep key value rest =>
    cases acted
    exact ⟨only.2, written.insert only.1⟩
  | script source rest => exact only.elim
  | send request rest =>
    cases acted
    exact ⟨only _ fun _ given => ⟨world, given⟩, written⟩
  | _ =>
    cases acted
    exact ⟨only, written⟩

/-! ## Plans of lists -/

theorem writesOnly_ofStep {mode : Mode} {s : Step}
    (permitted : (Action.step mode s).Permitted answers may) :
    (ofStep config s).WritesOnly answers may := by
  cases s with
  | set key value => exact ⟨permitted, trivial⟩
  | code source => exact permitted.elim
  | ret data => exact fun _ => trivial
  | _ => trivial

theorem writesOnly_ofCall {mode : Mode} {c : Call} {shipped : List Action}
    (permitted : (Action.call mode c shipped).Permitted answers may) :
    (ofCall c shipped).WritesOnly answers may := by
  rw [ofCall]
  cases made : Request.ofCall c shipped with
  | error e => trivial
  | ok request =>
    intro answer given
    cases answer with
    | error e => trivial
    | ok response =>
      cases saved : c.saveTo with
      | none => simp only [keepResponse, saved, WritesOnly]
      | some key =>
        simp only [keepResponse, saved]
        split
        · rename_i counts
          exact ⟨permitted request key response made saved (given response rfl) counts, trivial⟩
        · trivial

mutual

theorem writesOnly_ofAction (depth : Nat) {a : Action} (own : a.Permitted answers may)
    (inner : ∀ mode members, a = .group mode members →
      ∀ b, Action.Awaited members b → b.Permitted answers may) :
    (ofAction config depth a).WritesOnly answers may := by
  cases a with
  | step mode s => exact writesOnly_ofStep own
  | call mode c shipped => exact writesOnly_ofCall own
  | group mode members => exact (writesOnly_ofList (depth + 1) (inner mode members rfl)).entering _

/-- A list writes what its awaited actions write. -/
theorem writesOnly_ofList (depth : Nat) {actions : List Action}
    (permitted : ∀ a, Action.Awaited actions a → a.Permitted answers may) :
    (ofList config depth actions).WritesOnly answers may := by
  cases actions with
  | nil => trivial
  | cons a rest =>
    have others : (ofList config depth rest).WritesOnly answers may :=
      writesOnly_ofList depth fun b awaited => permitted b (Action.awaited_cons.2 (.inr awaited))
    rw [ofList]
    cases waits : a.mode.wait with
    | false => cases a.mode.verbose <;> exact others.launches a depth _ _
    | true =>
      have once : (ofAction config depth a).WritesOnly answers may := by
        apply writesOnly_ofAction depth (permitted a (.here List.mem_cons_self waits))
        rintro mode members rfl b awaited
        exact permitted b (.inside List.mem_cons_self waits awaited)
      cases a.mode.verbose <;> exact once.repeated others _

end

/-- The plan of a list writes what the list may write. -/
theorem writesOnly_whole (config : ExecutionConfig) {actions : List Action}
    (noCode : ∀ mode source, ¬ Action.Awaited actions (.step mode (.code source))) :
    (whole config actions).WritesOnly answers (Action.MayWrite answers actions) :=
  (writesOnly_ofList 1 fun _ => Action.permitted_mayWrite noCode).entering 1

end Plan

/-! ## One thread among others -/

namespace Pool

variable {W : Type u} {s : Surroundings W} {m : Pool W} {may : String → Json → Prop}
  {before : Store} {k : Nat}

/-- A thread has only written what may be written since its store was as it was before, and will
go on like this. -/
def KeepsTo (s : Surroundings W) (may : String → Json → Prop) (before : Store) (k : Nat)
    (m : Pool W) : Prop :=
  ∃ plan st, m.view? k = some (plan, st) ∧ plan.WritesOnly s.Answers may ∧
    before.WrittenOver may st.store

theorem KeepsTo.act (keeps : m.KeepsTo s may before k) (apart : m.Apart) (j : Nat) :
    (m.act s j).KeepsTo s may before k := by
  obtain ⟨plan, st, seen, only, written⟩ := keeps
  obtain ⟨t, found, same⟩ := Option.map_eq_some_iff.1 seen
  by_cases own : k = j
  · subst own
    rcases act_cases s k m with idle | ⟨t', turn, found', acted, after⟩
    · rw [idle]
      exact ⟨plan, st, seen, only, written⟩
    · obtain rfl : t = t' := Option.some.inj (found.symm.trans found')
      cases same
      obtain ⟨only, written⟩ := only.turn? written acted
      rw [after]
      exact ⟨turn.plan, _, view?_settle_self apart found turn, only, written⟩
  · have old : k < m.threads.length := (List.getElem?_eq_some_iff.1 found).1
    exact ⟨plan, st, by rw [view?_act_other apart own old, seen], only, written⟩

theorem KeepsTo.play (keeps : m.KeepsTo s may before k) (apart : m.Apart) (schedule : List Nat) :
    (m.play s schedule).KeepsTo s may before k := by
  induction schedule generalizing m with
  | nil => exact keeps
  | cons j schedule ih => exact ih (keeps.act apart j) (apart.act j)

end Pool

namespace Interpreter

open Plan

/-- A list whose awaited part runs no script writes only the keys that it names, however it ends.
So it is where a launched task runs at once, and wherever its turns fall between those of the list:
at every moment the store of the list differs only so. -/
theorem execute_writes {actions : List Action}
    (noCode : ∀ mode source, ¬ Action.Awaited actions (.step mode (.code source)))
    (before : Store) :
    (∀ i : Interpreter,
      Action.WritesNamed i.Answers actions before (i.execute actions before).store) ∧
    ∀ {W : Type u} (s : Surroundings W) (config : ExecutionConfig) (world : W)
      (schedule : List Nat) (plan : Plan) (st : ExecutionState),
      ((Pool.start (whole config actions) before world).play s schedule).view? 0 =
        some (plan, st) → Action.WritesNamed s.Answers actions before st.store := by
  constructor
  · intro i
    rw [execute_eq_run]
    have written : before.WrittenOver (Action.MayWrite i.Answers actions)
        ((whole i.config actions).run i { store := before }).2.store :=
      (writesOnly_whole i.config noCode).run fun _ => .inl rfl
    exact written.named
  · intro W s config world schedule plan st seen
    have start : (Pool.start (whole config actions) before world).KeepsTo s
        (Action.MayWrite s.Answers actions) before 0 :=
      ⟨_, _, rfl, writesOnly_whole config noCode, fun _ => .inl rfl⟩
    obtain ⟨plan', st', seen', -, written⟩ := start.play (Pool.apart_start _ _ _) schedule
    cases seen.symm.trans seen'
    exact written.named

/-- An interpreter that gets no response to anything. -/
def muted : Interpreter where
  scripts _ store := ⟨.ok .null, store, 0, []⟩
  dispatch _ := ⟨.ok .null, {}⟩

/-- A key is set within a group, another one by a task, and a third one at the receiver of a call
whose response is kept. -/
def delivery : List Action :=
  [.step { wait := false } (.code "context.aside = 1"),
    .group { wait := false } [.step {} (.set "aside" (.bool true))],
    .group { repeats := 2 } [.step {} (.set "mark" (.bool true))],
    .call {} { node := some "b", saveTo := some "note" } [.step {} (.set "aside" (.bool true))],
    .step {} (.ret .null)]

theorem execute_writes_delivery :
    (∀ mode source, ¬ Action.Awaited delivery (.step mode (.code source))) ∧
    let ended := muted.execute delivery Dict.empty
    ended.store.get? "mark" = some (.bool true) ∧ ended.store.get? "note" = none ∧
      ended.store.get? "aside" = none := by
  have noCode : ∀ mode source, ¬ Action.Awaited delivery (.step mode (.code source)) := by
    simp [delivery, Action.mode]
  have frame := (execute_writes.{0} noCode Dict.empty).1 muted
  refine ⟨noCode, rfl, ?_, frame.unnamed ?_ ?_⟩
  · have unset : ¬ Action.Sets delivery "note" := by simp [Action.Sets, delivery, Action.mode]
    rcases frame.saved unset with same | ⟨response, -, counts, _, _, _, _, -, -, -, given⟩
    · exact same
    · cases given
      cases counts
  · simp [Action.Sets, delivery, Action.mode]
  · simp [Action.Saves, delivery, Action.mode, and_assoc]

end Interpreter

end Relay
