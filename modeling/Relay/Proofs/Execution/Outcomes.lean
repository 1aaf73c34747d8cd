import Relay.Proofs.Action.Tree
import Relay.Proofs.Execution.Pool

/-! # What plans come to

What holds of every end of a plan and of everything that it launches holds of what is left of the
plan after a turn, and of the flow that carrying it out ends with. The plan of a list gets such
properties from the returns in it and from its detached actions, `meets_ofList`.
-/

namespace Relay.Plan

variable {ends : Flow → Prop} {starts : Action → Nat → Plan → Prop} {config : ExecutionConfig}

/-- Every end of a plan, if it does not fail, has a property, and every launch has one; the plans
that are launched are of this kind as well. -/
def Meets (ends : Flow → Prop) (starts : Action → Nat → Plan → Prop) : Plan → Prop
  | done flow => ends flow
  | fail _ => True
  | note _ rest => rest.Meets ends starts
  | pass _ rest => rest.Meets ends starts
  | look rest => ∀ store, (rest store).Meets ends starts
  | keep _ _ rest => rest.Meets ends starts
  | script _ rest => ∀ answer, (rest answer).Meets ends starts
  | send _ rest => ∀ answer, (rest answer).Meets ends starts
  | launch action depth once rest =>
    starts action depth once ∧ once.Meets ends starts ∧ rest.Meets ends starts

theorem Meets.andThen {x y : Plan} (first : x.Meets ends starts) (second : y.Meets ends starts) :
    (x.andThen y).Meets ends starts := by
  induction x with
  | done flow =>
    cases flow with
    | next value => exact second
    | ret value => exact first
  | fail e => trivial
  | note event rest ih => exact ih first
  | pass ms rest ih => exact ih first
  | look rest ih => exact fun store => ih store (first store)
  | keep key value rest ih => exact ih first
  | script source rest ih => exact fun answer => ih answer (first answer)
  | send request rest ih => exact fun answer => ih answer (first answer)
  | launch action depth once rest _ ih => exact ⟨first.1, first.2.1, ih first.2.2⟩

theorem Meets.reporting {plan : Plan} (meets : plan.Meets ends starts) (kind : String) :
    (plan.reporting kind).Meets ends starts := by
  induction plan with
  | done flow => exact meets
  | fail e => trivial
  | note event rest ih => exact ih meets
  | pass ms rest ih => exact ih meets
  | look rest ih => exact fun store => ih store (meets store)
  | keep key value rest ih => exact ih meets
  | script source rest ih => exact fun answer => ih answer (meets answer)
  | send request rest ih => exact fun answer => ih answer (meets answer)
  | launch action depth once rest _ ih => exact ⟨meets.1, meets.2.1, ih meets.2.2⟩

theorem Meets.repeated {once later : Plan} (first : once.Meets ends starts)
    (second : later.Meets ends starts) (n : Nat) :
    (Plan.repeated once later n).Meets ends starts := by
  induction n with
  | zero => exact second
  | succ n ih => exact first.andThen ih

theorem Meets.launches {action : Action} {depth : Nat} {once later : Plan}
    (start : starts action depth once) (first : once.Meets ends starts)
    (second : later.Meets ends starts) (n : Nat) :
    (Plan.launches action depth once later n).Meets ends starts := by
  induction n with
  | zero => exact second
  | succ n ih => exact ⟨start, first, ih⟩

theorem Meets.entering {inside : Plan} (meets : inside.Meets ends starts) (depth : Nat) :
    (Plan.entering config depth inside).Meets ends starts := by
  rw [Plan.entering]
  split
  · trivial
  · exact meets

/-- What a plan meets is met by what it comes to. -/
theorem Meets.run {plan : Plan} (meets : plan.Meets ends starts) (i : Interpreter)
    {st : ExecutionState} {flow : Flow} (ended : (plan.run i st).1 = .ok flow) : ends flow := by
  induction plan generalizing st with
  | done last => cases ended; exact meets
  | fail e => cases ended
  | note event rest ih => exact ih meets ended
  | pass ms rest ih => exact ih meets ended
  | look rest ih => exact ih _ (meets _) ended
  | keep key value rest ih => exact ih meets ended
  | script source rest ih => exact ih _ (meets _) ended
  | send request rest ih => exact ih _ (meets _) ended
  | launch action depth once rest _ ih => exact ih meets.2.2 ended

/-- What a plan meets is met by what is left of it after a turn, and by a task that it launches. -/
theorem Meets.turn? {W : Type*} {s : Surroundings W} {plan : Plan}
    (meets : plan.Meets ends starts) {st : ExecutionState} {world : W} {turn : Turn W}
    (acted : plan.turn? s st world = some turn) :
    turn.plan.Meets ends starts ∧ ∀ task, turn.task = some task → task.Meets ends starts := by
  cases plan with
  | done flow => cases acted
  | fail e => cases acted
  | look rest =>
    cases acted
    exact ⟨meets _, nofun⟩
  | script source rest =>
    cases acted
    exact ⟨meets _, nofun⟩
  | send request rest =>
    cases acted
    exact ⟨meets _, nofun⟩
  | launch action depth once rest =>
    cases acted
    refine ⟨meets.2.2, ?_⟩
    rintro _ ⟨⟩
    exact meets.2.1.reporting action.kind
  | _ =>
    cases acted
    exact ⟨meets, nofun⟩

/-! ## Plans of lists -/

theorem meets_ofStep (next : ∀ value, ends (.next value)) {s : Step}
    (ret : ∀ data, s = .ret data → ∀ store : Store, ends (.ret (store.resolve data))) :
    (ofStep config s).Meets ends starts := by
  cases s with
  | code source =>
    intro answer
    cases answer with
    | ok value => exact next value
    | error e => trivial
  | ret data => exact ret data rfl
  | _ => exact next _

theorem meets_ofCall (next : ∀ value, ends (.next value)) (call : Call) (shipped : List Action) :
    (ofCall call shipped).Meets ends starts := by
  rw [ofCall]
  split
  · trivial
  · intro answer
    cases answer with
    | error e => trivial
    | ok response =>
      simp only [keepResponse]
      split
      · split <;> exact next response
      · exact next response

mutual

theorem meets_ofAction (next : ∀ value, ends (.next value))
    (launched : ∀ (a : Action) (depth : Nat), a.mode.wait = false →
      starts a depth (ofAction config depth a))
    (depth : Nat) {a : Action} (returns : a.All
      (fun s => ∀ data, s = .ret data → ∀ store : Store, ends (.ret (store.resolve data)))
      fun _ => True) :
    (ofAction config depth a).Meets ends starts := by
  cases a with
  | step mode s => exact meets_ofStep next returns
  | call mode c shipped => exact meets_ofCall next c shipped
  | group mode members =>
    exact (meets_ofList next launched (depth + 1) returns).entering (depth + 1)

theorem meets_ofList (next : ∀ value, ends (.next value))
    (launched : ∀ (a : Action) (depth : Nat), a.mode.wait = false →
      starts a depth (ofAction config depth a))
    (depth : Nat) {actions : List Action} (returns : Action.AllList
      (fun s => ∀ data, s = .ret data → ∀ store : Store, ends (.ret (store.resolve data)))
      (fun _ => True) actions) :
    (ofList config depth actions).Meets ends starts := by
  cases actions with
  | nil => exact next _
  | cons a rest =>
    have once := meets_ofAction next launched depth returns.1
    have others := meets_ofList next launched depth returns.2
    rw [ofList]
    cases waits : a.mode.wait with
    | true => cases a.mode.verbose <;> exact once.repeated others _
    | false => cases a.mode.verbose <;> exact Meets.launches (launched a depth waits) once others _

end

end Relay.Plan
