import Relay.Proofs.Execution.Ends

/-! # Lists that follow each other

A list that is run behind another one is reached only if the first list ends without a return. Up to
then threads do what they would do without it, and from then on it runs on the store that the first
list left, beside the tasks that are still there, `execute_append`.
-/

namespace Relay

universe u

variable {W : Type u} {s : Surroundings W}

namespace Plan

/-- A plan that has not ended goes on as it would without what follows it. -/
theorem turn?_andThen {plan : Plan} (unfinished : ∀ value, plan ≠ done (.next value)) (later : Plan)
    (st : ExecutionState) (world : W) :
    (plan.andThen later).turn? s st world =
      (plan.turn? s st world).map fun turn => { turn with plan := turn.plan.andThen later } := by
  cases plan with
  | done flow =>
    cases flow with
    | next value => exact absurd rfl (unfinished value)
    | ret value => rfl
  | _ => rfl

end Plan

namespace Pool

/-- The first thread goes on with another plan, unless it fails or returns. -/
def goingOn (m : Pool W) (later : Plan) : Pool W :=
  { m with threads := m.threads.modify 0 fun t => { t with plan := t.plan.andThen later } }

variable {m : Pool W} {later : Plan}

theorem goingOn_start (plan : Plan) (store : Store) (world : W) :
    (start plan store world).goingOn later = start (plan.andThen later) store world := rfl

section Going

variable {k : Nat} {t : Thread}

theorem threads_goingOn_other (other : k ≠ 0) :
    (m.goingOn later).threads[k]? = m.threads[k]? := by
  change (m.threads.modify 0 _)[k]? = _
  rw [List.getElem?_modify_ne _ _ other.symm]

theorem threads_goingOn_first (found : m.threads[0]? = some t) :
    (m.goingOn later).threads[0]? = some { t with plan := t.plan.andThen later } := by
  change (m.threads.modify 0 _)[0]? = _
  rw [List.getElem?_modify_eq, found]
  rfl

theorem settle_goingOn_other (other : k ≠ 0) (found : m.threads[k]? = some t) (turn : Turn W) :
    (m.goingOn later).settle k t turn = (m.settle k t turn).goingOn later := by
  obtain ⟨memory, threads, world⟩ := m
  obtain ⟨k, rfl⟩ := Nat.exists_eq_succ_of_ne_zero other
  cases threads with
  | nil => cases found
  | cons first rest =>
    cases launched : turn.task <;>
      simp [settle, put, spawn, goingOn, launched]

theorem settle_goingOn_first (found : m.threads[0]? = some t) (plan : Plan) (turn : Turn W) :
    (m.goingOn later).settle 0 { t with plan } { turn with plan := turn.plan.andThen later } =
      (m.settle 0 t turn).goingOn later := by
  obtain ⟨memory, threads, world⟩ := m
  cases threads with
  | nil => cases found
  | cons first rest =>
    cases launched : turn.task <;>
      simp [settle, put, spawn, goingOn, launched]

end Going

/-- Where the first thread has failed or returned, nothing follows. -/
theorem goingOn_of_ending? {ending : Ending} (ended : m.ending? 0 = some ending)
    (last : ∀ value, ending.result ≠ .ok (.next value)) : m.goingOn later = m := by
  obtain ⟨⟨plan, st⟩, seen, ended⟩ := Option.bind_eq_some_iff.1 ended
  obtain ⟨result, final, rfl⟩ := Option.map_eq_some_iff.1 ended
  obtain ⟨t, found, same⟩ := Option.map_eq_some_iff.1 seen
  cases same
  have still : t.plan.andThen later = t.plan := by
    cases plan : t.plan with
    | done flow =>
      rw [plan] at final
      cases flow with
      | next value => cases final; exact absurd rfl (last value)
      | ret value => rfl
    | fail e => rfl
    | _ => rw [plan] at final; cases final
  obtain ⟨memory, threads, world⟩ := m
  cases threads with
  | nil => cases found
  | cons first rest =>
    cases found
    simp [goingOn, still]

/-- The first thread has ended without a return. -/
def Passed (m : Pool W) : Prop :=
  ∃ value, m.planOf? 0 = some (.done (.next value))

theorem Passed.act (passed : m.Passed) (k : Nat) : (m.act s k).Passed := by
  obtain ⟨value, ended⟩ := passed
  obtain ⟨first, found, plan⟩ := Option.map_eq_some_iff.1 ended
  rcases act_cases s k m with idle | ⟨t, turn, there, acted, after⟩
  · rw [idle]
    exact ⟨value, ended⟩
  · have other : 0 ≠ k := by
      rintro rfl
      cases found.symm.trans there
      rw [plan] at acted
      cases acted
    refine ⟨value, ?_⟩
    rw [after, planOf?_settle_other turn other (List.getElem?_eq_some_iff.1 found).1]
    exact ended

theorem Passed.play (passed : m.Passed) (schedule : List Nat) : (m.play s schedule).Passed := by
  induction schedule generalizing m with
  | nil => exact passed
  | cons k schedule ih => exact ih (passed.act k)

/-- Once the first thread has passed, it starts on what follows, on the store that it has. -/
theorem view?_goingOn {value : Json} {st : ExecutionState}
    (passed : m.view? 0 = some (.done (.next value), st)) :
    (m.goingOn later).view? 0 = some (later, st) := by
  obtain ⟨t, found, same⟩ := Option.map_eq_some_iff.1 passed
  obtain ⟨plan, rfl⟩ := Prod.mk.inj same
  rw [view?, threads_goingOn_first found, plan]
  rfl

/-- As long as the first thread has not passed, a turn does not depend on what follows. -/
theorem act_goingOn {k : Nat} (unfinished : k = 0 → ¬ m.Passed) :
    (m.goingOn later).act s k = (m.act s k).goingOn later := by
  have state (t : Thread) (plan : Plan) : (m.goingOn later).stateOf { t with plan } =
      m.stateOf t := rfl
  have world : (m.goingOn later).world = m.world := rfl
  by_cases first : k = 0
  · subst first
    cases found : m.threads[0]? with
    | none =>
      have nobody : (m.goingOn later).threads[0]? = none := by
        change (m.threads.modify 0 _)[0]? = _
        rw [List.getElem?_modify_eq, found]
        rfl
      simp only [act, found, nobody]
    | some t =>
      have busy : ∀ value, t.plan ≠ .done (.next value) := by
        intro value ended
        refine unfinished rfl ⟨value, ?_⟩
        rw [planOf?, found, ← ended]
        rfl
      simp only [act, found, threads_goingOn_first found, state, world, Plan.turn?_andThen busy]
      cases acted : t.plan.turn? s (m.stateOf t) m.world with
      | none => rfl
      | some turn => exact settle_goingOn_first found _ turn
  · cases found : m.threads[k]? with
    | none => simp only [act, threads_goingOn_other first, found]
    | some t =>
      have same : (m.goingOn later).stateOf t = m.stateOf t := rfl
      simp only [act, found, threads_goingOn_other first, same, world]
      cases acted : t.plan.turn? s (m.stateOf t) m.world with
      | none => rfl
      | some turn => exact settle_goingOn_other first found turn

/-- What threads do while one plan follows another: first what they do without the second, and the
second is not reached before the first has passed. -/
theorem play_goingOn (s : Surroundings W) (m : Pool W) (later : Plan) (schedule : List Nat) :
    ∃ first second, schedule = first ++ second ∧
      (m.goingOn later).play s schedule = ((m.play s first).goingOn later).play s second ∧
      (second ≠ [] → (m.play s first).Passed) := by
  induction schedule generalizing m with
  | nil => exact ⟨[], [], rfl, rfl, fun more => absurd rfl more⟩
  | cons k schedule ih =>
    by_cases passed : m.Passed
    · exact ⟨[], k :: schedule, rfl, rfl, fun _ => passed⟩
    · obtain ⟨first, second, rfl, same, reached⟩ := ih (m.act s k)
      refine ⟨k :: first, second, rfl, ?_, reached⟩
      rw [play, act_goingOn fun _ => passed, same]
      rfl

/-- If the first thread fails or returns, what follows it makes no difference. -/
theorem play_goingOn_of_ending? {schedule : List Nat} {ending : Ending}
    (ended : (m.play s schedule).ending? 0 = some ending)
    (last : ∀ value, ending.result ≠ .ok (.next value)) :
    (m.goingOn later).play s schedule = m.play s schedule := by
  obtain ⟨first, second, rfl, same, reached⟩ := play_goingOn s m later schedule
  cases second with
  | nil =>
    rw [List.append_nil] at ended ⊢
    rw [List.append_nil] at same
    exact same.trans (goingOn_of_ending? ended last)
  | cons k second =>
    rw [play_append] at ended
    obtain ⟨value, passed⟩ := (reached (List.cons_ne_nil _ _)).play (s := s) (k :: second)
    obtain ⟨t, found, plan⟩ := Option.map_eq_some_iff.1 passed
    rw [ending?, view?, found] at ended
    change t.plan.result?.map _ = _ at ended
    rw [plan] at ended
    cases ended
    exact absurd rfl (last value)

end Pool

namespace Interpreter

open Plan

/-- Lists compose: what follows a list runs on the store that it leaves, and only if it does not
fail or return. This holds beside all tasks, however they take turns with the lists: `q` is
not reached before `p` has passed, what happens before is what happens without `q`, and if `p` fails
or returns everything is as without `q`. -/
theorem execute_append (p q : List Action) (store : Store) :
    (∀ i : Interpreter, i.execute (p ++ q) store = (i.execute p store).andThen (i.execute q)) ∧
    ∀ (s : Surroundings W) (config : ExecutionConfig) (world : W) (schedule : List Nat),
      let alone := Pool.start (whole config p) store world
      let both := Pool.start (whole config (p ++ q)) store world
      (∃ first second, schedule = first ++ second ∧
        both.play s schedule = ((alone.play s first).goingOn (whole config q)).play s second ∧
        (second ≠ [] → ∃ value st, (alone.play s first).view? 0 = some (.done (.next value), st) ∧
          ((alone.play s first).goingOn (whole config q)).view? 0 = some (whole config q, st))) ∧
      ∀ ending, (alone.play s schedule).ending? 0 = some ending →
        (∀ value, ending.result ≠ .ok (.next value)) →
        both.play s schedule = alone.play s schedule := by
  refine ⟨fun i => execute_eq_andThen i p q store, ?_⟩
  intro s config world schedule alone both
  have composed : both = alone.goingOn (whole config q) := by
    rw [Pool.goingOn_start, ← whole_append]
  rw [composed]
  refine ⟨?_, fun ending ended last => Pool.play_goingOn_of_ending? ended last⟩
  obtain ⟨first, second, split, same, reached⟩ :=
    Pool.play_goingOn s alone (whole config q) schedule
  refine ⟨first, second, split, same, ?_⟩
  intro more
  obtain ⟨value, passed⟩ := reached more
  obtain ⟨t, found, plan⟩ := Option.map_eq_some_iff.1 passed
  have seen : (alone.play s first).view? 0 =
      some (.done (.next value), (alone.play s first).stateOf t) := by
    rw [Pool.view?, found, ← plan]
    rfl
  exact ⟨value, _, seen, Pool.view?_goingOn seen⟩

end Interpreter

end Relay
