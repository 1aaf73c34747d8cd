import Relay.Proofs.Execution.Pool

/-! # Ends of threads

A thread that is given enough turns ends, and so does everything that it launches, however scripts
and requests are answered. So whatever has happened in a pool, all its threads can be brought to
their ends, `exists_ended`.
-/

namespace Relay

universe u

variable {W : Type u}

namespace Pool

/-- What a thread has left to do. -/
def planOf? (m : Pool W) (k : Nat) : Option Plan :=
  m.threads[k]?.map Thread.plan

/-- A thread has ended. -/
def Ended (m : Pool W) (k : Nat) : Prop :=
  ∃ plan, m.planOf? k = some plan ∧ plan.result?.isSome = true

theorem Ended.of_same {m m' : Pool W} {k : Nat} (ended : m.Ended k)
    (same : m'.planOf? k = m.planOf? k) : m'.Ended k := by
  rw [Ended, same]
  exact ended

section Settle

variable {m : Pool W} {k : Nat} {t : Thread} (turn : Turn W)

theorem planOf?_settle_other {j : Nat} (other : j ≠ k) (old : j < m.threads.length) :
    (m.settle k t turn).planOf? j = m.planOf? j := by
  rw [planOf?, threads_settle_other turn other old]
  rfl

theorem planOf?_settle_self (found : m.threads[k]? = some t) :
    (m.settle k t turn).planOf? k = some turn.plan := by
  rw [planOf?, threads_settle_self turn found]
  rfl

theorem planOf?_settle_new {plan : Plan} (launched : turn.task = some plan) :
    (m.settle k t turn).planOf? m.threads.length = some plan := by
  rw [planOf?, threads_settle_new turn launched]
  rfl

end Settle

end Pool

namespace Plan

open Pool

/-- Wherever a thread has the plan to carry out, it can be brought to its end, and with it all that
it launches, while the other threads wait. -/
def Settles (s : Surroundings W) (plan : Plan) : Prop :=
  ∀ (m : Pool W) (k : Nat), m.planOf? k = some plan → ∃ schedule,
    (∀ j < m.threads.length, j ≠ k → (m.play s schedule).planOf? j = m.planOf? j) ∧
    (m.play s schedule).Ended k ∧
    ∀ j < (m.play s schedule).threads.length, m.threads.length ≤ j → (m.play s schedule).Ended j

variable {s : Surroundings W}

theorem settles_of_result {plan : Plan} (ended : plan.result?.isSome = true) :
    plan.Settles s := by
  intro m k here
  exact ⟨[], fun _ _ _ => rfl, ⟨plan, here, ended⟩,
    fun j room new => absurd room (Nat.not_lt.2 new)⟩

/-- A plan settles if what is left of it after a turn does, and the task that the turn launches. -/
theorem settles_of_turn {plan : Plan} (next : ∀ st world, ∃ turn,
      plan.turn? s st world = some turn ∧ turn.plan.Settles s ∧
      ∀ task, turn.task = some task → task.Settles s) : plan.Settles s := by
  intro m k here
  obtain ⟨t, found, rfl⟩ := Option.map_eq_some_iff.1 here
  obtain ⟨turn, acted, rest, task⟩ := next (m.stateOf t) m.world
  have old : k < m.threads.length := (List.getElem?_eq_some_iff.1 found).1
  have after : m.act s k = m.settle k t turn := by simp only [act, found, acted]
  have length : (m.act s k).threads.length = m.threads.length + turn.task.toList.length := by
    rw [after, length_settle]
  have others : ∀ j < m.threads.length, j ≠ k → (m.act s k).planOf? j = m.planOf? j := by
    intro j room other
    rw [after, planOf?_settle_other turn other room]
  have mine : (m.act s k).planOf? k = some turn.plan := by
    rw [after, planOf?_settle_self turn found]
  obtain ⟨first, waiting, ended, new⟩ := rest (m.act s k) k mine
  cases launched : turn.task with
  | none =>
    rw [launched] at length
    refine ⟨k :: first, ?_, ended, ?_⟩
    · intro j room other
      exact (waiting j (by rw [length]; exact room) other).trans (others j room other)
    · intro j room young
      exact new j room (by rw [length]; exact young)
  | some plan =>
    -- The task has waited so far; now it is brought to its end as well.
    rw [launched, Option.toList_some, List.length_singleton] at length
    have there : ((m.act s k).play s first).planOf? m.threads.length = some plan := by
      rw [waiting _ (by omega) (by omega), after, planOf?_settle_new turn launched]
    obtain ⟨second, waiting', ended', new'⟩ := task plan launched _ m.threads.length there
    have grown := length_le_play (s := s) (m := m.act s k) first
    refine ⟨k :: (first ++ second), ?_⟩
    rw [play, play_append]
    refine ⟨?_, ?_, ?_⟩
    · intro j room other
      rw [waiting' j (by omega) (by omega), waiting j (by omega) other, others j room other]
    · exact ended.of_same (waiting' k (by omega) (by omega))
    · intro j room young
      rcases Nat.eq_or_lt_of_le young with rfl | younger
      · exact ended'
      · by_cases early : j < ((m.act s k).play s first).threads.length
        · exact (new j early (by omega)).of_same (waiting' j early (by omega))
        · exact new' j room (Nat.not_lt.1 early)

/-- A plan whose next act launches nothing settles if what is left after the act does. -/
theorem settles_of_act {plan : Plan} {rest : ExecutionState → W → Plan}
    (acts : ∀ st world, ∃ turn, plan.turn? s st world = some turn ∧
      turn.plan = rest st world ∧ turn.task = none)
    (settles : ∀ st world, (rest st world).Settles s) : plan.Settles s := by
  apply settles_of_turn
  intro st world
  obtain ⟨turn, acted, left, alone⟩ := acts st world
  exact ⟨turn, acted, left ▸ settles st world, fun task launched => by simp [alone] at launched⟩

private theorem settles_both (plan : Plan) :
    plan.Settles s ∧ ∀ kind, (plan.reporting kind).Settles s := by
  induction plan with
  | done flow => exact ⟨settles_of_result rfl, fun _ => settles_of_result rfl⟩
  | fail e =>
    refine ⟨settles_of_result rfl, ?_⟩
    intro kind
    exact settles_of_act (fun _ _ => ⟨_, rfl, rfl, rfl⟩) fun _ _ => settles_of_result rfl
  | note event rest ih =>
    exact ⟨settles_of_act (fun _ _ => ⟨_, rfl, rfl, rfl⟩) fun _ _ => ih.1,
      fun kind => settles_of_act (fun _ _ => ⟨_, rfl, rfl, rfl⟩) fun _ _ => ih.2 kind⟩
  | pass ms rest ih =>
    exact ⟨settles_of_act (fun _ _ => ⟨_, rfl, rfl, rfl⟩) fun _ _ => ih.1,
      fun kind => settles_of_act (fun _ _ => ⟨_, rfl, rfl, rfl⟩) fun _ _ => ih.2 kind⟩
  | look rest ih =>
    exact ⟨settles_of_act (fun _ _ => ⟨_, rfl, rfl, rfl⟩) fun st _ => (ih st.store).1,
      fun kind => settles_of_act (fun _ _ => ⟨_, rfl, rfl, rfl⟩) fun st _ => (ih st.store).2 kind⟩
  | keep key value rest ih =>
    exact ⟨settles_of_act (fun _ _ => ⟨_, rfl, rfl, rfl⟩) fun _ _ => ih.1,
      fun kind => settles_of_act (fun _ _ => ⟨_, rfl, rfl, rfl⟩) fun _ _ => ih.2 kind⟩
  | script source rest ih =>
    exact ⟨settles_of_act (fun _ _ => ⟨_, rfl, rfl, rfl⟩) fun _ _ => (ih _).1,
      fun kind => settles_of_act (fun _ _ => ⟨_, rfl, rfl, rfl⟩) fun _ _ => (ih _).2 kind⟩
  | send request rest ih =>
    exact ⟨settles_of_act (fun _ _ => ⟨_, rfl, rfl, rfl⟩) fun _ _ => (ih _).1,
      fun kind => settles_of_act (fun _ _ => ⟨_, rfl, rfl, rfl⟩) fun _ _ => (ih _).2 kind⟩
  | launch action depth once rest ihOnce ih =>
    have task : ∀ task, some (once.reporting action.kind) = some task → task.Settles s := by
      rintro _ ⟨⟩
      exact ihOnce.2 action.kind
    exact ⟨settles_of_turn fun _ _ => ⟨_, rfl, ih.1, task⟩,
      fun kind => settles_of_turn fun _ _ => ⟨_, rfl, ih.2 kind, task⟩⟩

/-- Every plan can be carried out to its end. -/
theorem settles (s : Surroundings W) (plan : Plan) : plan.Settles s :=
  (settles_both plan).1

end Plan

namespace Pool

/-- Whatever has happened, all threads can be brought to their ends. -/
theorem exists_ended (s : Surroundings W) (m : Pool W) :
    ∃ schedule, ∀ k < (m.play s schedule).threads.length, (m.play s schedule).Ended k := by
  -- The threads that are there are brought to their ends one after another.
  have some : ∀ n ≤ m.threads.length, ∃ schedule,
      ∀ k < (m.play s schedule).threads.length, k < n ∨ m.threads.length ≤ k →
        (m.play s schedule).Ended k := by
    intro n bound
    induction n with
    | zero =>
      refine ⟨[], ?_⟩
      intro k room young
      have old : k < m.threads.length := room
      omega
    | succ n ih =>
      obtain ⟨schedule, ended⟩ := ih (by omega)
      have grown := length_le_play (s := s) (m := m) schedule
      obtain ⟨plan, here⟩ : ∃ plan, (m.play s schedule).planOf? n = some plan := by
        rw [planOf?, List.getElem?_eq_getElem (by omega)]
        exact ⟨_, rfl⟩
      obtain ⟨later, waiting, last, new⟩ := plan.settles s (m.play s schedule) n here
      refine ⟨schedule ++ later, ?_⟩
      rw [play_append]
      intro k room young
      by_cases same : k = n
      · subst same
        exact last
      · by_cases old : k < (m.play s schedule).threads.length
        · exact (ended k old (by omega)).of_same (waiting k old same)
        · exact new k room (Nat.not_lt.1 old)
  obtain ⟨schedule, ended⟩ := some _ (Nat.le_refl _)
  exact ⟨schedule, fun k room => ended k room (Nat.lt_or_ge k _)⟩

end Pool

end Relay
