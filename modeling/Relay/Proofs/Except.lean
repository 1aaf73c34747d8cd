import Mathlib.Data.List.Forall2

/-! # Computations that may fail

What succeeds as a whole has succeeded in each of its parts, and what fails as a whole has failed in
the first part that does not succeed. Where a computation also has a state, the second part runs in
the state that the first one leaves, unless that fails.
-/

namespace Relay

theorem bind_eq_ok {ε α β : Type} {x : Except ε α} {f : α → Except ε β} {b : β}
    (ended : x >>= f = .ok b) : ∃ a, x = .ok a ∧ f a = .ok b := by
  cases x with
  | error e => cases ended
  | ok a => exact ⟨a, rfl, ended⟩

theorem bind_eq_error_iff {ε α β : Type} {x : Except ε α} {f : α → Except ε β} {e : ε} :
    x >>= f = .error e ↔ x = .error e ∨ ∃ a, x = .ok a ∧ f a = .error e := by
  cases x with
  | error e' => simp [bind, Except.bind]
  | ok a => simp [bind, Except.bind]

/-- A list is gone through successfully if each of its items is. -/
theorem mapM_ok_iff {ε α β : Type} {f : α → Except ε β} {xs : List α} {ys : List β} :
    xs.mapM f = .ok ys ↔ List.Forall₂ (fun x y => f x = .ok y) xs ys := by
  induction xs generalizing ys with
  | nil =>
    rw [List.mapM_nil, List.forall₂_nil_left_iff]
    exact ⟨fun same => (Except.ok.inj same).symm, fun same => congrArg Except.ok same.symm⟩
  | cons x rest ih =>
    rw [List.mapM_cons, List.forall₂_cons_left_iff]
    constructor
    · intro ended
      obtain ⟨y, here, ended⟩ := bind_eq_ok ended
      obtain ⟨others, there, same⟩ := bind_eq_ok ended
      cases same
      exact ⟨y, others, here, ih.1 there, rfl⟩
    · rintro ⟨y, others, here, there, rfl⟩
      rw [here, ih.2 there]
      rfl

/-- Going through a list fails at the first item that fails. -/
theorem mapM_error_iff {ε α β : Type} {f : α → Except ε β} {xs : List α} {e : ε} :
    xs.mapM f = .error e ↔ ∃ before x after, xs = before ++ x :: after ∧
      (∀ y ∈ before, ∃ z, f y = .ok z) ∧ f x = .error e := by
  induction xs with
  | nil => simp [pure, Except.pure]
  | cons head rest ih =>
    rw [List.mapM_cons, bind_eq_error_iff]
    constructor
    · rintro (failed | ⟨value, passed, later⟩)
      · exact ⟨[], head, rest, rfl, List.forall_mem_nil _, failed⟩
      · obtain ⟨before, x, after, rfl, fine, failed⟩ :=
          ih.1 ((bind_eq_error_iff.1 later).resolve_right nofun)
        exact ⟨head :: before, x, after, rfl, List.forall_mem_cons.2 ⟨⟨value, passed⟩, fine⟩,
          failed⟩
    · rintro ⟨before, x, after, split, fine, failed⟩
      cases before with
      | nil =>
        cases split
        exact .inl failed
      | cons y before =>
        cases split
        obtain ⟨⟨value, passed⟩, fine⟩ := List.forall_mem_cons.1 fine
        exact .inr ⟨value, passed,
          bind_eq_error_iff.2 (.inl (ih.2 ⟨before, x, after, rfl, fine, failed⟩))⟩

/-- A computation followed by another runs the second one only if the first does not fail. -/
theorem bind_apply {ε σ α β : Type} (x : ExceptT ε (StateM σ) α) (f : α → ExceptT ε (StateM σ) β)
    (st : σ) :
    (x >>= f) st =
      match x st with
      | (.ok value, st) => f value st
      | (.error e, st) => (.error e, st) := by
  change (ExceptT.bindCont f (x st).1) (x st).2 = _
  cases x st with
  | mk result after => cases result <;> rfl

/-- One computation after another succeeds if both do. -/
theorem bind_apply_ok {ε σ α β : Type} {x : ExceptT ε (StateM σ) α}
    {f : α → ExceptT ε (StateM σ) β} {st after : σ} {b : β} (ran : (x >>= f) st = (.ok b, after)) :
    ∃ a mid, x st = (.ok a, mid) ∧ f a mid = (.ok b, after) := by
  rw [bind_apply] at ran
  rcases first : x st with ⟨e | a, mid⟩
  · rw [first] at ran
    cases ran
  · rw [first] at ran
    exact ⟨a, mid, rfl, ran⟩

end Relay
