import Relay.Proofs.Execution.Policy
import Relay.Proofs.Payload.Limits

/-! # Depth of an execution

A payload is as deep as the longest path of actions in it, and an interpreter counts the lists that
it has entered. A list of groups is entered before its members are looked at, so an empty list
counts for the interpreter and not for the payload. Where no list is empty the two agree.
-/

namespace Relay.Action

mutual

/-- The number of lists on the longest path down through groups. -/
def lists : Action → Nat
  | step _ _ => 0
  | call _ _ _ => 0
  | group _ members => listsIn members

/-- The number of lists on the longest path down through groups, the given list included. -/
def listsIn : List Action → Nat
  | [] => 1
  | a :: rest => max (1 + a.lists) (listsIn rest)

end

mutual

/-- No group that is reached through groups is empty. -/
def Full : Action → Prop
  | step _ _ => True
  | call _ _ _ => True
  | group _ members => members ≠ [] ∧ FullList members

/-- No group is empty that is reached from the list through groups. -/
def FullList : List Action → Prop
  | [] => True
  | a :: rest => a.Full ∧ FullList rest

end

theorem listsIn_pos (actions : List Action) : 1 ≤ listsIn actions := by
  cases actions with
  | nil => exact Nat.le_refl 1
  | cons a rest => exact Nat.le_trans (Nat.le_add_right 1 _) (Nat.le_max_left _ _)

mutual

theorem lists_le_depth (a : Action) : a.lists ≤ a.depth := by
  cases a with
  | step mode s => exact Nat.zero_le _
  | call mode c shipped => exact Nat.zero_le _
  | group mode members =>
    have below := listsIn_le_depthList members
    rw [lists, depth]
    omega

/-- The interpreter enters at most one list more than the payload is deep. -/
theorem listsIn_le_depthList (actions : List Action) :
    listsIn actions ≤ 1 + depthList actions := by
  cases actions with
  | nil => exact Nat.le_refl 1
  | cons a rest =>
    have first := lists_le_depth a
    have others := listsIn_le_depthList rest
    rw [listsIn, depthList]
    omega

end

mutual

theorem Full.lists_lt_depth {a : Action} (full : a.Full) : a.lists < a.depth := by
  cases a with
  | step mode s => exact Nat.one_pos
  | call mode c shipped => exact Nat.lt_of_lt_of_le Nat.one_pos (Nat.le_add_right 1 _)
  | group mode members =>
    have below := FullList.listsIn_le_depthList full.2 full.1
    rw [lists, depth]
    omega

theorem FullList.listsIn_le_depthList {actions : List Action} (full : FullList actions)
    (some : actions ≠ []) : listsIn actions ≤ depthList actions := by
  cases actions with
  | nil => exact absurd rfl some
  | cons a rest =>
    have first := full.1.lists_lt_depth
    rw [listsIn, depthList]
    cases rest with
    | nil =>
      rw [listsIn]
      omega
    | cons b others =>
      have below := full.2.listsIn_le_depthList (List.cons_ne_nil b others)
      omega

end

end Relay.Action

namespace Relay.Interpreter

open Executing
open Relay.Action (lists listsIn FullList)

/-- An error that is not about depth. -/
def NotDeep (e : ExecutionError) : Prop :=
  ∀ depth limit, e ≠ .tooDeep depth limit

/-- A task that came with the answer to a request, placed at the time of the request. -/
def Brought (i : Interpreter) (task : Task) : Prop :=
  ∃ request start, ∃ inner ∈ (i.dispatch request).effects.tasks, task = inner.shift start

/-- A task that came with an answer, or one that does not fail for its depth. -/
def Sound (i : Interpreter) (task : Task) : Prop :=
  i.Brought task ∨ ∀ e, task.result = .error e → NotDeep e

/-- Neither the list nor a task that is launched for it fails for its depth. -/
def StaysWithin (i : Interpreter) (actions : List Action) (store : Store) : Prop :=
  (∀ e, (i.execute actions store).result = .error e → NotDeep e) ∧
    ∀ task ∈ (i.execute actions store).effects.tasks, i.Sound task

section Keeping

variable (i : Interpreter)

/-- Nothing that is launched or answered fails for its depth, whatever else happens. -/
def depthPolicy : Policy where
  allows _ := True
  permits := NotDeep
  accepts := i.Sound
  plain _ _ := trivial
  script _ _ _ := nofun
  nowhere _ _ _ := nofun
  taskFailed _ _ _ := trivial
  launched _ permitted _ := .inr permitted

private theorem depthPolicy_answers (request : Request) : i.depthPolicy.Answers i request := by
  refine ⟨trivial, ⟨fun _ _ => trivial, ?_⟩, fun _ _ _ _ => nofun⟩
  intro task member start
  exact .inl ⟨request, start, task, member, rfl⟩

private theorem keeps_enter {depth : Nat} (inside : depth ≤ i.config.maxDepth) :
    Keeps i.depthPolicy.Held NotDeep (i.checkDepth depth) :=
  Policy.keeps_checkDepth fun beyond => absurd beyond (Nat.not_lt.2 inside)

mutual

theorem keeps_perform (depth : Nat) (a : Action) (room : depth + a.lists ≤ i.config.maxDepth) :
    Keeps i.depthPolicy.Held NotDeep (i.perform depth a) := by
  cases a with
  | step mode s => exact Policy.keeps_performStep i s
  | call mode c shipped =>
    exact Policy.keeps_performCall fun request _ => depthPolicy_answers i request
  | group mode members =>
    rw [lists] at room
    have entered := Action.listsIn_pos members
    refine (keeps_enter i (by omega)).bind fun _ => ?_
    exact keeps_performAll (depth + 1) members (by omega)

theorem keeps_performAll (depth : Nat) (actions : List Action)
    (room : depth + listsIn actions ≤ i.config.maxDepth + 1) :
    Keeps i.depthPolicy.Held NotDeep (i.performAll depth actions) := by
  cases actions with
  | nil => exact keeps_pure _
  | cons a rest =>
    rw [listsIn] at room
    exact Policy.keeps_performAll_cons (keeps_perform depth a (by omega))
      (keeps_performAll depth rest (by omega))

end

/-- An interpreter that may enter every list never fails for the depth of one. -/
theorem staysWithin_of_listsIn_le {actions : List Action}
    (room : listsIn actions ≤ i.config.maxDepth) (store : Store) :
    i.StaysWithin actions store := by
  have entered := Action.listsIn_pos actions
  have whole : Keeps i.depthPolicy.Held NotDeep (do
      i.checkDepth 1
      i.performAll 1 actions) :=
    (keeps_enter i (by omega)).bind fun _ => keeps_performAll i 1 actions (by omega)
  obtain ⟨⟨-, tasks⟩, permitted⟩ := whole { store } (Policy.held_start store 0)
  refine ⟨permitted, ?_⟩
  intro task member
  exact tasks task (List.mem_reverse.1 member)

end Keeping

/-! ## Empty groups -/

/-- So many groups within each other, of which the innermost is empty. -/
def nested : Nat → List Action
  | 0 => []
  | n + 1 => [.group { repeats := 0 } (nested n)]

theorem depthList_nested (n : Nat) : Action.depthList (nested n) = n := by
  induction n with
  | zero => rfl
  | succ n ih =>
    rw [nested, Action.depthList, Action.depth, ih, Action.depthList]
    omega

theorem tooOftenIn?_nested (limit : UInt32) (n : Nat) :
    Payload.tooOftenIn? limit (nested n) = none := by
  induction n with
  | zero => rfl
  | succ n ih =>
    have never : ¬ limit < 0 := UInt32.not_lt_zero
    rw [nested, Payload.tooOftenIn?, Payload.tooOften?, if_neg never, ih]
    rfl

theorem validate_nested {limits : PayloadLimits} {n : Nat} (room : n ≤ limits.maxDepth) :
    Payload.validate limits (nested n) = .ok () := by
  refine Payload.validate_eq_ok_iff.2 ⟨?_, tooOftenIn?_nested limits.maxRepeat n⟩
  rw [depthList_nested]
  exact room

section Refusing

variable {i : Interpreter}

theorem checkDepth_below {depth : Nat} (beyond : i.config.maxDepth < depth) (st : ExecutionState) :
    i.checkDepth depth st = (.error (.tooDeep depth i.config.maxDepth), st) := by
  rw [checkDepth, if_pos beyond]
  rfl

theorem checkDepth_within {depth : Nat} (inside : depth ≤ i.config.maxDepth)
    {α : Type} (x : Executing α) : (do i.checkDepth depth; x) = x := by
  rw [checkDepth, if_neg (Nat.not_lt.2 inside)]
  rfl

/-- A list fails with the group that it starts with. -/
private theorem performAll_group_error {depth : Nat} {members rest : List Action}
    {st after : ExecutionState} {e : ExecutionError}
    (failed : (do i.checkDepth (depth + 1); i.performAll (depth + 1) members) st =
      (.error e, after)) :
    i.performAll depth (.group { repeats := 0 } members :: rest) st = (.error e, after) := by
  rw [performAll]
  refine bind_error (bind_error ?_)
  exact failed

private theorem performAll_nested {depth n : Nat} (inside : depth ≤ i.config.maxDepth)
    (beyond : i.config.maxDepth < depth + n) (st : ExecutionState) :
    i.performAll depth (nested n) st =
      (.error (.tooDeep (i.config.maxDepth + 1) i.config.maxDepth), st) := by
  induction n generalizing depth with
  | zero => omega
  | succ n ih =>
    refine performAll_group_error ?_
    -- The group that is one too deep is refused before its members are looked at.
    by_cases last : depth + 1 ≤ i.config.maxDepth
    · rw [checkDepth_within last]
      exact ih last (by omega)
    · obtain rfl : i.config.maxDepth = depth := by omega
      exact bind_error (checkDepth_below (Nat.lt_succ_self _) st)

/-- An interpreter fails for the depth of as many groups as its limit, if the innermost is empty. -/
theorem execute_nested (store : Store) :
    (i.execute (nested i.config.maxDepth) store).result =
      .error (.tooDeep (i.config.maxDepth + 1) i.config.maxDepth) := by
  have ended : (do i.checkDepth 1; i.performAll 1 (nested i.config.maxDepth)) { store } =
      (.error (.tooDeep (i.config.maxDepth + 1) i.config.maxDepth), { store }) := by
    by_cases last : 1 ≤ i.config.maxDepth
    · rw [checkDepth_within last]
      exact performAll_nested last (by omega) _
    · have none : i.config.maxDepth = 0 := by omega
      have refused : i.checkDepth 1 { store } = _ := checkDepth_below (by omega) { store }
      rw [none] at refused ⊢
      exact bind_error refused
  exact congrArg Prod.fst ended

end Refusing

/-- Limits that accept a list and an interpreter that runs it agree in that the list never fails for
its depth exactly if the interpreter goes deeper than the limits. With equal limits only empty lists
make a difference. -/
theorem staysWithin_validated (limits : PayloadLimits) (i : Interpreter) :
    ((∀ actions, Payload.validate limits actions = .ok () →
        ∀ store, i.StaysWithin actions store) ↔ limits.maxDepth < i.config.maxDepth) ∧
    (limits.maxDepth ≤ i.config.maxDepth → ∀ actions, Payload.validate limits actions = .ok () →
      actions ≠ [] → FullList actions → ∀ store, i.StaysWithin actions store) := by
  refine ⟨⟨?_, ?_⟩, ?_⟩
  · intro within
    apply Nat.lt_of_not_le
    intro shallow
    have accepted : Payload.validate limits (nested i.config.maxDepth) = .ok () :=
      validate_nested shallow
    have kept := (within _ accepted Dict.empty).1 _ (execute_nested Dict.empty)
    exact kept _ _ rfl
  · intro deeper actions valid store
    have shallow := (Payload.validate_eq_ok_iff.1 valid).1
    have entered := Action.listsIn_le_depthList actions
    exact staysWithin_of_listsIn_le i (by omega) store
  · intro equal actions valid some full store
    have shallow := (Payload.validate_eq_ok_iff.1 valid).1
    have entered := full.listsIn_le_depthList some
    exact staysWithin_of_listsIn_le i (by omega) store

/-- An interpreter of depth one that nobody answers. -/
def lone : Interpreter where
  config := { maxDepth := 1 }
  scripts := fun _ store => { result := .ok .null, store }
  dispatch := fun _ => { result := .error (.unknownNode "b") }

/-- Limits of depth one accept an empty group, and an interpreter of depth one fails for it. -/
theorem not_staysWithin_emptyGroup :
    Payload.validate { maxDepth := 1 } [.group {} []] = .ok () ∧
      ¬ lone.StaysWithin [.group {} []] Dict.empty := by
  refine ⟨rfl, ?_⟩
  intro within
  have refused : (lone.execute [.group {} []] Dict.empty).result = .error (.tooDeep 2 1) := rfl
  exact within.1 _ refused _ _ rfl

end Relay.Interpreter
