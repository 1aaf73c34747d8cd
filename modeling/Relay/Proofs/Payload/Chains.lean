import Relay.Proofs.Payload.Limits

/-! # Chains of nested actions

The depth of a list is the length of the longest chain from a member down through nested actions.
So the limits accept a list exactly if every chain is short enough and every action on a chain
repeats seldom enough, `validate_chains`, and what they accept they accept below as well.
-/

namespace Relay

namespace Action

/-- A chain of nested actions: the first one is in the list, and each further one is nested in the
one before. -/
def Chain (actions : List Action) : List Action → Prop
  | [] => True
  | a :: rest => a ∈ actions ∧ Chain a.children rest

/-- The action is reached from the list by a chain of nested actions. -/
def Below (actions : List Action) (a : Action) : Prop :=
  ∃ chain, Chain actions chain ∧ a ∈ chain

theorem Chain.subset {actions others chain : List Action} (nests : Chain actions chain)
    (within : actions ⊆ others) : Chain others chain := by
  cases chain with
  | nil => trivial
  | cons a rest => exact ⟨within nests.1, nests.2⟩

theorem below_of_mem {actions : List Action} {a : Action} (member : a ∈ actions) :
    Below actions a :=
  ⟨[a], ⟨member, trivial⟩, List.mem_singleton_self a⟩

theorem Below.of_children {actions : List Action} {a b : Action} (below : Below a.children b)
    (member : a ∈ actions) : Below actions b := by
  obtain ⟨chain, nests, on⟩ := below
  exact ⟨a :: chain, ⟨member, nests⟩, List.mem_cons_of_mem a on⟩

theorem Below.subset {actions others : List Action} {a : Action} (below : Below actions a)
    (within : actions ⊆ others) : Below others a := by
  obtain ⟨chain, nests, on⟩ := below
  exact ⟨chain, nests.subset within, on⟩

/-- What passes from the members of a list to their nested actions holds of a list with what is
reached. -/
theorem Below.exists_mem {P : List Action → Prop}
    (down : ∀ actions, P actions → ∀ a ∈ actions, P a.children) {actions : List Action}
    {a : Action} (below : Below actions a) (top : P actions) : ∃ others, P others ∧ a ∈ others := by
  obtain ⟨chain, nests, on⟩ := below
  induction chain generalizing actions with
  | nil => cases on
  | cons b rest ih =>
    rcases List.mem_cons.1 on with rfl | later
    · exact ⟨actions, top, nests.1⟩
    · exact ih (down actions top b nests.1) nests.2 later

theorem depth_eq (a : Action) : a.depth = 1 + depthList a.children := by
  cases a <;> rfl

theorem Chain.length_le {actions chain : List Action} (nests : Chain actions chain) :
    chain.length ≤ depthList actions := by
  induction chain generalizing actions with
  | nil => exact Nat.zero_le _
  | cons a rest ih =>
    have inside : a.depth ≤ depthList actions := depth_le_depthList nests.1
    have further : rest.length ≤ depthList a.children := ih nests.2
    rw [depth_eq] at inside
    rw [List.length_cons]
    omega

mutual

theorem exists_chain_depth (a : Action) :
    ∃ chain, Chain a.children chain ∧ 1 + chain.length = a.depth := by
  cases a with
  | step mode s => exact ⟨[], trivial, rfl⟩
  | call mode c shipped =>
    obtain ⟨chain, nests, long⟩ := exists_chain_depthList shipped
    exact ⟨chain, nests, congrArg (1 + ·) long⟩
  | group mode members =>
    obtain ⟨chain, nests, long⟩ := exists_chain_depthList members
    exact ⟨chain, nests, congrArg (1 + ·) long⟩

/-- Some chain has as many actions as the list is deep. -/
theorem exists_chain_depthList (actions : List Action) :
    ∃ chain, Chain actions chain ∧ chain.length = depthList actions := by
  cases actions with
  | nil => exact ⟨[], trivial, rfl⟩
  | cons a rest =>
    obtain ⟨first, nests, long⟩ := exists_chain_depth a
    obtain ⟨second, nests', long'⟩ := exists_chain_depthList rest
    rw [depthList]
    rcases Nat.le_total a.depth (depthList rest) with deeper | deeper
    · rw [Nat.max_eq_right deeper]
      exact ⟨second, nests'.subset (List.subset_cons_self a rest), long'⟩
    · rw [Nat.max_eq_left deeper, ← long]
      exact ⟨a :: first, ⟨List.mem_cons_self, nests⟩, Nat.add_comm _ _⟩

end

theorem depthList_le_iff {actions : List Action} {limit : Nat} :
    depthList actions ≤ limit ↔ ∀ chain, Chain actions chain → chain.length ≤ limit := by
  constructor
  · intro shallow chain nests
    exact Nat.le_trans nests.length_le shallow
  · intro short
    obtain ⟨chain, nests, long⟩ := exists_chain_depthList actions
    exact long ▸ short chain nests

end Action

namespace Payload

open Relay.Action (Chain Below)

section Repetitions

variable {limit : UInt32}

mutual

theorem tooOften?_of_rare (a : Action) (seldom : a.mode.repeats ≤ limit)
    (rare : ∀ b, Below a.children b → b.mode.repeats ≤ limit) : tooOften? limit a = none := by
  refine tooOften?_eq_none_iff.2 ⟨seldom, ?_⟩
  cases a with
  | step mode s => rfl
  | call mode c shipped => exact tooOftenIn?_of_rare shipped rare
  | group mode members => exact tooOftenIn?_of_rare members rare

theorem tooOftenIn?_of_rare (actions : List Action)
    (rare : ∀ b, Below actions b → b.mode.repeats ≤ limit) : tooOftenIn? limit actions = none := by
  cases actions with
  | nil => rfl
  | cons a rest =>
    have member : a ∈ a :: rest := List.mem_cons_self
    have first : tooOften? limit a = none :=
      tooOften?_of_rare a (rare a (Action.below_of_mem member))
        fun b below => rare b (below.of_children member)
    rw [tooOftenIn?, first]
    exact tooOftenIn?_of_rare rest
      fun b below => rare b (below.subset (List.subset_cons_self a rest))

end

theorem tooOftenIn?_eq_none_iff_below {actions : List Action} :
    tooOftenIn? limit actions = none ↔ ∀ a, Below actions a → a.mode.repeats ≤ limit := by
  refine ⟨fun rare a below => ?_, tooOftenIn?_of_rare actions⟩
  have kept {others : List Action} (rare : tooOftenIn? limit others = none) {b : Action}
      (member : b ∈ others) := tooOften?_eq_none_iff.1 (tooOftenIn?_eq_none_iff.1 rare b member)
  obtain ⟨others, rare, member⟩ :=
    below.exists_mem (fun _ rare _ member => (kept rare member).2) rare
  exact (kept rare member).1

end Repetitions

/-- The limits accept a list exactly if every action that is reached from it repeats at most as
often as they allow and every chain from it has at most as many actions. Then they accept the nested
actions of all that is reached as well. -/
theorem validate_chains (limits : PayloadLimits) (actions : List Action) :
    (validate limits actions = .ok () ↔
      (∀ a, Below actions a → a.mode.repeats ≤ limits.maxRepeat) ∧
        ∀ chain, Chain actions chain → chain.length ≤ limits.maxDepth) ∧
      (validate limits actions = .ok () →
        ∀ a, Below actions a → validate limits a.children = .ok ()) := by
  constructor
  · rw [validate_eq_ok_iff, Action.depthList_le_iff, tooOftenIn?_eq_none_iff_below, and_comm]
  · intro valid a below
    obtain ⟨others, valid, member⟩ :=
      below.exists_mem (P := fun actions => validate limits actions = .ok ())
        (fun _ valid _ member => validate_children valid member) valid
    exact validate_children valid member

end Payload

end Relay
