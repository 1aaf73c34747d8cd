import Relay.Action.Basic

/-! # Trees of actions

Calls and groups nest, so what is asked of a list of actions is asked of every step and every call
at any depth. The lists that calls ship are reached by going down from a list to the nested actions
of its members, and whatever is kept on the way down holds of each of them.
-/

namespace Relay.Action

mutual

/-- Every step and every call of the tree has its property. -/
def All (onStep : Step → Prop) (onCall : Call → Prop) : Action → Prop
  | step _ s => onStep s
  | call _ c shipped => onCall c ∧ AllList onStep onCall shipped
  | group _ members => AllList onStep onCall members

/-- Every step and every call below the actions has its property. -/
def AllList (onStep : Step → Prop) (onCall : Call → Prop) : List Action → Prop
  | [] => True
  | a :: rest => a.All onStep onCall ∧ AllList onStep onCall rest

end

/-- Some call at any depth of the actions ships the list. -/
inductive Ships : List Action → List Action → Prop
  | here {actions shipped : List Action} {mode : Mode} {c : Call}
      (member : call mode c shipped ∈ actions) : Ships actions shipped
  | nested {actions shipped : List Action} {a : Action} (member : a ∈ actions)
      (ships : Ships a.children shipped) : Ships actions shipped

mutual

/-- Equality of actions where delays are compared as doubles, so that the two zeros are one. -/
def Alike : Action → Action → Prop
  | step m s, step n t => m = n ∧ s = t
  | call m c shipped, call n d others =>
    m = n ∧ (c.startDelay == d.startDelay) = true ∧ c = { d with startDelay := c.startDelay } ∧
      AlikeList shipped others
  | group m members, group n others => m = n ∧ AlikeList members others
  | _, _ => False

/-- Lists of as many actions, alike one by one. -/
def AlikeList : List Action → List Action → Prop
  | [], [] => True
  | a :: rest, b :: others => Alike a b ∧ AlikeList rest others
  | _, _ => False

end

section Below

variable {onStep : Step → Prop} {onCall : Call → Prop}

theorem allList_iff {actions : List Action} :
    AllList onStep onCall actions ↔ ∀ a ∈ actions, a.All onStep onCall := by
  induction actions with
  | nil => simp [AllList]
  | cons a rest ih => simp [AllList, ih]

mutual

theorem All.of_forall (steps : ∀ s, onStep s) (calls : ∀ c, onCall c) (a : Action) :
    a.All onStep onCall := by
  cases a with
  | step mode s => exact steps s
  | call mode c shipped => exact ⟨calls c, AllList.of_forall steps calls shipped⟩
  | group mode members => exact AllList.of_forall steps calls members

theorem AllList.of_forall (steps : ∀ s, onStep s) (calls : ∀ c, onCall c)
    (actions : List Action) : AllList onStep onCall actions := by
  cases actions with
  | nil => trivial
  | cons a rest => exact ⟨All.of_forall steps calls a, AllList.of_forall steps calls rest⟩

end

mutual

theorem All.imp {onStep' : Step → Prop} {onCall' : Call → Prop}
    (steps : ∀ s, onStep s → onStep' s) (calls : ∀ c, onCall c → onCall' c) {a : Action}
    (all : a.All onStep onCall) : a.All onStep' onCall' := by
  cases a with
  | step mode s => exact steps s all
  | call mode c shipped => exact ⟨calls c all.1, all.2.imp steps calls⟩
  | group mode members => exact AllList.imp steps calls all

theorem AllList.imp {onStep' : Step → Prop} {onCall' : Call → Prop}
    (steps : ∀ s, onStep s → onStep' s) (calls : ∀ c, onCall c → onCall' c)
    {actions : List Action} (all : AllList onStep onCall actions) :
    AllList onStep' onCall' actions := by
  cases actions with
  | nil => trivial
  | cons a rest => exact ⟨all.1.imp steps calls, all.2.imp steps calls⟩

end

mutual

theorem All.and {onStep' : Step → Prop} {onCall' : Call → Prop} {a : Action}
    (all : a.All onStep onCall) (all' : a.All onStep' onCall') :
    a.All (fun s => onStep s ∧ onStep' s) fun c => onCall c ∧ onCall' c := by
  cases a with
  | step mode s => exact ⟨all, all'⟩
  | call mode c shipped => exact ⟨⟨all.1, all'.1⟩, all.2.and all'.2⟩
  | group mode members => exact AllList.and all all'

theorem AllList.and {onStep' : Step → Prop} {onCall' : Call → Prop} {actions : List Action}
    (all : AllList onStep onCall actions) (all' : AllList onStep' onCall' actions) :
    AllList (fun s => onStep s ∧ onStep' s) (fun c => onCall c ∧ onCall' c) actions := by
  cases actions with
  | nil => trivial
  | cons a rest => exact ⟨all.1.and all'.1, all.2.and all'.2⟩

end

theorem All.children {a : Action} (all : a.All onStep onCall) :
    AllList onStep onCall a.children := by
  cases a with
  | step mode s => exact trivial
  | call mode c shipped => exact all.2
  | group mode members => exact all

/-- What passes from a list to the nested actions of its members holds of every list that is
shipped. -/
theorem Ships.inherit {P : List Action → Prop}
    (down : ∀ actions, P actions → ∀ a ∈ actions, P a.children) {actions shipped : List Action}
    (ships : Ships actions shipped) (top : P actions) : P shipped := by
  induction ships with
  | here member => exact down _ top _ member
  | nested member _ ih => exact ih (down _ top _ member)

theorem AllList.shipped {actions shipped : List Action} (all : AllList onStep onCall actions)
    (ships : Ships actions shipped) : AllList onStep onCall shipped := by
  apply ships.inherit _ all
  intro actions all a member
  exact (allList_iff.1 all a member).children

end Below

section Depth

theorem depth_le_depthList {actions : List Action} {a : Action} (member : a ∈ actions) :
    a.depth ≤ depthList actions := by
  induction actions with
  | nil => exact absurd member List.not_mem_nil
  | cons head rest ih =>
    rw [depthList]
    rcases List.mem_cons.1 member with rfl | later
    · exact Nat.le_max_left _ _
    · exact Nat.le_trans (ih later) (Nat.le_max_right _ _)

theorem depthList_children_lt (a : Action) : depthList a.children < a.depth := by
  cases a <;> simp only [children, depth, depthList] <;> omega

mutual

theorem Alike.depth {a b : Action} (alike : Alike a b) : a.depth = b.depth := by
  cases a <;> cases b <;> simp only [Alike] at alike <;>
    simp only [Action.depth]
  case call.call => rw [alike.2.2.2.depthList]
  case group.group => rw [alike.2.depthList]

theorem AlikeList.depthList {actions others : List Action} (alike : AlikeList actions others) :
    depthList actions = depthList others := by
  cases actions <;> cases others <;> simp only [AlikeList] at alike
  · rfl
  · simp only [Action.depthList]
    rw [alike.1.depth, alike.2.depthList]

end

end Depth

mutual

/-- An action without calls is alike to itself only. -/
theorem Alike.eq {a b : Action} (alike : Alike a b)
    (callFree : a.All (fun _ => True) fun _ => False) : a = b := by
  cases a with
  | step mode s =>
    cases b with
    | step n t => rw [alike.1, alike.2]
    | _ => cases alike
  | call mode c shipped => exact callFree.1.elim
  | group mode members =>
    cases b with
    | group n others => rw [alike.1, AlikeList.eq alike.2 callFree]
    | _ => cases alike

theorem AlikeList.eq {actions others : List Action} (alike : AlikeList actions others)
    (callFree : AllList (fun _ => True) (fun _ => False) actions) : actions = others := by
  cases actions with
  | nil =>
    cases others with
    | nil => rfl
    | cons b tail => cases alike
  | cons a rest =>
    cases others with
    | nil => cases alike
    | cons b tail => rw [Alike.eq alike.1 callFree.1, AlikeList.eq alike.2 callFree.2]

end

end Relay.Action
