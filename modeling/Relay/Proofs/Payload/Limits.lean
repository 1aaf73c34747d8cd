import Relay.Payload
import Relay.Proofs.Action.Tree

/-! # Limits of a payload

Depth and repetitions of a list bound those of everything below it, so whatever an accepted list
ships is accepted as well.
-/

namespace Relay.Payload

open Relay.Action (depthList Alike AlikeList Ships)

theorem validate_eq_ok_iff {limits : PayloadLimits} {actions : List Action} :
    validate limits actions = .ok () ↔
      depthList actions ≤ limits.maxDepth ∧ tooOftenIn? limits.maxRepeat actions = none := by
  rw [validate]
  constructor
  · intro valid
    split at valid
    · cases valid
    · rename_i shallow
      split at valid
      · cases valid
      · rename_i rare
        exact ⟨Nat.not_lt.1 shallow, rare⟩
  · rintro ⟨shallow, rare⟩
    simp only [if_neg (Nat.not_lt.2 shallow), rare]

theorem tooOftenIn?_eq_none_iff {limit : UInt32} {actions : List Action} :
    tooOftenIn? limit actions = none ↔ ∀ a ∈ actions, tooOften? limit a = none := by
  induction actions with
  | nil => simp [tooOftenIn?]
  | cons a rest ih =>
    rw [tooOftenIn?, List.forall_mem_cons, ← ih]
    cases tooOften? limit a <;> simp

theorem exists_tooOften?_eq (limit : UInt32) (a : Action) :
    ∃ kind, tooOften? limit a =
      if limit < a.mode.repeats then some (a.mode.repeats, kind)
      else tooOftenIn? limit a.children := by
  cases a with
  | step mode s => exact ⟨s.kind, rfl⟩
  | call mode c shipped => exact ⟨"http", rfl⟩
  | group mode members => exact ⟨"multi", rfl⟩

theorem tooOften?_eq_none_iff {limit : UInt32} {a : Action} :
    tooOften? limit a = none ↔
      a.mode.repeats ≤ limit ∧ tooOftenIn? limit a.children = none := by
  obtain ⟨kind, found⟩ := exists_tooOften?_eq limit a
  rw [found]
  by_cases often : limit < a.mode.repeats
  · rw [if_pos often]
    exact iff_of_false nofun fun kept => absurd kept.1 (UInt32.not_le.2 often)
  · rw [if_neg often, and_iff_right (UInt32.not_lt.1 often)]

/-- Limits that accept a list accept the nested actions of its members. -/
theorem validate_children {limits : PayloadLimits} {actions : List Action} {a : Action}
    (valid : validate limits actions = .ok ()) (member : a ∈ actions) :
    validate limits a.children = .ok () := by
  obtain ⟨shallow, rare⟩ := validate_eq_ok_iff.1 valid
  have below := Action.depthList_children_lt a
  have inside := Action.depth_le_depthList member
  refine validate_eq_ok_iff.2 ⟨by omega, ?_⟩
  exact (tooOften?_eq_none_iff.1 (tooOftenIn?_eq_none_iff.1 rare a member)).2

/-- Limits that accept a list accept whatever it ships. -/
theorem validate_shipped {limits : PayloadLimits} {actions shipped : List Action}
    (valid : validate limits actions = .ok ()) (ships : Ships actions shipped) :
    validate limits shipped = .ok () :=
  ships.inherit (P := fun actions => validate limits actions = .ok ())
    (fun _ valid _ member => validate_children valid member) valid

mutual

theorem Alike.tooOften? (limit : UInt32) {a b : Action} (alike : Alike a b) :
    tooOften? limit a = tooOften? limit b := by
  cases a <;> cases b <;> simp only [Action.Alike] at alike
  case step.step => rw [alike.1, alike.2]
  case call.call =>
    simp only [Payload.tooOften?]
    rw [alike.1, AlikeList.tooOftenIn? limit alike.2.2.2]
  case group.group =>
    simp only [Payload.tooOften?]
    rw [alike.1, AlikeList.tooOftenIn? limit alike.2]

theorem AlikeList.tooOftenIn? (limit : UInt32) {actions others : List Action}
    (alike : AlikeList actions others) : tooOftenIn? limit actions = tooOftenIn? limit others := by
  cases actions <;> cases others <;> simp only [Action.AlikeList] at alike
  case nil.nil => rfl
  case cons.cons =>
    simp only [Payload.tooOftenIn?]
    rw [Alike.tooOften? limit alike.1, AlikeList.tooOftenIn? limit alike.2]

end

theorem validate_alike (limits : PayloadLimits) {actions others : List Action}
    (alike : AlikeList actions others) : validate limits actions = validate limits others := by
  rw [validate, validate, alike.depthList, AlikeList.tooOftenIn? limits.maxRepeat alike]

end Relay.Payload
