import Relay.Proofs.Dict
import Relay.Proofs.Except
import Relay.Proofs.Script.Conversion
import Relay.Script.Path

/-! # Places inside values

A path leads to a place inside a value, and what is missing there reads as null. Two paths lie along
each other if one of them goes on from where the other ends; a position and the name of the same
digits are one step, save in a list. Writing to the end of a path changes what is read along it and
nothing else, `getPath_setPath_of_not_along`. Paths lead to the same places in JSON and in the value
that a script makes of it.
-/

namespace Relay

namespace Script

namespace Value

theorem getPath_null (path : List Key) : null.getPath path = null := by
  cases path <;> rfl

theorem getPath_cons (v : Value) (key : Key) (rest : List Key) :
    v.getPath (key :: rest) = ((v.step? key).getD null).getPath rest := by
  rw [getPath]
  cases v.step? key with
  | none => exact (getPath_null rest).symm
  | some next => rfl

/-- Two steps lead to the same place: in a list if they are one step, in anything else if they
address one entry. -/
def SameStep (v : Value) (a b : Key) : Prop :=
  match v with
  | list _ => a = b
  | _ => a.text = b.text

theorem sameStep_refl (v : Value) (key : Key) : v.SameStep key key := by
  cases v <;> rfl

theorem SameStep.step?_eq {v : Value} {a b : Key} (together : v.SameStep a b) :
    v.step? a = v.step? b := by
  cases v with
  | list items => exact congrArg (list items).step? together
  | map entries => exact congrArg (entries.lookup ·) together
  | _ => rfl

/-- One of two paths into a value goes on from where the other one ends. -/
def Along (v : Value) : List Key → List Key → Prop
  | [], _ => True
  | _, [] => True
  | a :: path, b :: other => v.SameStep a b ∧ ((v.step? a).getD null).Along path other

private theorem getD_setItem (items : List Value) (n m : Nat) (item : Value) :
    (setItem items n item)[m]?.getD null = if m = n then item else items[m]?.getD null := by
  rw [setItem]
  split
  · rename_i inside
    rw [List.getElem?_set]
    by_cases same : m = n
    · subst same
      simp [inside]
    · rw [if_neg (Ne.symm same), if_neg same]
  · rename_i beyond
    by_cases old : m < items.length
    · rw [List.getElem?_append_left old, if_neg (by omega)]
    · -- Behind the items the padding reads as what is missing does.
      have missing : items[m]? = none := List.getElem?_eq_none (by omega)
      rw [List.getElem?_append_right (by omega), missing, List.getElem?_append,
        List.length_replicate, List.getElem?_replicate]
      by_cases same : m = n
      · subst same
        simp
      · rw [if_neg same]
        split
        · rfl
        · rw [List.getElem?_eq_none (by simp; omega)]

/-- A write goes on behind its first step. All that is not behind this step stays as it was. -/
theorem setPath_cons_ok {target changed new : Value} {key : Key} {rest : List Key}
    (wrote : target.setPath (key :: rest) new = .ok changed) :
    ∃ inner, ((target.step? key).getD null).setPath rest new = .ok inner ∧
      ∀ other, (target.SameStep key other → (changed.step? other).getD null = inner) ∧
        (¬ target.SameStep key other →
          (changed.step? other).getD null = (target.step? other).getD null) := by
  cases target with
  | null =>
    obtain ⟨inner, below, same⟩ := bind_eq_ok wrote
    cases same
    refine ⟨inner, below, fun other => ⟨fun together => ?_, fun apart => ?_⟩⟩
    · change ([(key.text, inner)].lookup other.text).getD null = inner
      rw [← show key.text = other.text from together, List.lookup_cons_self]
      rfl
    · change ([(key.text, inner)].lookup other.text).getD null = null
      rw [Fields.lookup_cons_of_ne (Ne.symm apart)]
      rfl
  | map entries =>
    obtain ⟨inner, below, same⟩ := bind_eq_ok wrote
    cases same
    refine ⟨inner, below, fun other => ⟨fun together => ?_, fun apart => ?_⟩⟩
    · change ((Fields.insert key.text inner entries).lookup other.text).getD null = inner
      rw [Fields.lookup_insert, if_pos (Eq.symm together)]
      rfl
    · change ((Fields.insert key.text inner entries).lookup other.text).getD null = _
      rw [Fields.lookup_insert, if_neg (Ne.symm apart)]
      rfl
  | list items =>
    cases key with
    | name s => cases wrote
    | position n =>
      obtain ⟨inner, below, same⟩ := bind_eq_ok wrote
      cases same
      refine ⟨inner, below, fun other => ⟨fun together => ?_, fun apart => ?_⟩⟩
      · cases together
        exact (getD_setItem items n n inner).trans (if_pos rfl)
      · cases other with
        | name s => rfl
        | position m =>
          have different : m ≠ n := fun same => apart (same ▸ rfl)
          exact (getD_setItem items n m inner).trans (if_neg different)
  | _ => cases wrote

/-- The place of a write reads as what was written. -/
theorem getPath_setPath {target changed new : Value} {path : List Key}
    (wrote : target.setPath path new = .ok changed) : changed.getPath path = new := by
  induction path generalizing target changed with
  | nil => exact (Except.ok.inj wrote).symm
  | cons key rest ih =>
    obtain ⟨inner, below, stepped⟩ := setPath_cons_ok wrote
    rw [getPath_cons, (stepped key).1 (sameStep_refl target key)]
    exact ih below

/-- What is not along the path of a write reads as before. -/
theorem getPath_setPath_of_not_along {target changed new : Value} {path other : List Key}
    (wrote : target.setPath path new = .ok changed) (apart : ¬ target.Along path other) :
    changed.getPath other = target.getPath other := by
  induction path generalizing target changed other with
  | nil => exact absurd trivial apart
  | cons key rest ih =>
    cases other with
    | nil => exact absurd trivial apart
    | cons step further =>
      obtain ⟨inner, below, stepped⟩ := setPath_cons_ok wrote
      rw [getPath_cons, getPath_cons]
      by_cases together : target.SameStep key step
      · have deeper : ¬ ((target.step? key).getD null).Along rest further :=
          fun along => apart ⟨together, along⟩
        rw [(stepped step).1 together, ih below deeper, together.step?_eq]
      · rw [(stepped step).2 together]

end Value

end Script

/-! ## Places in JSON -/

namespace Json

open Script (Key Value)

/-- The value one step further, if there is one. -/
def step? (j : Json) (key : Key) : Option Json :=
  match j, key with
  | object fields, key => fields.lookup key.text
  | array items, .position n => items[n]?
  | _, _ => none

/-- The value at the end of a path, null when a step is missing. -/
def read (j : Json) : List Key → Json
  | [] => j
  | key :: rest => ((j.step? key).getD null).read rest

/-- Two steps lead to the same place: in an array if they are one step, in anything else if they
address one field. -/
def SameStep (j : Json) (a b : Key) : Prop :=
  match j with
  | array _ => a = b
  | _ => a.text = b.text

/-- One of two paths into a value goes on from where the other one ends. -/
def Along (j : Json) : List Key → List Key → Prop
  | [], _ => True
  | _, [] => True
  | a :: path, b :: other => j.SameStep a b ∧ ((j.step? a).getD null).Along path other

theorem sameStep_ofJson (j : Json) (a b : Key) :
    (Value.ofJson j).SameStep a b ↔ j.SameStep a b := by
  cases j with
  | int n =>
    rw [Value.ofJson, Value.ofExactInt]
    split <;> rfl
  | _ => rfl

theorem step?_ofJson (j : Json) (key : Key) :
    (Value.ofJson j).step? key = (j.step? key).map Value.ofJson := by
  cases j with
  | int n =>
    rw [Value.ofJson, Value.ofExactInt]
    split <;> rfl
  | array items =>
    rw [Value.ofJson, Value.ofJsonItems_eq]
    cases key with
    | name s => rfl
    | position n => exact List.getElem?_map
  | object fields =>
    rw [Value.ofJson, Value.ofJsonFields_eq]
    exact Fields.lookup_map Value.ofJson fields key.text
  | _ => rfl

theorem step?_toJson (v : Value) (key : Key) :
    v.toJson.step? key = (v.step? key).map Value.toJson := by
  cases v with
  | float x =>
    rw [Value.toJson]
    split <;> rfl
  | list items =>
    rw [Value.toJson, Value.toJsonItems_eq]
    cases key with
    | name s => rfl
    | position n => exact List.getElem?_map
  | map entries =>
    rw [Value.toJson, Value.toJsonEntries_eq]
    exact Fields.lookup_map Value.toJson entries key.text
  | _ => rfl

theorem getD_step?_ofJson (j : Json) (key : Key) :
    ((Value.ofJson j).step? key).getD .null = Value.ofJson ((j.step? key).getD null) := by
  rw [step?_ofJson]
  cases j.step? key <;> rfl

/-- A script reads in a value of JSON what is there, as a value. -/
theorem getPath_ofJson (j : Json) (path : List Key) :
    (Value.ofJson j).getPath path = Value.ofJson (j.read path) := by
  induction path generalizing j with
  | nil => rfl
  | cons key rest ih => rw [Value.getPath_cons, getD_step?_ofJson, ih, read]

theorem read_toJson (v : Value) (path : List Key) :
    v.toJson.read path = (v.getPath path).toJson := by
  induction path generalizing v with
  | nil => rfl
  | cons key rest ih =>
    rw [read, step?_toJson, Value.getPath_cons, ← ih]
    cases v.step? key <;> rfl

theorem along_ofJson (j : Json) (path other : List Key) :
    (Value.ofJson j).Along path other ↔ j.Along path other := by
  induction path generalizing j other with
  | nil => exact iff_of_true trivial trivial
  | cons a path ih =>
    cases other with
    | nil => exact iff_of_true trivial trivial
    | cons b other => rw [Value.Along, Along, sameStep_ofJson, getD_step?_ofJson, ih]

/-- A script that writes to the end of a path of a value of JSON gives back what is not along this
path, as far as it can hold it. -/
theorem read_toJson_setPath {j : Json} {changed new : Value} {path other : List Key}
    (wrote : (Value.ofJson j).setPath path new = .ok changed) (apart : ¬ j.Along path other) :
    changed.toJson.read other = (j.read other).narrowed := by
  have kept : changed.getPath other = (Value.ofJson j).getPath other :=
    Value.getPath_setPath_of_not_along wrote (mt (along_ofJson j path other).1 apart)
  rw [read_toJson, kept, getPath_ofJson, Value.toJson_ofJson]

end Json

end Relay
