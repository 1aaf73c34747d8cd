import Relay.Proofs.Dict
import Relay.Proofs.Json.Reading
import Relay.Proofs.Script.Footprint
import Relay.Proofs.Script.InPlace

/-! # Writes that fail

A write in place makes maps and pads lists on its way to the end of a path. What it makes is null
until it goes on, and null takes every key, so a write that has made something gets to the end. A
write that fails does so at a value that was there before it, and has changed nothing,
`write_failed`.
-/

namespace Relay.Script.Value

variable {target new : Value} {path : List Key} {e : ScriptError}

/-! ## Values in order -/

theorem ordered_list {items : List Value} :
    (list items).toJson.Ordered ↔ ∀ item ∈ items, item.toJson.Ordered := by
  rw [toJson, toJsonItems_eq, List.reverse_nil, List.nil_append]
  exact Json.orderedItems_iff.trans List.forall_mem_map

theorem ordered_map {entries : List (String × Value)} :
    (map entries).toJson.Ordered ↔
      Fields.Ascending entries ∧ ∀ entry ∈ entries, entry.2.toJson.Ordered := by
  rw [toJson, toJsonEntries_eq, List.reverse_nil, List.nil_append]
  exact and_congr List.pairwise_map (Json.orderedFields_iff.trans List.forall_mem_map)

/-! ## Where a write fails -/

/-- A value has parts under keys of this kind, or is null and becomes a map. -/
def Takes (v : Value) (key : Key) : Prop :=
  match v, key with
  | null, _ => True
  | map _, _ => True
  | list _, .position _ => True
  | _, _ => False

/-- A write to a place where nothing was gets to its end. -/
theorem write_null (path : List Key) (new : Value) : (null.write path new).1 = .ok () := by
  induction path with
  | nil => rfl
  | cons key rest ih => exact ih

/-- A step that the value does not take is the end of a write, which leaves the value. -/
theorem write_of_not_takes {key : Key} (refused : ¬ target.Takes key) (rest : List Key) :
    target.write (key :: rest) new = (.error (.mismatch (.assign key target.type)), target) := by
  cases target with
  | null => exact absurd trivial refused
  | map entries => exact absurd trivial refused
  | list items =>
    cases key with
    | name s => rfl
    | position n => exact absurd trivial refused
  | _ => rfl

/-- Replacing an item by itself leaves the list. -/
theorem setItem_self {items : List Value} {n : Nat} {item : Value} (found : items[n]? = some item) :
    setItem items n item = items := by
  obtain ⟨inside, rfl⟩ := List.getElem?_eq_some_iff.1 found
  rw [setItem, if_pos inside, List.set_getElem_self]

/-- A write that goes on behind its first step fails there, where something was already. -/
theorem write_cons_failed {key : Key} {rest : List Key} (ordered : target.toJson.Ordered)
    (taken : target.Takes key) (failed : (target.write (key :: rest) new).1 = .error e) :
    ∃ inner, target.step? key = some inner ∧ inner.toJson.Ordered ∧
      (inner.write rest new).1 = .error e ∧
      ((inner.write rest new).2 = inner → (target.write (key :: rest) new).2 = target) := by
  cases target with
  | null => rw [write_null] at failed; cases failed
  | map entries =>
    obtain ⟨ascending, inside⟩ := ordered_map.1 ordered
    cases found : entries.lookup key.text with
    | none =>
      simp only [write, opened, found, Option.getD_none, write_null] at failed
      cases failed
    | some inner =>
      simp only [write, opened, found, Option.getD_some] at failed ⊢
      refine ⟨inner, found, inside _ (Fields.mem_of_lookup found), failed, fun same => ?_⟩
      rw [same, Fields.insert_of_lookup ascending found]
  | list items =>
    cases key with
    | name s => exact taken.elim
    | position n =>
      cases found : items[n]? with
      | none =>
        simp only [write, opened, found, Option.getD_none, write_null] at failed
        cases failed
      | some inner =>
        simp only [write, opened, found, Option.getD_some] at failed ⊢
        refine ⟨inner, found, ordered_list.1 ordered inner (List.mem_of_getElem? found), failed,
          fun same => ?_⟩
        rw [same, setItem_self found]
  | _ => exact taken.elim

/-- A write in place that fails leaves the value as it was. It fails at the first step that is not
taken by the value which the path up to there leads to, and its error names the two. -/
theorem write_failed (ordered : target.toJson.Ordered)
    (failed : (target.write path new).1 = .error e) :
    (target.write path new).2 = target ∧ target.setPath path new = .error e ∧
      ∃ before key rest, path = before ++ key :: rest ∧ ¬ (target.getPath before).Takes key ∧
        e = .mismatch (.assign key (target.getPath before).type) := by
  have whole : target.setPath path new = .error e := by
    rw [setPath_eq_write, failed]
    rfl
  suffices left : _ ∧ _ from ⟨left.1, whole, left.2⟩
  clear whole
  induction path generalizing target with
  | nil => cases failed
  | cons key rest ih =>
    by_cases taken : target.Takes key
    · obtain ⟨inner, found, below, stopped, kept⟩ := write_cons_failed ordered taken failed
      obtain ⟨same, before, at_, after, rfl, refused, named⟩ := ih below stopped
      refine ⟨kept same, key :: before, at_, after, rfl, ?_⟩
      rw [getPath, found]
      exact ⟨refused, named⟩
    · rw [write_of_not_takes taken] at failed ⊢
      exact ⟨rfl, [], key, rest, rfl, taken, (Except.error.inj failed).symm⟩

/-- The write comes through a map and a list to a text, which has no parts to write to. -/
theorem write_failed_onText :
    let target := map [("a", list [null, string "x"]), ("b", null)]
    let path : List Key := [.name "a", .position 1, .name "c", .position 3]
    let error : ScriptError := .mismatch (.assign (.name "c") .string)
    (target.toJson.Ordered ∧ (target.write path (bool true)).1 = .error error) ∧
      (target.write path (bool true)).2 = target ∧
      target.setPath path (bool true) = .error error := by
  intro target path error
  have ordered : target.toJson.Ordered :=
    ⟨by decide, ⟨trivial, trivial, trivial⟩, trivial, trivial⟩
  have failed : (target.write path (bool true)).1 = .error error := rfl
  obtain ⟨same, whole, -⟩ := write_failed ordered failed
  exact ⟨⟨ordered, failed⟩, same, whole⟩

end Relay.Script.Value
