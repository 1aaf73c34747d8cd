import Relay.Proofs.Script.Places

/-! # Places as lenses

Reading and writing at the end of a path fit together: what was written is read, what is read at
places apart from it stays, and a second write leaves nothing of the first one. Whether a write
succeeds depends on the way to its place and not on what is written, so the second write succeeds
too, `setPath_lens`.
-/

namespace Relay.Script.Value

/-- Past the end of a list the new item stands right behind the items and the padding. -/
private theorem padding_ends (items : List Value) (n : Nat) :
    (List.replicate (n - items.length) null).length ≤ n - items.length ∧
      n - items.length - (List.replicate (n - items.length) null).length = 0 := by
  rw [List.length_replicate]
  exact ⟨Nat.le_refl _, Nat.sub_self _⟩

private theorem getElem?_setItem (items : List Value) (n : Nat) (item : Value) :
    (setItem items n item)[n]? = some item := by
  rw [setItem]
  split
  · rename_i inside
    exact List.getElem?_set_self inside
  · rename_i beyond
    obtain ⟨padded, last⟩ := padding_ends items n
    rw [List.getElem?_append_right (Nat.not_lt.1 beyond), List.getElem?_append_right padded, last]
    rfl

private theorem setItem_setItem (items : List Value) (n : Nat) (item later : Value) :
    setItem (setItem items n item) n later = setItem items n later := by
  have written : n < (setItem items n item).length :=
    (List.getElem?_eq_some_iff.1 (getElem?_setItem items n item)).1
  rw [setItem, if_pos written, setItem, setItem]
  split
  · exact List.set_set _
  · rename_i beyond
    obtain ⟨padded, last⟩ := padding_ends items n
    rw [List.set_append_right _ _ (Nat.not_lt.1 beyond), List.set_append_right _ _ padded, last]
    rfl

/-- A second write to the end of a path succeeds, and gives what it gives without the first one. -/
theorem setPath_setPath {target changed new : Value} {path : List Key}
    (wrote : target.setPath path new = .ok changed) (again : Value) :
    ∃ final, changed.setPath path again = .ok final ∧ target.setPath path again = .ok final := by
  induction path generalizing target changed with
  | nil => exact ⟨again, rfl, rfl⟩
  | cons key rest ih =>
    cases target with
    | null =>
      obtain ⟨inner, below, same⟩ := bind_eq_ok wrote
      cases same
      obtain ⟨final, rewritten, fresh⟩ := ih below
      refine ⟨map [(key.text, final)], ?_, by rw [setPath, fresh]; rfl⟩
      rw [setPath, List.lookup_cons_self, Option.getD_some, rewritten]
      change Except.ok (map (Fields.insert key.text final [(key.text, inner)])) = _
      rw [Fields.insert, if_pos rfl]
    | map entries =>
      obtain ⟨inner, below, same⟩ := bind_eq_ok wrote
      cases same
      obtain ⟨final, rewritten, fresh⟩ := ih below
      refine ⟨map (Fields.insert key.text final entries), ?_, by rw [setPath, fresh]; rfl⟩
      rw [setPath, Fields.lookup_insert, if_pos rfl, Option.getD_some, rewritten]
      change Except.ok (map (Fields.insert key.text final (Fields.insert key.text inner entries))) =
        _
      rw [Fields.insert_insert]
    | list items =>
      cases key with
      | name s => cases wrote
      | position n =>
        obtain ⟨inner, below, same⟩ := bind_eq_ok wrote
        cases same
        obtain ⟨final, rewritten, fresh⟩ := ih below
        refine ⟨list (setItem items n final), ?_, by rw [setPath, fresh]; rfl⟩
        rw [setPath, getElem?_setItem, Option.getD_some, rewritten]
        change Except.ok (list (setItem (setItem items n inner) n final)) = _
        rw [setItem_setItem]
    | _ => cases wrote

/-- Paths that have steps to different places behind a shared part are not along each other. -/
theorem not_along_of_parting {v : Value} (shared : List Key) {key step : Key}
    (apart : ¬ (v.getPath shared).SameStep key step) (rest further : List Key) :
    ¬ v.Along (shared ++ key :: rest) (shared ++ step :: further) := by
  induction shared generalizing v with
  | nil => exact fun along => apart along.1
  | cons first shared ih =>
    rw [getPath_cons] at apart
    exact fun along => ih apart along.2

/-- After a write to the end of a path, what was written is read there, and at the end of every path
that parts from this one at a step to another place what was there before is read: in a list steps
to the same place are the same position, and in a map they have the same text. A further write to
the path succeeds, with what it gives where the first write was not made. -/
theorem setPath_lens {target changed new : Value} {path : List Key}
    (wrote : target.setPath path new = .ok changed) :
    changed.getPath path = new ∧
    (∀ other, ¬ target.Along path other → changed.getPath other = target.getPath other) ∧
    ∀ again, ∃ final,
      changed.setPath path again = .ok final ∧ target.setPath path again = .ok final :=
  ⟨getPath_setPath wrote, fun _ apart => getPath_setPath_of_not_along wrote apart,
    setPath_setPath wrote⟩

/-- A write behind the end of a list in a map pads the list, and goes on with a new map; what stands
before is read as before, and so is the padding. -/
theorem setPath_lens_padded :
    let target := map [("a", list [string "x"])]
    let path : List Key := [.name "a", .position 2, .position 7]
    let changed := map [("a", list [string "x", null, map [("7", bool true)]])]
    target.setPath path (bool true) = .ok changed ∧
      changed.getPath path = bool true ∧
      changed.getPath [.name "a", .position 0] = string "x" ∧
      changed.getPath [.name "a", .position 1, .name "b"] = null ∧
      changed.getPath [.name "a", .position 2, .name "8"] = null ∧
      changed.setPath path (bool false) = target.setPath path (bool false) := by
  intro target path changed
  have wrote : target.setPath path (bool true) = .ok changed := rfl
  obtain ⟨placed, kept, rewritten⟩ := setPath_lens wrote
  have shared : target.getPath [.name "a"] = list [string "x"] := rfl
  refine ⟨wrote, placed, kept _ ?_, kept _ ?_, kept _ ?_, ?_⟩
  · refine not_along_of_parting [.name "a"] ?_ [.position 7] []
    rw [shared]
    exact show Key.position 2 ≠ Key.position 0 by decide
  · refine not_along_of_parting [.name "a"] ?_ [.position 7] [.name "b"]
    rw [shared]
    exact show Key.position 2 ≠ Key.position 1 by decide
  · refine not_along_of_parting [.name "a", .position 2] ?_ [] []
    exact show (Key.position 7).text ≠ (Key.name "8").text by decide
  · obtain ⟨final, after, before⟩ := rewritten (bool false)
    exact after.trans before.symm

end Relay.Script.Value
