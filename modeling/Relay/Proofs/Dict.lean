import Relay.Dict

/-! # Sorting entries by key

What a sorted list of entries holds depends only on what was put into it: the last entry of each key
is found again, no other entry is added, and entries that ascend already stay as they are.
-/

namespace Relay.Fields

variable {α : Type}

private theorem lookup_foldl_insert (entries sorted : List (String × α)) (key : String) :
    (entries.foldl (fun sorted entry => insert entry.1 entry.2 sorted) sorted).lookup key =
      (entries.reverse.lookup key).or (sorted.lookup key) := by
  induction entries generalizing sorted with
  | nil => rfl
  | cons entry rest ih =>
    obtain ⟨name, value⟩ := entry
    rw [List.foldl_cons, ih, lookup_insert, List.reverse_cons, List.lookup_append, Option.or_assoc]
    congr 1
    by_cases same : key = name
    · subst same
      simp
    · rw [if_neg same, lookup_cons_of_ne same]
      rfl

@[simp] theorem ofList_nil : ofList ([] : List (String × α)) = [] := rfl

/-- Of several entries with one key the last one is found. -/
theorem lookup_ofList (entries : List (String × α)) (key : String) :
    (ofList entries).lookup key = entries.reverse.lookup key := by
  rw [ofList, lookup_foldl_insert]
  exact Option.or_none

theorem lookup_ofList_append (entries later : List (String × α)) (key : String) :
    (ofList (entries ++ later)).lookup key =
      ((ofList later).lookup key).or ((ofList entries).lookup key) := by
  rw [lookup_ofList, lookup_ofList, lookup_ofList, List.reverse_append, List.lookup_append]

theorem lookup_ofList_cons (name : String) (value : α) (later : List (String × α)) (key : String) :
    (ofList ((name, value) :: later)).lookup key =
      ((ofList later).lookup key).or (if key = name then some value else none) := by
  rw [← List.singleton_append, lookup_ofList_append]
  congr 1
  exact lookup_insert name value [] key

theorem lookup_map {β : Type} (f : α → β) (entries : List (String × α)) (key : String) :
    (entries.map fun entry => (entry.1, f entry.2)).lookup key = (entries.lookup key).map f := by
  induction entries with
  | nil => rfl
  | cons entry rest ih =>
    obtain ⟨name, value⟩ := entry
    by_cases same : key = name
    · subst same
      simp
    · rw [List.map_cons, lookup_cons_of_ne same, lookup_cons_of_ne same, ih]

theorem mem_of_lookup {entries : List (String × α)} {key : String} {value : α}
    (found : entries.lookup key = some value) : (key, value) ∈ entries := by
  obtain ⟨before, after, rfl, -⟩ := List.lookup_eq_some_iff.1 found
  exact List.mem_append_right before List.mem_cons_self

/-- Sorting adds no entry. -/
theorem mem_of_mem_ofList {entries : List (String × α)} {entry : String × α}
    (member : entry ∈ ofList entries) : entry ∈ entries := by
  suffices general : ∀ sorted : List (String × α),
      entry ∈ entries.foldl (fun sorted entry => insert entry.1 entry.2 sorted) sorted →
        entry ∈ entries ∨ entry ∈ sorted from
    (general [] member).resolve_right List.not_mem_nil
  clear member
  induction entries with
  | nil =>
    intro sorted member
    exact .inr member
  | cons head rest ih =>
    intro sorted member
    rcases ih _ member with later | earlier
    · exact .inl (List.mem_cons_of_mem _ later)
    · rcases mem_insert earlier with rfl | old
      · exact .inl List.mem_cons_self
      · exact .inr old

/-- Putting a key behind lesser ones appends its entry. -/
theorem insert_above {key : String} {value : α} {taken : List (String × α)}
    (above : ∀ entry ∈ taken, entry.1 < key) :
    insert key value taken = taken ++ [(key, value)] := by
  induction taken with
  | nil => rfl
  | cons head rest ih =>
    obtain ⟨k, v⟩ := head
    have less : k < key := above (k, v) List.mem_cons_self
    have different : key ≠ k := by rintro rfl; exact String.lt_irrefl key less
    have notLess : ¬ key < k := String.lt_asymm less
    rw [insert, if_neg different, if_neg notLess,
      ih fun entry member => above entry (List.mem_cons_of_mem _ member), List.cons_append]

/-- Of two values put under one key the second one stays. -/
theorem insert_insert (key : String) (value later : α) (entries : List (String × α)) :
    insert key later (insert key value entries) = insert key later entries := by
  induction entries with
  | nil => exact if_pos rfl
  | cons head rest ih =>
    obtain ⟨k, v⟩ := head
    by_cases same : key = k
    · rw [insert, if_pos same, insert, if_pos rfl, insert, if_pos same]
    by_cases less : key < k
    · rw [insert, if_neg same, if_pos less, insert, if_pos rfl, insert, if_neg same, if_pos less]
    · rw [insert, if_neg same, if_neg less, insert, if_neg same, if_neg less, ih, insert,
        if_neg same, if_neg less]

/-- A key that is put in once more with the value that it has changes nothing. -/
theorem insert_of_lookup {entries : List (String × α)} (ascending : Ascending entries)
    {key : String} {value : α} (found : entries.lookup key = some value) :
    insert key value entries = entries := by
  induction entries with
  | nil => cases found
  | cons head rest ih =>
    obtain ⟨k, v⟩ := head
    obtain ⟨above, tail⟩ := List.pairwise_cons.1 ascending
    by_cases same : key = k
    · subst same
      rw [List.lookup_cons_self] at found
      cases found
      rw [insert, if_pos rfl]
    · rw [lookup_cons_of_ne same] at found
      have greater : k < key := above (key, value) (mem_of_lookup found)
      rw [insert, if_neg same, if_neg (String.lt_asymm greater), ih tail found]

/-- Entries that ascend are left in place. -/
theorem ofList_of_ascending {entries : List (String × α)} (ascending : Ascending entries) :
    ofList entries = entries := by
  suffices general : ∀ sorted : List (String × α), Ascending (sorted ++ entries) →
      entries.foldl (fun sorted entry => insert entry.1 entry.2 sorted) sorted =
        sorted ++ entries from
    general [] ascending
  clear ascending
  induction entries with
  | nil =>
    intro sorted _
    exact (List.append_nil sorted).symm
  | cons head rest ih =>
    intro sorted ascending
    have above : ∀ entry ∈ sorted, entry.1 < head.1 := by
      intro entry member
      exact (List.pairwise_append.1 ascending).2.2 entry member head List.mem_cons_self
    have appended : sorted ++ head :: rest = (sorted ++ [head]) ++ rest := by
      rw [List.append_assoc, List.singleton_append]
    rw [List.foldl_cons, insert_above above, appended]
    exact ih _ (appended ▸ ascending)

end Relay.Fields

namespace Relay.Dict

variable {α : Type}

theorem eq_empty {d : Dict α} (none : d.entries.isEmpty = true) : empty = d := by
  obtain ⟨entries, ascending⟩ := d
  obtain rfl := List.isEmpty_iff.1 none
  rfl

end Relay.Dict
