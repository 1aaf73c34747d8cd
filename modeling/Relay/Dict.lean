/-!
# Maps with text keys in ascending order

Every map of the simulation lists its entries by ascending key, so that its written form does not
depend on the order in which entries were added. `Fields` holds the operations on bare lists of
entries, which recursive value types need; `Dict` bundles a list of entries with the proof that
its keys ascend.
-/

namespace Relay

namespace Fields

variable {α β : Type}

/-- The keys of the entries ascend strictly, so no key occurs twice. -/
def Ascending (entries : List (String × α)) : Prop :=
  entries.Pairwise fun a b => a.1 < b.1

instance (entries : List (String × α)) : Decidable (Ascending entries) :=
  inferInstanceAs (Decidable (List.Pairwise _ _))

/-- Put a value under a key: in place of the old one, or else before the first greater key. -/
def insert (key : String) (value : α) : List (String × α) → List (String × α)
  | [] => [(key, value)]
  | (k, v) :: rest =>
    if key = k then (key, value) :: rest
    else if key < k then (key, value) :: (k, v) :: rest
    else (k, v) :: insert key value rest

/-- Drop the entry of a key. -/
def erase (key : String) (entries : List (String × α)) : List (String × α) :=
  entries.filter fun entry => entry.1 ≠ key

/-- Sort entries by key; of several entries with one key the last one stays. -/
def ofList (entries : List (String × α)) : List (String × α) :=
  entries.foldl (fun sorted entry => insert entry.1 entry.2 sorted) []

theorem mem_insert {key : String} {value : α} {entries : List (String × α)}
    {entry : String × α} (member : entry ∈ insert key value entries) :
    entry = (key, value) ∨ entry ∈ entries := by
  induction entries with
  | nil => simpa [insert] using member
  | cons head rest ih =>
    obtain ⟨k, v⟩ := head
    simp only [insert] at member
    split at member
    · simp only [List.mem_cons] at member ⊢
      exact member.imp id Or.inr
    · split at member
      · simpa using member
      · simp only [List.mem_cons] at member ⊢
        rcases member with here | later
        · exact .inr (.inl here)
        · exact (ih later).imp id Or.inr

theorem ascending_insert {key : String} {value : α} {entries : List (String × α)}
    (ascending : Ascending entries) : Ascending (insert key value entries) := by
  induction entries with
  | nil => simp [insert, Ascending]
  | cons head rest ih =>
    obtain ⟨k, v⟩ := head
    obtain ⟨above, tail⟩ := List.pairwise_cons.1 ascending
    simp only [insert]
    split
    · rename_i same
      subst same
      exact List.pairwise_cons.2 ⟨above, tail⟩
    · split
      · rename_i less
        refine List.pairwise_cons.2 ⟨fun entry member => ?_, ascending⟩
        rcases List.mem_cons.1 member with rfl | later
        · exact less
        · exact String.lt_trans less (above entry later)
      · rename_i different notLess
        refine List.pairwise_cons.2 ⟨fun entry member => ?_, ih tail⟩
        rcases mem_insert member with rfl | later
        · show k < key
          grind
        · exact above entry later

theorem ascending_erase {key : String} {entries : List (String × α)}
    (ascending : Ascending entries) : Ascending (erase key entries) :=
  List.Pairwise.filter _ ascending

theorem ascending_ofList (entries : List (String × α)) : Ascending (ofList entries) := by
  suffices general : ∀ sorted : List (String × α), Ascending sorted →
      Ascending (entries.foldl (fun sorted entry => insert entry.1 entry.2 sorted) sorted) from
    general [] List.Pairwise.nil
  induction entries with
  | nil => exact fun _ sorted => sorted
  | cons head rest ih => exact fun sorted h => ih _ (ascending_insert h)

theorem ascending_map {f : α → β} {entries : List (String × α)}
    (ascending : Ascending entries) :
    Ascending (entries.map fun entry => (entry.1, f entry.2)) :=
  List.Pairwise.map _ (fun _ _ h => h) ascending

theorem lookup_cons_of_ne {key other : String} {value : α} {rest : List (String × α)}
    (different : other ≠ key) : ((key, value) :: rest).lookup other = rest.lookup other := by
  have : (other == key) = false := by simpa using different
  rw [List.lookup_cons, this]

theorem lookup_insert (key : String) (value : α) (entries : List (String × α)) (other : String) :
    (insert key value entries).lookup other =
      if other = key then some value else entries.lookup other := by
  by_cases asked : other = key
  · subst asked
    simp only [if_true]
    induction entries with
    | nil => simp [insert]
    | cons head rest ih =>
      obtain ⟨k, v⟩ := head
      simp only [insert]
      split
      · simp
      · split
        · simp
        · rename_i different _
          rw [lookup_cons_of_ne different, ih]
  · simp only [asked, if_false]
    induction entries with
    | nil => rw [insert, lookup_cons_of_ne asked]
    | cons head rest ih =>
      obtain ⟨k, v⟩ := head
      simp only [insert]
      split
      · rename_i same
        subst same
        rw [lookup_cons_of_ne asked, lookup_cons_of_ne asked]
      · split
        · rw [lookup_cons_of_ne asked]
        · simp only [List.lookup_cons, ih]

end Fields

/-- A map from texts to values, listed by ascending key. -/
structure Dict (α : Type) where
  entries : List (String × α)
  ascending : Fields.Ascending entries
deriving DecidableEq

namespace Dict

variable {α β : Type}

/-- The map without entries. -/
def empty : Dict α := ⟨[], List.Pairwise.nil⟩

instance : Inhabited (Dict α) := ⟨empty⟩

/-- A map of the given entries; the last entry of a key stays. -/
def ofList (entries : List (String × α)) : Dict α :=
  ⟨Fields.ofList entries, Fields.ascending_ofList entries⟩

/-- The value under a key. -/
def get? (d : Dict α) (key : String) : Option α :=
  d.entries.lookup key

/-- Whether a key has an entry. -/
def contains (d : Dict α) (key : String) : Bool :=
  (d.get? key).isSome

/-- Put a value under a key. -/
def insert (d : Dict α) (key : String) (value : α) : Dict α :=
  ⟨Fields.insert key value d.entries, Fields.ascending_insert d.ascending⟩

/-- Drop the entry of a key. -/
def erase (d : Dict α) (key : String) : Dict α :=
  ⟨Fields.erase key d.entries, Fields.ascending_erase d.ascending⟩

/-- The keys in ascending order. -/
def keys (d : Dict α) : List String :=
  d.entries.map (·.1)

/-- The number of entries. -/
def size (d : Dict α) : Nat :=
  d.entries.length

/-- The same keys with values mapped by a function. -/
def map (f : α → β) (d : Dict α) : Dict β :=
  ⟨d.entries.map fun entry => (entry.1, f entry.2), Fields.ascending_map d.ascending⟩

@[simp] theorem get?_insert (d : Dict α) (key : String) (value : α) (other : String) :
    (d.insert key value).get? other = if other = key then some value else d.get? other :=
  Fields.lookup_insert key value d.entries other

@[simp] theorem get?_empty (key : String) : (empty : Dict α).get? key = none := rfl

end Dict

end Relay
