import Relay.Proofs.Dict
import Relay.Proofs.Json.Leaves
import Relay.Proofs.Loops
import Relay.Proofs.Store.Placeholder

/-! # Trees with their placeholders filled in

Filling in the placeholders of a tree changes its strings one by one and nothing else,
`resolve_eq_mapLeaves`. It is not idempotent, since what is put into a string is not looked at
again; it is where no string of the result holds a placeholder, `resolve_resolve`.
-/

namespace Relay.Store

theorem resolveItems_eq (store : Store) (finished items : List Json) :
    resolveItems store finished items = finished.reverse ++ items.map store.resolve := by
  apply loop_eq_map
  · exact fun _ => rfl
  · exact fun _ _ _ => rfl

theorem resolveFields_eq (store : Store) (finished fields : List (String × Json)) :
    resolveFields store finished fields =
      finished.reverse ++ fields.map fun field => (field.1, store.resolve field.2) := by
  apply loop_eq_map
  · exact fun _ => rfl
  · exact fun _ _ _ => rfl

/-- A leaf with its placeholders filled in. -/
def resolveLeaf (store : Store) : Json → Json
  | .string s => .string (store.interpolate s)
  | other => other

mutual

/-- A tree is filled in leaf by leaf. -/
theorem resolve_eq_mapLeaves (store : Store) (j : Json) :
    store.resolve j = j.mapLeaves store.resolveLeaf := by
  cases j with
  | array items =>
    rw [resolve, resolveItems_eq, Json.mapLeaves]
    exact congrArg Json.array (map_resolve_items store items)
  | object fields =>
    rw [resolve, resolveFields_eq, Json.mapLeaves]
    exact congrArg Json.object (map_resolve_fields store fields)
  | _ => rfl

theorem map_resolve_items (store : Store) (items : List Json) :
    items.map store.resolve = Json.mapLeavesItems store.resolveLeaf items := by
  cases items with
  | nil => rfl
  | cons item rest =>
    rw [List.map_cons, Json.mapLeavesItems, resolve_eq_mapLeaves, map_resolve_items]

theorem map_resolve_fields (store : Store) (fields : List (String × Json)) :
    (fields.map fun field => (field.1, store.resolve field.2)) =
      Json.mapLeavesFields store.resolveLeaf fields := by
  cases fields with
  | nil => rfl
  | cons field rest =>
    rw [List.map_cons, Json.mapLeavesFields, resolve_eq_mapLeaves, map_resolve_fields]

end

/-- A tree stays as it is exactly if each of its strings does. -/
theorem resolve_eq_self_iff (store : Store) (j : Json) :
    store.resolve j = j ↔ ∀ s, .string s ∈ j.leaves → store.interpolate s = s := by
  rw [resolve_eq_mapLeaves, Json.mapLeaves_eq_self_iff]
  constructor
  · intro fixed s member
    exact Json.string.inj (fixed (.string s) member)
  · intro fixed leaf member
    cases leaf with
    | string s => exact congrArg Json.string (fixed s member)
    | _ => rfl

/-- The strings of a tree after filling in are what has become of its strings. -/
theorem string_mem_leaves_resolve {store : Store} {j : Json} {s : String} :
    .string s ∈ (store.resolve j).leaves ↔
      ∃ old, .string old ∈ j.leaves ∧ store.interpolate old = s := by
  have keeps : ∀ leaf : Json, leaf.leaves = [leaf] →
      (store.resolveLeaf leaf).leaves = [store.resolveLeaf leaf] := by
    intro leaf single
    cases leaf with
    | string s => rfl
    | _ => exact single
  rw [resolve_eq_mapLeaves, Json.leaves_mapLeaves keeps, List.mem_map]
  constructor
  · rintro ⟨leaf, member, same⟩
    cases leaf with
    | string old => exact ⟨old, member, Json.string.inj same⟩
    | _ => cases same
  · rintro ⟨old, member, rfl⟩
    exact ⟨.string old, member, rfl⟩

/-! ## Filling in again -/

/-- No entry of the store shows a dollar sign as text. -/
def Dollarless (store : Store) : Prop :=
  ∀ key value, store.get? key = some value → '$' ∉ value.display.toList

theorem Dollarless.notMem_placeholder {store : Store} (dollarless : store.Dollarless)
    (name : List Char) : '$' ∉ store.placeholder name := by
  rw [placeholder]
  split
  · rename_i value found
    exact dollarless _ value found
  · exact List.not_mem_nil

theorem interpolate_eq_self (store : Store) {s : String}
    (free : ¬ Template.HasPlaceholder s.toList) : store.interpolate s = s := by
  rw [interpolate, Template.fill_eq_self free, String.ofList_toList]

theorem not_hasPlaceholder_interpolate {store : Store} (dollarless : store.Dollarless) {s : String}
    (single : ¬ ['$', '$', '\x7b'] <:+: s.toList) :
    ¬ Template.HasPlaceholder (store.interpolate s).toList := by
  rw [interpolate, String.toList_ofList]
  exact Template.not_hasPlaceholder_fill dollarless.notMem_placeholder single

/-- A tree without placeholders stays as it is. -/
theorem resolve_eq_self (store : Store) {j : Json}
    (free : ∀ s, .string s ∈ j.leaves → ¬ Template.HasPlaceholder s.toList) :
    store.resolve j = j := by
  apply (resolve_eq_self_iff store j).2
  intro s member
  exact store.interpolate_eq_self (free s member)

/-- A tree that is filled in again stays as it is exactly if each of its strings does. A tree in
which no string holds a placeholder stays as it is, and so does one that is filled in again if none
is left. None is left if the store shows no dollar sign and no string of the tree has one before a
placeholder. -/
theorem resolve_resolve (store : Store) (v : Json) :
    (store.resolve (store.resolve v) = store.resolve v ↔
      ∀ s, .string s ∈ (store.resolve v).leaves → store.interpolate s = s) ∧
    ((∀ s, .string s ∈ v.leaves → ¬ Template.HasPlaceholder s.toList) → store.resolve v = v) ∧
    ((∀ s, .string s ∈ (store.resolve v).leaves → ¬ Template.HasPlaceholder s.toList) →
      store.resolve (store.resolve v) = store.resolve v) ∧
    (store.Dollarless → (∀ s, .string s ∈ v.leaves → ¬ ['$', '$', '\x7b'] <:+: s.toList) →
      ∀ s, .string s ∈ (store.resolve v).leaves → ¬ Template.HasPlaceholder s.toList) := by
  refine ⟨resolve_eq_self_iff store _, resolve_eq_self store, resolve_eq_self store, ?_⟩
  intro dollarless single s member
  obtain ⟨old, before, rfl⟩ := string_mem_leaves_resolve.1 member
  exact not_hasPlaceholder_interpolate dollarless (single old before)

/-- A store with a plain entry. -/
def names : Store :=
  Dict.ofList [("who", .string "ada")]

/-- A tree with a placeholder for it and one for an entry that is missing. -/
def greeting : Json :=
  .object [("text", .array [.string "hello $\x7bwho\x7d", .string "$\x7bx\x7d", .bool true])]

theorem resolve_resolve_greeting :
    (names.Dollarless ∧
      ∀ s, .string s ∈ greeting.leaves → ¬ ['$', '$', '\x7b'] <:+: s.toList) ∧
    names.resolve (names.resolve greeting) = names.resolve greeting := by
  have dollarless : names.Dollarless := by
    intro key value found
    have member : (key, value) ∈ [("who", Json.string "ada")] := Fields.mem_of_lookup found
    cases List.mem_singleton.1 member
    decide
  have single : ∀ s, .string s ∈ greeting.leaves → ¬ ['$', '$', '\x7b'] <:+: s.toList := by
    intro s member
    have member : Json.string s ∈
        [.string "hello $\x7bwho\x7d", .string "$\x7bx\x7d", .bool true] := member
    simp only [List.mem_cons, Json.string.injEq, reduceCtorEq, List.not_mem_nil, or_false] at member
    rcases member with rfl | rfl <;> decide +kernel
  obtain ⟨-, -, free, clean⟩ := resolve_resolve names greeting
  exact ⟨⟨dollarless, single⟩, free (clean dollarless single)⟩

/-- What is put in may be a placeholder. -/
theorem not_resolve_resolve :
    ¬ ∀ (store : Store) (v : Json), store.resolve (store.resolve v) = store.resolve v := by
  intro idempotent
  have again := idempotent (Dict.ofList [("a", .string "$\x7bb\x7d"), ("b", .string "1")])
    (.string "$\x7ba\x7d")
  simp only [resolve, Json.string.injEq] at again
  revert again
  decide +kernel

end Relay.Store
