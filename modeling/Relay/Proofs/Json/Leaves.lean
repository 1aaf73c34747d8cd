import Relay.Json.Basic

/-! # Leaves of values

The parts of a value that are neither arrays nor objects are its leaves. What is done to a value
leaf by leaf is settled by the list of its leaves: it changes nothing exactly if it fixes each of
them, `mapLeaves_eq_self_iff`.
-/

namespace Relay.Json

mutual

/-- A value with a function applied to each of its leaves. -/
def mapLeaves (f : Json → Json) : Json → Json
  | null => f null
  | bool b => f (bool b)
  | int n => f (int n)
  | float x => f (float x)
  | string s => f (string s)
  | array items => array (mapLeavesItems f items)
  | object fields => object (mapLeavesFields f fields)

/-- Items with a function applied to each of their leaves. -/
def mapLeavesItems (f : Json → Json) : List Json → List Json
  | [] => []
  | item :: rest => item.mapLeaves f :: mapLeavesItems f rest

/-- Fields with a function applied to each of their leaves. -/
def mapLeavesFields (f : Json → Json) : List (String × Json) → List (String × Json)
  | [] => []
  | (key, value) :: rest => (key, value.mapLeaves f) :: mapLeavesFields f rest

end

mutual

/-- The leaves of a value in the order in which it is written. -/
def leaves : Json → List Json
  | null => [null]
  | bool b => [bool b]
  | int n => [int n]
  | float x => [float x]
  | string s => [string s]
  | array items => leavesItems items
  | object fields => leavesFields fields

/-- The leaves of items. -/
def leavesItems : List Json → List Json
  | [] => []
  | item :: rest => item.leaves ++ leavesItems rest

/-- The leaves of fields. -/
def leavesFields : List (String × Json) → List Json
  | [] => []
  | (_, value) :: rest => value.leaves ++ leavesFields rest

end

variable {f : Json → Json}

mutual

/-- A value stays as it is exactly if each of its leaves does. -/
theorem mapLeaves_eq_self_iff (j : Json) :
    j.mapLeaves f = j ↔ ∀ leaf ∈ j.leaves, f leaf = leaf := by
  cases j with
  | array items =>
    rw [mapLeaves, leaves, array.injEq]
    exact mapLeavesItems_eq_self_iff items
  | object fields =>
    rw [mapLeaves, leaves, object.injEq]
    exact mapLeavesFields_eq_self_iff fields
  | _ => simp [mapLeaves, leaves]

theorem mapLeavesItems_eq_self_iff (items : List Json) :
    mapLeavesItems f items = items ↔ ∀ leaf ∈ leavesItems items, f leaf = leaf := by
  cases items with
  | nil => simp [mapLeavesItems, leavesItems]
  | cons item rest =>
    rw [mapLeavesItems, leavesItems, List.cons.injEq, mapLeaves_eq_self_iff,
      mapLeavesItems_eq_self_iff, List.forall_mem_append]

theorem mapLeavesFields_eq_self_iff (fields : List (String × Json)) :
    mapLeavesFields f fields = fields ↔ ∀ leaf ∈ leavesFields fields, f leaf = leaf := by
  cases fields with
  | nil => simp [mapLeavesFields, leavesFields]
  | cons field rest =>
    rw [mapLeavesFields, leavesFields, List.cons.injEq, Prod.mk.injEq, mapLeaves_eq_self_iff,
      mapLeavesFields_eq_self_iff, List.forall_mem_append]
    simp

end

mutual

/-- If leaves go to leaves, the leaves of the result are what becomes of the leaves. -/
theorem leaves_mapLeaves (keeps : ∀ leaf, leaf.leaves = [leaf] → (f leaf).leaves = [f leaf])
    (j : Json) : (j.mapLeaves f).leaves = j.leaves.map f := by
  cases j with
  | array items => exact leavesItems_mapLeaves keeps items
  | object fields => exact leavesFields_mapLeaves keeps fields
  | _ => exact keeps _ rfl

theorem leavesItems_mapLeaves (keeps : ∀ leaf, leaf.leaves = [leaf] → (f leaf).leaves = [f leaf])
    (items : List Json) : leavesItems (mapLeavesItems f items) = (leavesItems items).map f := by
  cases items with
  | nil => rfl
  | cons item rest =>
    rw [mapLeavesItems, leavesItems, leavesItems, leaves_mapLeaves keeps,
      leavesItems_mapLeaves keeps, List.map_append]

theorem leavesFields_mapLeaves
    (keeps : ∀ leaf, leaf.leaves = [leaf] → (f leaf).leaves = [f leaf])
    (fields : List (String × Json)) :
    leavesFields (mapLeavesFields f fields) = (leavesFields fields).map f := by
  cases fields with
  | nil => rfl
  | cons field rest =>
    rw [mapLeavesFields, leavesFields, leavesFields, leaves_mapLeaves keeps,
      leavesFields_mapLeaves keeps, List.map_append]

end

end Relay.Json
