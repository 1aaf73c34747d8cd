import Relay.Proofs.Script.Accounting
import Relay.Proofs.Script.Places

/-! # What an assignment leaves as it was

An assignment to the store takes the entry that its path begins with, writes to the end of the path
and puts the entry back. All other entries stay exactly as they were. Inside the entry every place
that is not along the path reads as before where a script can hold what is there,
`exec_assign_frame`; an integer beyond the signed words comes back as a double.
-/

namespace Relay.Script

open Running

variable {setting : Setting}

/-- Count a statement and evaluate the path of the place to which it writes. -/
def Place.locate (setting : Setting) (place : Place) : Running (List Key) := do
  reading fun _ => tick setting
  evaluatePath setting [] place.path

/-- A value was written to the end of a path into a store. -/
structure Written (before after : Store) (path : List Key) (value : Value) : Prop where
  place : after.toJson.read path = value.toJson
  /-- Only the entry that the path begins with is another one. -/
  entries : ∀ key, path.head?.map Key.text ≠ some key → after.get? key = before.get? key
  /-- What is not along the path has gone through a script if it is inside this entry. -/
  reads : ∀ other, ¬ before.toJson.Along path other →
    after.toJson.read other =
      if other.head?.map Key.text = path.head?.map Key.text then
        (before.toJson.read other).narrowed
      else before.toJson.read other
  /-- What is not along the path is as it was, if a script can hold it. -/
  held : ∀ other, ¬ before.toJson.Along path other →
    (∀ leaf ∈ (before.toJson.read other).leaves, leaf.Holdable) →
    after.toJson.read other = before.toJson.read other

theorem Scope.entry_eq (scope : Scope) (key : String) :
    scope.entry key = .ofJson (scope.store.slot key) := by
  rw [entry, Store.slot]
  cases scope.store.get? key <;> rfl

/-- The first step into the store is the name of an entry. -/
theorem read_toJson_cons (store : Store) (key : Key) (rest : List Key) :
    store.toJson.read (key :: rest) = (store.slot key.text).read rest := rfl

/-- A path into the store is written to by a write to the rest of it inside its entry. -/
theorem written_of_setPath {before after : Store} {first : Key} {rest : List Key}
    {value changed : Value}
    (placed : (Value.ofJson (before.slot first.text)).setPath rest value = .ok changed)
    (stored : after = before.insert first.text changed.toJson) :
    Written before after (first :: rest) value := by
  have slot (key : String) :
      after.slot key = if key = first.text then changed.toJson else before.slot key := by
    rw [stored, Store.slot, Dict.get?_insert]
    split <;> rfl
  have reads : ∀ other, ¬ before.toJson.Along (first :: rest) other →
      after.toJson.read other =
        if other.head?.map Key.text = some first.text then (before.toJson.read other).narrowed
        else before.toJson.read other := by
    intro other apart
    cases other with
    | nil => exact absurd trivial apart
    | cons key further =>
      simp only [List.head?_cons, Option.map_some, Option.some.injEq, read_toJson_cons, slot]
      split
      · rename_i same
        rw [same]
        exact Json.read_toJson_setPath placed fun along => apart ⟨same.symm, along⟩
      · rfl
  refine ⟨?_, ?_, reads, ?_⟩
  · rw [read_toJson_cons, slot, if_pos rfl, Json.read_toJson, Value.getPath_setPath placed]
  · intro key different
    have other : key ≠ first.text := fun same => different (congrArg some same.symm)
    rw [stored, Dict.get?_insert, if_neg other]
  · intro other apart holdable
    rw [reads other apart, (Json.narrowed_eq_self_iff _).2 holdable, ite_self]

/-- An assignment to the store evaluates its path, which is not empty, and its right-hand side. It
writes the combination of what was at the end of the path and what is on the right to the end of the
path and leaves all else as it was, save that an integer beyond the signed words in the entry that
it writes to has become a double. -/
theorem exec_assign_frame {place : Place} {op : AssignOp} {value : Expr} {st after : RunState}
    (root : isStoreName place.root = true)
    (ran : exec setting (.assign place op value) st = (.ok .next, after)) :
    ∃ path mid new ready result,
      place.locate setting st = (.ok path, mid) ∧ path ≠ [] ∧
      evaluate setting value mid = (.ok new, ready) ∧
      combine setting.limits op (.ofJson (st.scope.store.toJson.read path)) new = .ok result ∧
      Written st.scope.store after.scope.store path result ∧
      after.scope.locals = st.scope.locals ∧ after.scope.constants = st.scope.constants := by
  rw [exec] at ran
  obtain ⟨_, ticked, counted, ran⟩ := bind_ok ran
  obtain ⟨_, _, assigned, ran⟩ := bind_ok ran
  cases ran
  obtain ⟨keys, mid, new, ready, path, right, wrote⟩ := assign_ok assigned
  rw [(steady_reading _).scope_eq counted, if_pos root] at wrote
  obtain ⟨first, rest, result, changed, rfl, combined, placed, wrote⟩ := assignStore_ok wrote
  rw [Scope.entry_eq] at placed combined
  rw [Json.getPath_ofJson, ← read_toJson_cons] at combined
  obtain ⟨_, -, same, -⟩ := Scope.writeStore_ok wrote
  have located : place.locate setting st = (.ok (first :: rest), mid) := by
    simp only [Place.locate, bind_apply, counted, path]
  refine ⟨first :: rest, mid, new, ready, result, located, List.cons_ne_nil _ _, right, combined,
    ?_, ?_, ?_⟩
  · exact written_of_setPath placed (congrArg Scope.store same)
  · rw [same]
  · rw [same]

/-- A store with an integer beyond the signed words in one entry with a flag and a small integer. -/
def meters : Store :=
  Dict.ofList [("a", .object [("big", .int ⟨0xffff_ffff_ffff_ffff, by decide, by decide⟩),
    ("on", .bool true), ("x", .int ⟨1, by decide, by decide⟩)])]

/-- A run that starts on this store. -/
def onMeters : RunState :=
  ⟨{ store := meters }, {}⟩

/-- The place of the small integer. -/
def meter : Place :=
  ⟨"ctx", [.field "a", .field "x"]⟩

/-- The state after two was added to the small integer. -/
def metersRaised : RunState :=
  (exec .offline (.assign meter .add (.int 2)) onMeters).2

private theorem not_along_meter {name : String} (different : name ≠ "x") :
    ¬ meters.toJson.Along [.name "a", .name "x"] [.name "a", .name name] := by
  rintro ⟨-, same, -⟩
  exact different (Eq.symm same)

theorem exec_assign_frame_meters :
    (isStoreName meter.root = true ∧
      exec .offline (.assign meter .add (.int 2)) onMeters = (.ok .next, metersRaised)) ∧
    metersRaised.scope.store.toJson.read [.name "a", .name "x"] = (Value.int 3).toJson ∧
    metersRaised.scope.store.toJson.read [.name "a", .name "on"] = .bool true := by
  have ran : exec .offline (.assign meter .add (.int 2)) onMeters = (.ok .next, metersRaised) := rfl
  refine ⟨⟨rfl, ran⟩, ?_⟩
  obtain ⟨path, mid, new, ready, result, located, -, right, combined, written, -⟩ :=
    exec_assign_frame rfl ran
  cases located
  cases right
  cases combined
  refine ⟨written.place, written.held _ (not_along_meter (by decide)) ?_⟩
  intro leaf member
  obtain rfl : leaf = .bool true := List.mem_singleton.1 member
  trivial

/-- What is not along the path of an assignment need not read exactly as before. -/
theorem not_read_exec_assign :
    ¬ ∀ (setting : Setting) (place : Place) (op : AssignOp) (value : Expr)
      (st mid after : RunState) (path other : List Key), isStoreName place.root = true →
      exec setting (.assign place op value) st = (.ok .next, after) →
      place.locate setting st = (.ok path, mid) → ¬ st.scope.store.toJson.Along path other →
      after.scope.store.toJson.read other = st.scope.store.toJson.read other := by
  intro unchanged
  have kept := unchanged .offline meter .add (.int 2) onMeters ⟨onMeters.scope, { steps := 1 }⟩
    metersRaised [.name "a", .name "x"] [.name "a", .name "big"] rfl rfl rfl
    (not_along_meter (by decide))
  have double : metersRaised.scope.store.toJson.read [.name "a", .name "big"] =
      .ofFloat (UInt64.ofNat 0xffff_ffff_ffff_ffff).toFloat := rfl
  exact Json.ofFloat_ne_int _ _ (double.symm.trans kept)

end Relay.Script
