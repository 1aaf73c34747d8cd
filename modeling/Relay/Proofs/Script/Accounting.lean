import Relay.Proofs.Script.Footprint
import Relay.Proofs.Script.Points

/-! # What a run holds

A run records the size of each local and of each entry of the store that it writes. At every point
of a run the records are exact: they are the sizes of what is held, nothing held is missing in them,
and their sum stays within the limit, `runProgram_accounted`. Entries that are not written stay as
they were.
-/

namespace Relay.Script

/-- The size of a value is recorded under a name, and the value nests as deep as values may. -/
def Recorded (sizes : Dict Nat) (name : String) (v : Value) : Prop :=
  v.levels ≤ Limits.maxDepth ∧
    ∃ bytes, v.footprint Limits.maxDepth = some bytes ∧ sizes.get? name = some bytes

/-- The records of a run that has written certain entries of a store. -/
structure Accounted (limits : Limits) (initial : Store) (written : List String) (scope : Scope) :
    Prop where
  locals : ∀ name v, scope.locals.get? name = some v → Recorded scope.localSizes name v
  localSizes : ∀ name, scope.locals.get? name = none → scope.localSizes.get? name = none
  entries : ∀ key ∈ written, ∃ j, scope.store.get? key = some j ∧
    Recorded scope.storeSizes key (.ofJson j)
  storeSizes : ∀ key, key ∉ written → scope.storeSizes.get? key = none
  others : ∀ key, key ∉ written → scope.store.get? key = initial.get? key
  held : scope.heldBytes ≤ limits.maxValueBytes

theorem Recorded.insert {sizes : Dict Nat} {name : String} {v : Value}
    (recorded : Recorded sizes name v) {other : String} (different : name ≠ other) (bytes : Nat) :
    Recorded (sizes.insert other bytes) name v := by
  obtain ⟨shallow, size, footprint, found⟩ := recorded
  refine ⟨shallow, size, footprint, ?_⟩
  rw [Dict.get?_insert, if_neg different, found]

theorem recorded_insert {v : Value} {bytes : Nat}
    (size : v.footprint Limits.maxDepth = some bytes) (sizes : Dict Nat) (name : String) :
    Recorded (sizes.insert name bytes) name v := by
  refine ⟨Value.levels_le_of_footprint size, bytes, size, ?_⟩
  rw [Dict.get?_insert, if_pos rfl]

theorem Limits.measure_ok {limits : Limits} {v : Value} {bytes : Nat}
    (measured : limits.measure v = .ok bytes) : v.footprint Limits.maxDepth = some bytes := by
  simp only [measure] at measured
  cases size : v.footprint maxDepth with
  | none =>
    simp only [size] at measured
    split at measured
    · split at measured <;> cases measured
    · cases measured
  | some bytes =>
    simp only [size] at measured
    split at measured
    · split at measured
      · cases measured
      · split at measured <;> cases measured
        rfl
    · split at measured <;> cases measured
      rfl

/-- A value is measured by its size, if that stays within the limits and so does its text. -/
theorem Limits.measure_of_footprint {limits : Limits} {v : Value} {bytes : Nat}
    (size : v.footprint maxDepth = some bytes)
    (texts : ∀ s, v = .string s → s.utf8ByteSize ≤ limits.maxStringBytes)
    (fits : bytes ≤ limits.maxValueBytes) : limits.measure v = .ok bytes := by
  simp only [measure, size, if_neg (Nat.not_lt.2 fits)]
  split
  · rename_i s
    rw [if_neg (Nat.not_lt.2 (texts s rfl))]
    rfl
  · rfl

namespace Scope

variable {limits : Limits} {scope after : Scope}

theorem accept_ok (accepted : scope.accept limits = .ok after) :
    after = scope ∧ scope.heldBytes ≤ limits.maxValueBytes := by
  rw [accept] at accepted
  split at accepted
  · cases accepted
  · rename_i fits
    cases accepted
    exact ⟨rfl, Nat.not_lt.1 fits⟩

theorem writeLocal_ok {name : String} {v : Value}
    (wrote : scope.writeLocal limits name v = .ok after) :
    ∃ bytes, v.footprint Limits.maxDepth = some bytes ∧
      after = { scope with
        locals := scope.locals.insert name v, localSizes := scope.localSizes.insert name bytes } ∧
      after.heldBytes ≤ limits.maxValueBytes := by
  obtain ⟨bytes, measured, accepted⟩ := bind_eq_ok wrote
  obtain ⟨rfl, fits⟩ := accept_ok accepted
  exact ⟨bytes, Limits.measure_ok measured, rfl, fits⟩

theorem writeStore_ok {key : String} {v : Value}
    (wrote : scope.writeStore limits key v = .ok after) :
    ∃ bytes, v.footprint Limits.maxDepth = some bytes ∧
      after = { scope with
        store := scope.store.insert key v.toJson
        storeSizes := scope.storeSizes.insert key bytes } ∧
      after.heldBytes ≤ limits.maxValueBytes := by
  obtain ⟨bytes, measured, accepted⟩ := bind_eq_ok wrote
  obtain ⟨rfl, fits⟩ := accept_ok accepted
  exact ⟨bytes, Limits.measure_ok measured, rfl, fits⟩

end Scope

namespace Accounted

variable {limits : Limits} {initial : Store} {written : List String} {scope after : Scope}

theorem start (limits : Limits) (initial : Store) :
    Accounted limits initial [] { store := initial } where
  locals := nofun
  localSizes _ _ := rfl
  entries := nofun
  storeSizes _ _ := rfl
  others _ _ := rfl
  held := Nat.zero_le _

theorem constants (accounted : Accounted limits initial written scope) (constants : List String) :
    Accounted limits initial written { scope with constants } :=
  ⟨accounted.locals, accounted.localSizes, accounted.entries, accounted.storeSizes,
    accounted.others, accounted.held⟩

theorem writeLocal (accounted : Accounted limits initial written scope) {name : String} {v : Value}
    (wrote : scope.writeLocal limits name v = .ok after) :
    Accounted limits initial written after := by
  obtain ⟨bytes, size, rfl, fits⟩ := Scope.writeLocal_ok wrote
  refine ⟨?_, ?_, accounted.entries, accounted.storeSizes, accounted.others, fits⟩
  · intro other w found
    simp only [Dict.get?_insert] at found
    split at found
    · rename_i same
      subst same
      cases found
      exact recorded_insert size _ _
    · rename_i different
      exact (accounted.locals other w found).insert different bytes
  · intro other absent
    simp only [Dict.get?_insert] at absent ⊢
    split at absent
    · cases absent
    · rename_i different
      rw [if_neg different]
      exact accounted.localSizes other absent

theorem writeStore (accounted : Accounted limits initial written scope) {key : String} {v : Value}
    (wrote : scope.writeStore limits key v = .ok after) :
    Accounted limits initial (key :: written) after := by
  obtain ⟨bytes, size, rfl, fits⟩ := Scope.writeStore_ok wrote
  have size : v.stored.footprint Limits.maxDepth = some bytes :=
    (Value.footprint_stored _ v).trans size
  refine ⟨accounted.locals, accounted.localSizes, ?_, ?_, ?_, fits⟩
  · intro other member
    by_cases same : other = key
    · subst same
      refine ⟨v.toJson, ?_, recorded_insert size _ _⟩
      rw [Dict.get?_insert, if_pos rfl]
    · obtain ⟨j, found, recorded⟩ :=
        accounted.entries other ((List.mem_cons.1 member).resolve_left same)
      refine ⟨j, ?_, recorded.insert same bytes⟩
      rw [Dict.get?_insert, if_neg same, found]
  · intro other absent
    obtain ⟨different, before⟩ := not_or.1 (mt List.mem_cons.2 absent)
    rw [Dict.get?_insert, if_neg different]
    exact accounted.storeSizes other before
  · intro other absent
    obtain ⟨different, before⟩ := not_or.1 (mt List.mem_cons.2 absent)
    rw [Dict.get?_insert, if_neg different]
    exact accounted.others other before

/-- No entry is removed. -/
theorem isSome_get? (accounted : Accounted limits initial written scope) {key : String}
    (there : (initial.get? key).isSome = true) : (scope.store.get? key).isSome = true := by
  by_cases member : key ∈ written
  · obtain ⟨j, found, -⟩ := accounted.entries key member
    rw [found]
    rfl
  · rw [accounted.others key member]
    exact there

end Accounted

/-- A write to the store takes an entry, replaces what is at the end of the path and puts the entry
back. -/
theorem assignStore_ok {limits : Limits} {root : String} {keys : List Key} {op : AssignOp}
    {new : Value} {scope after : Scope}
    (wrote : assignStore limits root keys op new scope = .ok after) :
    ∃ first rest combined changed, keys = first :: rest ∧
      combine limits op ((scope.entry first.text).getPath rest) new = .ok combined ∧
      (scope.entry first.text).setPath rest combined = .ok changed ∧
      scope.writeStore limits first.text changed = .ok after := by
  cases keys with
  | nil => cases wrote
  | cons first rest =>
    obtain ⟨combined, result, wrote⟩ := bind_eq_ok wrote
    obtain ⟨changed, placed, wrote⟩ := bind_eq_ok wrote
    exact ⟨first, rest, combined, changed, rfl, result, placed, wrote⟩

/-- A write to a local finds it, and it is no constant. -/
theorem assignLocal_ok {limits : Limits} {root : String} {keys : List Key} {op : AssignOp}
    {new : Value} {scope after : Scope}
    (wrote : assignLocal limits root keys op new scope = .ok after) :
    root ∉ scope.constants ∧ ∃ current combined changed, scope.locals.get? root = some current ∧
      combine limits op (current.getPath keys) new = .ok combined ∧
      current.setPath keys combined = .ok changed ∧
      scope.writeLocal limits root changed = .ok after := by
  rw [assignLocal] at wrote
  split at wrote
  · cases wrote
  · rename_i free
    split at wrote
    · cases wrote
    · rename_i current found
      obtain ⟨combined, result, wrote⟩ := bind_eq_ok wrote
      obtain ⟨changed, placed, wrote⟩ := bind_eq_ok wrote
      exact ⟨free, current, combined, changed, found, result, placed, wrote⟩

open Running

variable {setting : Setting} {initial : Store} {p q : Point}

/-- The entry that an assignment to the store writes is named by the first step of its path. -/
theorem writes?_assign {place : Place} (root : isStoreName place.root = true) (op : AssignOp)
    (value : Expr) {st ticked mid : RunState} {first : Key} {rest : List Key}
    (counted : reading (fun _ => tick setting) st = (.ok (), ticked))
    (path : evaluatePath setting [] place.path ticked = (.ok (first :: rest), mid)) :
    (Stmt.assign place op value).writes? setting st = some first.text := by
  simp only [Stmt.writes?, if_pos root, bind_apply, counted, path]

theorem Accounted.declare {written : List String} {st after : RunState} {constant : Bool}
    {name : String} {value : Expr}
    (accounted : Accounted setting.limits initial written st.scope)
    (ran : exec setting (.declare constant name value) st = (.ok .next, after)) :
    Accounted setting.limits initial written after.scope := by
  obtain ⟨-, v, -, scope, -, -, -, wrote, same⟩ := exec_declare_ok ran
  have held := accounted.writeLocal wrote
  rw [same]
  split
  · exact held.constants _
  · exact held

/-- After an assignment the records are exact, where the entry that it writes counts as written. -/
theorem Accounted.assign {written : List String} {st after : RunState} {place : Place}
    {op : AssignOp} {value : Expr}
    (accounted : Accounted setting.limits initial written st.scope)
    (ran : exec setting (.assign place op value) st = (.ok .next, after)) :
    Accounted setting.limits initial
      (((Stmt.assign place op value).writes? setting st).toList ++ written) after.scope := by
  obtain ⟨ticked, keys, mid, new, _, counted, path, -, -, wrote, -⟩ := exec_assign_iff.1 ran
  rw [Place.write] at wrote
  split at wrote
  · rename_i root
    obtain ⟨first, rest, _, changed, rfl, -, -, entered⟩ := assignStore_ok wrote
    rw [writes?_assign root op value counted path]
    exact accounted.writeStore entered
  · rename_i root
    obtain ⟨-, _, _, changed, -, -, -, wrote⟩ := assignLocal_ok wrote
    have nothing : (Stmt.assign place op value).writes? setting st = none := if_neg root
    rw [nothing]
    exact accounted.writeLocal wrote

/-- The records stay exact from one point to the next. -/
theorem Accounted.next?
    (accounted : Accounted setting.limits initial p.written p.state.scope)
    (moved : p.next? setting = some q) :
    Accounted setting.limits initial q.written q.state.scope := by
  obtain ⟨s, rest, ready, -, -, same, ⟨opening, body, opens, opened, -, before⟩ |
    ⟨plain, ran, -, after⟩⟩ := Point.next?_cases moved
  · rw [before, (steady_opening opens).scope_eq opened, same]
    exact accounted
  rw [after]
  rw [← same] at accounted
  cases s with
  | declare constant name value => exact accounted.declare ran
  | assign place op value => exact accounted.assign ran
  | branch condition yes no => cases plain
  | ret value => exact (steady_ret value).scope_eq ran ▸ accounted
  | block body => cases plain
  | eval e => exact (steady_eval e).scope_eq ran ▸ accounted

theorem Accounted.after? {n : Nat}
    (accounted : Accounted setting.limits initial p.written p.state.scope)
    (reached : p.after? setting n = some q) :
    Accounted setting.limits initial q.written q.state.scope := by
  induction n generalizing p with
  | zero => cases reached; exact accounted
  | succ n ih =>
    obtain ⟨next, moved, reached⟩ := Option.bind_eq_some_iff.1 reached
    exact ih (accounted.next? moved) reached

/-- At every point of a run the records are exact, and what is held stays within the limit. The
points are those of the run: from each of them it goes on as from the start, and it ends with the
store of a last one. -/
theorem runProgram_accounted (setting : Setting) (program : Program) (store : Store) :
    (∀ n p, (Point.start program store).after? setting n = some p →
      Accounted setting.limits store p.written p.state.scope ∧
        (∀ key, (store.get? key).isSome = true → (p.state.scope.store.get? key).isSome = true) ∧
        execList setting p.pending p.state =
          execList setting program (Point.start program store).state) ∧
    ∃ n last, (Point.start program store).after? setting n = some last ∧
      last.next? setting = none ∧
      (runProgram setting program store).store = last.state.scope.store := by
  constructor
  · intro n p reached
    have accounted := (Accounted.start setting.limits store).after? reached
    exact ⟨accounted, fun key there => accounted.isSome_get? there,
      (Point.execList_after? reached).symm⟩
  · obtain ⟨n, last, reached, ended, same⟩ := Point.exists_last setting (.start program store)
    exact ⟨n, last, reached, ended, congrArg Scope.store same⟩

end Relay.Script
