import Relay.Proofs.Script.Access
import Relay.Proofs.Script.Metering

/-! # Reading what was written

An assignment writes by keys into a value of JSON or a local, and an expression reads by names and
by indices. Where the indices of a place are written out, the place as an expression reads right
after the assignment as what was assigned, `exec_assign_readBack`. In the store a double that is not
finite has become null.
-/

namespace Relay.Script

open Running

/-! ## Values without doubles that are not finite -/

namespace Value

mutual

/-- A value with null in the place of each double that is not finite. -/
def finitePart : Value → Value
  | null => null
  | bool b => bool b
  | int n => int n
  | float x => if x.isFinite then float x else null
  | string s => string s
  | list items => list (finiteItems items)
  | map entries => map (finiteEntries entries)

/-- Items with null in the place of each double that is not finite. -/
def finiteItems : List Value → List Value
  | [] => []
  | item :: rest => item.finitePart :: finiteItems rest

/-- Entries with null in the place of each double that is not finite. -/
def finiteEntries : List (String × Value) → List (String × Value)
  | [] => []
  | (key, value) :: rest => (key, value.finitePart) :: finiteEntries rest

end

mutual

/-- Nothing else is lost on the way through JSON. -/
theorem stored_eq_finitePart (v : Value) : v.stored = v.finitePart := by
  cases v with
  | int n => exact ofExactInt_ofInt64 n
  | float x =>
    rw [stored, toJson, finitePart]
    split <;> rfl
  | list items => rw [stored_list, finitePart, map_stored_items]
  | map entries => rw [stored_map, finitePart, map_stored_entries]
  | _ => rfl

theorem map_stored_items (items : List Value) : items.map stored = finiteItems items := by
  cases items with
  | nil => rfl
  | cons item rest => rw [List.map_cons, finiteItems, stored_eq_finitePart, map_stored_items]

theorem map_stored_entries (entries : List (String × Value)) :
    (entries.map fun entry => (entry.1, entry.2.stored)) = finiteEntries entries := by
  cases entries with
  | nil => rfl
  | cons entry rest =>
    rw [List.map_cons, finiteEntries, stored_eq_finitePart, map_stored_entries]

end

end Value

/-! ## Computations before the deadline -/

section Yields

variable {setting : Setting} {α β : Type}

/-- Before the deadline the computation succeeds with this value, and no time passes. -/
def Yields (setting : Setting) (x : Metered α) (a : α) : Prop :=
  ∀ m, ¬ setting.Passed m.now → ∃ ended, x m = (.ok a, ended) ∧ ended.now = m.now

theorem yields_lift {r : Except ScriptError α} {a : α} (succeeds : r = .ok a) :
    Yields setting (liftM r) a := by
  subst succeeds
  exact fun m _ => ⟨m, rfl, rfl⟩

theorem yields_tick : Yields setting (tick setting) () := by
  intro m early
  rw [tick_eq, if_neg]
  · exact ⟨_, rfl, rfl⟩
  · rintro ⟨late, -⟩
    have passed := Setting.passed_of_late late
    exact early passed

theorem Yields.bind {x : Metered α} {f : α → Metered β} {a : α} {b : β}
    (first : Yields setting x a) (second : Yields setting (f a) b) :
    Yields setting (x >>= f) b := by
  intro m early
  obtain ⟨mid, ran, same⟩ := first m early
  obtain ⟨ended, ran', same'⟩ := second mid (same ▸ early)
  rw [bind_apply, ran]
  exact ⟨ended, ran', same'.trans same⟩

end Yields

/-! ## Assignments -/

variable {setting : Setting}

/-- A step with a name, or with an index that is written out as an integer or a string. -/
def PathStep.Literal : PathStep → Prop
  | field _ => True
  | index (.int _) => True
  | index (.string _) => True
  | index _ => False

/-- An index that is written out evaluates to a value with the key that it gives. -/
theorem PathStep.Literal.yields {scope : Scope} {e : Expr} {key : Key}
    (literal : (PathStep.index e).Literal) (gives : PathStep.Gives setting scope (.index e) key)
    (other : Scope) :
    ∃ k : Value, k.IsKey ∧ k.toKey = .ok key ∧ Yields setting (eval setting other e) k := by
  obtain ⟨v, m, after, ran, keyed⟩ := gives
  cases e with
  | int n =>
    rw [eval] at ran ⊢
    obtain ⟨_, _, -, ran⟩ := bind_apply_ok ran
    cases ran
    exact ⟨.int n, trivial, keyed, yields_tick.bind (yields_lift rfl)⟩
  | string s =>
    rw [eval] at ran ⊢
    obtain ⟨_, _, -, ran⟩ := bind_apply_ok ran
    cases ran
    exact ⟨.string s, trivial, keyed, yields_tick.bind (yields_lift rfl)⟩
  | _ => exact literal.elim

/-- What is there is read before the deadline in any scope by the steps that are written out. -/
theorem stepRules_yields (setting : Setting) (before scope : Scope) :
    StepRules setting scope (fun step key => step.Literal ∧ step.Gives setting before key)
      Value.Offers (Yields setting) where
  names gives := gives.2
  known _ := yields_lift rfl
  counted yields := yields_tick.bind yields
  field offers yields := yields.bind (yields_lift (Value.field_of_offers offers))
  index := by
    rintro x v e key ⟨literal, gives⟩ offers yields
    obtain ⟨k, isKey, keyed, evaluated⟩ := literal.yields gives scope
    exact yields.bind (evaluated.bind (yields_lift (Value.index_of_offers isKey keyed offers)))

/-- What an assignment has written is what is read. After an assignment to a place whose indices are
written out, the place as an expression reads before the deadline as the value of the right-hand
side, without the doubles that JSON cannot hold if it is in the store. At every point of a run the
names of the store stand for the store, as `Scope.namesStore_start` and `Scope.namesStore_next?`
show. -/
theorem exec_assign_readBack {place : Place} {value : Expr} {st after : RunState}
    (named : st.scope.NamesStore) (literal : ∀ step ∈ place.path, step.Literal)
    (ran : exec setting (.assign place .set value) st = (.ok .next, after)) :
    ∃ path mid new ready, place.locate setting st = (.ok path, mid) ∧
      evaluate setting value mid = (.ok new, ready) ∧
      ∀ m, ¬ setting.Passed m.now → ∃ ended,
        eval setting after.scope place.expr m =
          (.ok (if isStoreName place.root then new.finitePart else new), ended) ∧
        ended.now = m.now := by
  obtain ⟨ticked, keys, mid, new, ready, counted, path, -, right, wrote, -⟩ := exec_assign_iff.1 ran
  obtain ⟨_, changed, -, -, names, stands, offers, reads⟩ := Place.write_set_ok named wrote
  obtain ⟨_, rfl, given⟩ := evaluatePath_gives path
  have located : place.locate setting st = (.ok keys, mid) := by
    simp only [Place.locate, bind_apply, counted, path]
  refine ⟨keys, mid, new, ready, located, right, ?_⟩
  rw [← Value.stored_eq_finitePart, ← reads]
  exact (stepRules_yields setting ticked.scope after.scope).judged names stands
    ((List.forall₂_and_left _ _).2 ⟨literal, given⟩) offers

/-- The write comes to a list in an entry of the store, pads it and goes on with a new map. -/
theorem exec_assign_readBack_padded :
    let st : RunState := ⟨{ store := Dict.ofList [("a", .array [])] }, {}⟩
    let place : Place := ⟨"context", [.index (.string "a"), .index (.int 1), .field "length"]⟩
    let after := (exec .offline (.assign place .set (.int 7)) st).2
    (st.scope.NamesStore ∧ (∀ step ∈ place.path, step.Literal) ∧
        exec .offline (.assign place .set (.int 7)) st = (.ok .next, after)) ∧
      ∀ m, ∃ ended, eval .offline after.scope
        (.field (.index (.index (.ident "context") (.string "a")) (.int 1)) "length") m =
          (.ok (.int 7), ended) := by
  intro st place after
  have named : st.scope.NamesStore := Scope.namesStore_start _
  have literal : ∀ step ∈ place.path, step.Literal := by
    simp [place, PathStep.Literal]
  have ran : exec .offline (.assign place .set (.int 7)) st = (.ok .next, after) := rfl
  refine ⟨⟨named, literal, ran⟩, fun m => ?_⟩
  obtain ⟨path, mid, new, ready, located, right, reads⟩ := exec_assign_readBack named literal ran
  cases located
  cases right
  obtain ⟨ended, read, -⟩ := reads m id
  exact ⟨ended, read⟩

end Relay.Script
