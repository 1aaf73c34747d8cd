import Mathlib.Data.List.Forall2
import Relay.Proofs.Script.Atomic
import Relay.Proofs.Script.Constants
import Relay.Proofs.Script.Frame

/-! # Places as expressions

The place of an assignment is also an expression. The assignment evaluates the steps of its path to
keys and follows these through the value of the root; the expression reads one field or item after
the other, and a field of the store in a way of its own. Where a value takes the steps of a path
and is not null on the way, both come to the same part of it. So what is judged of computations one
step at a time is judged of the whole expression and the value that the keys lead to,
`StepRules.judged`.
-/

namespace Relay.Script

open Running

variable {setting : Setting} {scope : Scope}

/-! ## Paths -/

/-- The expression that takes a step from what another one stands for. -/
def PathStep.onto (base : Expr) : PathStep → Expr
  | field name => .field base name
  | index e => .index base e

/-- The expression that reads a place. -/
def Place.expr (place : Place) : Expr :=
  place.path.foldl PathStep.onto (.ident place.root)

/-- A step gives a key: a field its name, and an index the key of a value that it evaluates to. -/
def PathStep.Gives (setting : Setting) (scope : Scope) (step : PathStep) (key : Key) : Prop :=
  match step with
  | field name => key = .name name
  | index e => ∃ v m after, eval setting scope e m = (.ok v, after) ∧ v.toKey = .ok key

theorem evaluatePath_gives {taken keys : List Key} {path : List PathStep} {st after : RunState}
    (ran : evaluatePath setting taken path st = (.ok keys, after)) :
    ∃ found, keys = taken.reverse ++ found ∧
      List.Forall₂ (PathStep.Gives setting st.scope) path found := by
  induction path generalizing taken st with
  | nil =>
    cases ran
    exact ⟨[], (List.append_nil _).symm, .nil⟩
  | cons step rest ih =>
    -- A key that is put in front of those that are taken stands behind them in the end.
    have behind {key : Key} {found : List Key} (same : keys = (key :: taken).reverse ++ found) :
        keys = taken.reverse ++ key :: found := by
      rw [same, List.reverse_cons, List.append_assoc, List.singleton_append]
    cases step with
    | field name =>
      obtain ⟨found, same, given⟩ := ih ran
      exact ⟨.name name :: found, behind same, .cons rfl given⟩
    | index e =>
      obtain ⟨v, mid, evaluated, ran⟩ := bind_ok ran
      obtain ⟨key, _, converted, ran⟩ := bind_ok ran
      obtain ⟨keyed, rfl⟩ := lift_ok converted
      obtain ⟨valued, sameScope⟩ := reading_ok_iff.1 evaluated
      obtain ⟨found, same, given⟩ := ih ran
      rw [sameScope] at given
      exact ⟨key :: found, behind same, .cons ⟨v, _, _, valued, keyed⟩ given⟩

/-! ## Steps into values -/

namespace Value

variable {v k target changed new : Value} {key : Key} {path rest : List Key}

/-- A value that addresses parts of others as a path does. -/
def IsKey : Value → Prop
  | int _ => True
  | string _ => True
  | _ => False

/-- A value that is there has parts under keys of this kind. -/
def Offers (v : Value) (key : Key) : Prop :=
  v ≠ null ∧ v.Takes key

/-- The relation holds of each step of a path and the value to which the steps before it lead. -/
def EveryStep (R : Value → Key → Prop) (v : Value) : List Key → Prop
  | [] => True
  | key :: rest => R v key ∧ ((v.step? key).getD null).EveryStep R rest

theorem offers_map (entries : List (String × Value)) (key : Key) : (map entries).Offers key := by
  refine ⟨fun absent => ?_, trivial⟩
  cases absent

theorem offers_list (items : List Value) (n : Nat) : (list items).Offers (.position n) := by
  refine ⟨fun absent => ?_, trivial⟩
  cases absent

theorem field_of_offers {name : String} (offers : v.Offers (.name name)) :
    v.field name = .ok ((v.step? (.name name)).getD null) := by
  obtain ⟨there, taken⟩ := offers
  cases v with
  | null => exact absurd rfl there
  | map entries => rfl
  | _ => exact taken.elim

theorem toKey_ok (isKey : k.IsKey) (keyed : k.toKey = .ok key) :
    (∃ s, k = string s ∧ key = .name s) ∨
      ∃ n p, k = int n ∧ n.toInt = (p : Nat) ∧ key = .position p := by
  cases k with
  | string s =>
    cases keyed
    exact .inl ⟨s, rfl, rfl⟩
  | int n =>
    by_cases negative : 0 ≤ n.toInt
    · simp only [toKey, position?, if_pos negative] at keyed
      cases keyed
      exact .inr ⟨n, _, rfl, (Int.toNat_of_nonneg negative).symm, rfl⟩
    · simp only [toKey, position?, if_neg negative] at keyed
      cases keyed
  | _ => exact isKey.elim

/-- An item is the part under the key of its index. -/
theorem index_of_offers (isKey : k.IsKey) (keyed : k.toKey = .ok key) (offers : v.Offers key) :
    v.index k = .ok ((v.step? key).getD null) := by
  obtain ⟨there, taken⟩ := offers
  cases v with
  | null => exact absurd rfl there
  | map entries =>
    obtain ⟨s, rfl, rfl⟩ | ⟨n, p, rfl, digits, rfl⟩ := toKey_ok isKey keyed
    · rfl
    · rw [index, display, digits]
      rfl
  | list items =>
    obtain ⟨s, rfl, rfl⟩ | ⟨n, p, rfl, digits, rfl⟩ := toKey_ok isKey keyed
    · exact taken.elim
    · have there : (0 : Int) ≤ (p : Int) := Int.natCast_nonneg p
      simp only [index, position?, digits, if_pos there]
      rfl
  | _ => exact taken.elim

/-! ## Steps of writes -/

theorem takes_of_setPath (wrote : target.setPath (key :: rest) new = .ok changed) :
    target.Takes key ∧ changed.Offers key := by
  cases target with
  | null =>
    obtain ⟨inner, -, same⟩ := bind_eq_ok wrote
    cases same
    exact ⟨trivial, offers_map _ key⟩
  | map entries =>
    obtain ⟨inner, -, same⟩ := bind_eq_ok wrote
    cases same
    exact ⟨trivial, offers_map _ key⟩
  | list items =>
    cases key with
    | name s => cases wrote
    | position n =>
      obtain ⟨inner, -, same⟩ := bind_eq_ok wrote
      cases same
      exact ⟨trivial, offers_list _ n⟩
  | _ => cases wrote

/-- A write goes through values that take its steps, and leaves values that are there. -/
theorem everyStep_of_setPath (wrote : target.setPath path new = .ok changed) :
    target.EveryStep Takes path ∧ changed.EveryStep Offers path := by
  induction path generalizing target changed with
  | nil => exact ⟨trivial, trivial⟩
  | cons key rest ih =>
    obtain ⟨taken, offers⟩ := takes_of_setPath wrote
    obtain ⟨inner, below, stepped⟩ := setPath_cons_ok wrote
    obtain ⟨onward, left⟩ := ih below
    refine ⟨⟨taken, onward⟩, offers, ?_⟩
    rw [(stepped key).1 (sameStep_refl target key)]
    exact left

/-! ## Values that come back from JSON -/

theorem getD_step?_stored (v : Value) (key : Key) :
    (v.stored.step? key).getD null = ((v.step? key).getD null).stored := by
  rw [stored, Json.step?_ofJson, Json.step?_toJson]
  cases v.step? key <;> rfl

theorem getPath_stored (v : Value) (path : List Key) :
    v.stored.getPath path = (v.getPath path).stored := by
  rw [stored, Json.getPath_ofJson, Json.read_toJson, stored]

theorem Offers.stored (offers : v.Offers key) : v.stored.Offers key := by
  obtain ⟨there, taken⟩ := offers
  cases v with
  | null => exact absurd rfl there
  | map entries =>
    rw [stored_map]
    exact offers_map _ key
  | list items =>
    rw [stored_list]
    cases key with
    | name s => exact taken.elim
    | position n => exact offers_list _ n
  | _ => exact taken.elim

theorem EveryStep.stored (every : v.EveryStep Offers path) : v.stored.EveryStep Offers path := by
  induction path generalizing v with
  | nil => trivial
  | cons key rest ih =>
    obtain ⟨offers, onward⟩ := every
    refine ⟨offers.stored, ?_⟩
    rw [getD_step?_stored]
    exact ih onward

end Value

/-! ## The root of a place -/

/-- A step into the store leads to an entry. -/
theorem Scope.step?_store (scope : Scope) (key : Key) :
    ((Value.ofJson scope.store.toJson).step? key).getD .null = scope.entry key.text := by
  rw [Json.getD_step?_ofJson, entry_eq]
  rfl

theorem Scope.field_store (scope : Scope) (name : String) :
    (Value.ofJson scope.store.toJson).field name = .ok (scope.entry name) :=
  congrArg Except.ok (scope.step?_store (.name name))

namespace Place

variable {place : Place} {keys : List Key} {limits : Limits} {op : AssignOp} {after : Scope}
  {whole new result : Value}

theorem getPath_store (first : Key) (rest : List Key) :
    (Value.ofJson scope.store.toJson).getPath (first :: rest) =
      (scope.entry first.text).getPath rest := by
  rw [Value.getPath_cons, scope.step?_store]

/-- A write that replaces goes through what the root of the place stands for, and leaves there what
it writes, as JSON if it is in the store. -/
theorem write_set_ok (named : scope.NamesStore)
    (wrote : place.write limits keys .set new scope = .ok after) :
    ∃ whole changed, scope.lookup place.root = .ok whole ∧ whole.EveryStep Value.Takes keys ∧
      after.NamesStore ∧ after.lookup place.root = .ok changed ∧
      changed.EveryStep Value.Offers keys ∧
      changed.getPath keys = if isStoreName place.root then new.stored else new := by
  rw [write] at wrote
  split at wrote
  · rename_i store
    obtain ⟨first, rest, _, inner, rfl, combined, placed, wrote⟩ := assignStore_ok wrote
    cases combined
    obtain ⟨_, -, same, -⟩ := Scope.writeStore_ok wrote
    have names : after.NamesStore := by
      rw [same]
      exact ⟨named.locals, named.constants⟩
    have entry : after.entry first.text = inner.stored := by
      rw [same, Scope.entry, Dict.get?_insert, if_pos rfl]
      rfl
    obtain ⟨taken, offered⟩ := Value.everyStep_of_setPath placed
    refine ⟨_, _, named.lookup store, ⟨trivial, ?_⟩, names, names.lookup store,
      ⟨Value.offers_map _ _, ?_⟩, ?_⟩
    · rw [scope.step?_store]
      exact taken
    · rw [after.step?_store, entry]
      exact offered.stored
    · rw [if_pos store, getPath_store, entry, Value.getPath_stored, Value.getPath_setPath placed]
  · rename_i other
    obtain ⟨-, current, _, changed, found, combined, placed, wrote⟩ := assignLocal_ok wrote
    cases combined
    obtain ⟨_, -, same, -⟩ := Scope.writeLocal_ok wrote
    obtain ⟨taken, offered⟩ := Value.everyStep_of_setPath placed
    have here : after.locals.get? place.root = some changed := by
      rw [same, Dict.get?_insert, if_pos rfl]
    refine ⟨current, changed, ?_, taken, ?_, ?_, offered, ?_⟩
    · rw [Scope.lookup, found]
    · rw [same]
      refine ⟨fun name store => ?_, named.constants⟩
      have different : name ≠ place.root := by
        rintro rfl
        exact other store
      rw [Dict.get?_insert, if_neg different]
      exact named.locals name store
    · rw [Scope.lookup, here]
    · rw [if_neg other]
      exact Value.getPath_setPath placed

/-- A compound write is the write of the combination of what was there and what is on the right. -/
theorem write_compound (named : scope.NamesStore)
    (free : isStoreName place.root ≠ true → place.root ∉ scope.constants)
    (stands : scope.lookup place.root = .ok whole)
    (inner : isStoreName place.root = true → keys ≠ []) :
    place.write limits keys op new scope =
      (do place.write limits keys .set (← combine limits op (whole.getPath keys) new) scope) := by
  rw [write]
  split
  · rename_i store
    obtain ⟨first, rest, rfl⟩ := List.exists_cons_of_ne_nil (inner store)
    cases stands.symm.trans (named.lookup store)
    rw [getPath_store]
    simp only [write, if_pos store]
    rw [assignStore]
    cases combine limits op ((scope.entry first.text).getPath rest) new <;> rfl
  · rename_i other
    simp only [write, if_neg other]
    rw [assignLocal, if_neg (free other)]
    cases found : scope.locals.get? place.root with
    | none =>
      rw [Scope.lookup, found] at stands
      simp [other] at stands
    | some current =>
      rw [Scope.lookup, found] at stands
      cases stands
      dsimp only
      cases combine limits op (whole.getPath keys) new with
      | error e => rfl
      | ok result => simp only [assignLocal, if_neg (free other), found]; rfl

/-- If the combination can be written then the compound write is that write. -/
theorem write_of_combine (named : scope.NamesStore)
    (stands : scope.lookup place.root = .ok whole)
    (combined : combine limits op (whole.getPath keys) new = .ok result)
    (wrote : place.write limits keys .set result scope = .ok after) :
    place.write limits keys op new scope = .ok after := by
  have free : isStoreName place.root ≠ true → place.root ∉ scope.constants := by
    intro other
    rw [write, if_neg other] at wrote
    exact (assignLocal_ok wrote).1
  have inner : isStoreName place.root = true → keys ≠ [] := by
    intro store
    rw [write, if_pos store] at wrote
    obtain ⟨first, rest, -, -, rfl, -⟩ := assignStore_ok wrote
    exact List.cons_ne_nil first rest
  rw [write_compound named free stands inner, combined]
  exact wrote

end Place

/-! ## Reading a place -/

/-- A field is read of what its base evaluates to, or of the store. -/
theorem eval_field (setting : Setting) (named : scope.NamesStore) (base : Expr) (name : String) :
    ∃ read : Metered Value,
      eval setting scope (.field base name) = (do tick setting; let v ← read; v.field name) ∧
      (read = eval setting scope base ∨
        ∃ root, base = .ident root ∧ read = liftM (scope.lookup root)) := by
  rw [eval.eq_def]
  dsimp only
  split
  · rename_i root
    split
    · rename_i store
      refine ⟨liftM (scope.lookup root), ?_, .inr ⟨root, rfl, rfl⟩⟩
      rw [named.lookup store]
      change _ = (do tick setting; (Value.ofJson scope.store.toJson).field name : Metered Value)
      rw [scope.field_store]
      rfl
    · exact ⟨_, rfl, .inl rfl⟩
  · exact ⟨_, rfl, .inl rfl⟩

/-- A judgement on computations and values goes along with steps: from what computes a value to what
computes the part of it under a key, where the step gives the key and the value is related to it. -/
structure StepRules (setting : Setting) (scope : Scope) (G : PathStep → Key → Prop)
    (R : Value → Key → Prop) (Q : Metered Value → Value → Prop) : Prop where
  names : ∀ {name key}, G (.field name) key → key = .name name
  known : ∀ v, Q (liftM (.ok v : Except ScriptError Value)) v
  counted : ∀ {x v}, Q x v → Q (do tick setting; x) v
  field : ∀ {x v name}, R v (.name name) → Q x v →
    Q (do let v ← x; v.field name) ((v.step? (.name name)).getD .null)
  index : ∀ {x v e key}, G (.index e) key → R v key → Q x v →
    Q (do let v ← x; let k ← eval setting scope e; v.index k) ((v.step? key).getD .null)

/-- What goes along with steps is judged of the place as an expression and the value at the end of
its path. -/
theorem StepRules.judged {G : PathStep → Key → Prop} {R : Value → Key → Prop}
    {Q : Metered Value → Value → Prop} (rules : StepRules setting scope G R Q) {place : Place}
    {keys : List Key} {whole : Value} (named : scope.NamesStore)
    (stands : scope.lookup place.root = .ok whole) (given : List.Forall₂ G place.path keys)
    (every : whole.EveryStep R keys) : Q (eval setting scope place.expr) (whole.getPath keys) := by
  obtain ⟨root, path⟩ := place
  have start : Q (eval setting scope (.ident root)) whole := by
    rw [eval, stands]
    exact rules.counted (rules.known whole)
  -- The induction goes along the path. A base that is a name stays in view, as the store may be.
  have stays : ∀ name, Expr.ident root = .ident name → scope.lookup name = .ok whole := by
    rintro _ ⟨⟩
    exact stands
  change Q (eval setting scope (path.foldl PathStep.onto (.ident root))) (whole.getPath keys)
  generalize Expr.ident root = base at start stays
  clear stands
  dsimp only at given
  induction given generalizing base whole with
  | nil => exact start
  | @cons step key path keys gives given ih =>
    obtain ⟨related, onward⟩ := every
    rw [Value.getPath_cons]
    refine ih onward _ ?_ ?_
    · cases step with
      | field name =>
        obtain rfl := rules.names gives
        obtain ⟨read, same, reads⟩ := eval_field setting named base name
        rw [PathStep.onto, same]
        refine rules.counted (rules.field related ?_)
        obtain rfl | ⟨root, rfl, rfl⟩ := reads
        · exact start
        · rw [stays root rfl]
          exact rules.known _
      | index e =>
        rw [PathStep.onto, eval]
        exact rules.counted (rules.index gives related start)
    · intro name same
      cases step <;> cases same

end Relay.Script
