import Relay.Proofs.Dict
import Relay.Proofs.Script.Accounting
import Relay.Proofs.Script.Charges
import Relay.Proofs.Script.Constants
import Relay.Proofs.Text.Bytes
import Relay.Script.Sandbox

/-! # What a script returns

Values are measured where they are built and where they are written, so all parts of what a script
holds are within the size and the depth that values may have. What a script returns without building
it is a number, a truth value, a string of its text or a part of something that was measured; only
the store as a whole may be greater than each of its entries.
-/

namespace Relay.Script

namespace Value

/-! ## Sizes of parts -/

theorem levels_lt_of_mem_items {items : List Value} {item : Value} (member : item ∈ items) :
    item.levels < (list items).levels := by
  rw [levels]
  induction items with
  | nil => cases member
  | cons first rest ih =>
    rw [levelsItems]
    rcases List.mem_cons.1 member with rfl | later
    · omega
    · have below := ih later
      omega

theorem size_le_of_mem_items {items : List Value} {item : Value} (member : item ∈ items) :
    item.size ≤ (list items).size := by
  rw [size]
  induction items with
  | nil => cases member
  | cons first rest ih =>
    rw [sizeItems]
    rcases List.mem_cons.1 member with rfl | later
    · omega
    · have below := ih later
      omega

theorem levels_lt_of_mem_entries {entries : List (String × Value)} {entry : String × Value}
    (member : entry ∈ entries) : entry.2.levels < (map entries).levels := by
  rw [levels]
  induction entries with
  | nil => cases member
  | cons first rest ih =>
    obtain ⟨key, value⟩ := first
    rw [levelsEntries]
    rcases List.mem_cons.1 member with rfl | later
    · dsimp only
      omega
    · have below := ih later
      omega

theorem size_le_of_mem_entries {entries : List (String × Value)} {entry : String × Value}
    (member : entry ∈ entries) : entry.2.size ≤ (map entries).size := by
  rw [size]
  induction entries with
  | nil => cases member
  | cons first rest ih =>
    obtain ⟨key, value⟩ := first
    rw [sizeEntries]
    rcases List.mem_cons.1 member with rfl | later
    · dsimp only
      omega
    · have below := ih later
      omega

/-- A map nests at most a level deeper than its deepest entry. -/
theorem levels_map_le {entries : List (String × Value)} {bound : Nat}
    (all : ∀ entry ∈ entries, entry.2.levels ≤ bound) : (map entries).levels ≤ bound + 1 := by
  rw [levels]
  induction entries with
  | nil =>
    rw [levelsEntries]
    omega
  | cons first rest ih =>
    obtain ⟨key, value⟩ := first
    obtain ⟨here, later⟩ := List.forall_mem_cons.1 all
    have below := ih later
    rw [levelsEntries]
    dsimp only at here
    omega

end Value

/-! ## Measured values -/

/-- The value is within the size and the depth that values may have. -/
def Limits.Admits (limits : Limits) (v : Value) : Prop :=
  v.levels ≤ Limits.maxDepth ∧ v.size ≤ limits.maxValueBytes

section Admits

variable {limits : Limits} {v : Value}

theorem Limits.measure_bounds {bytes : Nat} (measured : limits.measure v = .ok bytes) :
    bytes ≤ limits.maxValueBytes ∧
      ∀ s, v = .string s → s.utf8ByteSize ≤ limits.maxStringBytes := by
  have size := Limits.measure_ok measured
  simp only [measure, size] at measured
  split at measured
  · rename_i s
    split at measured
    · cases measured
    · rename_i short
      split at measured
      · cases measured
      · rename_i small
        refine ⟨Nat.not_lt.1 small, fun t same => ?_⟩
        cases same
        exact Nat.not_lt.1 short
  · rename_i other
    split at measured
    · cases measured
    · rename_i small
      exact ⟨Nat.not_lt.1 small, fun s same => absurd same (other s)⟩

/-- What is measured is within the limits of values, and of strings if it is one. -/
theorem Limits.measure_ok_iff :
    (∃ bytes, limits.measure v = .ok bytes) ↔
      limits.Admits v ∧ ∀ s, v = .string s → s.utf8ByteSize ≤ limits.maxStringBytes := by
  constructor
  · rintro ⟨bytes, measured⟩
    obtain ⟨shallow, rfl⟩ := Value.footprint_eq_some_iff.1 (Limits.measure_ok measured)
    obtain ⟨small, short⟩ := Limits.measure_bounds measured
    exact ⟨⟨shallow, small⟩, short⟩
  · rintro ⟨⟨shallow, small⟩, short⟩
    exact ⟨_, Limits.measure_of_footprint (Value.footprint_of_levels shallow) short small⟩

theorem Limits.accept_admits {w : Value} (accepted : limits.accept v = .ok w) :
    limits.Admits w := by
  rw [accept] at accepted
  split at accepted
  · rename_i measured
    cases accepted
    exact (Limits.measure_ok_iff.1 ⟨_, measured⟩).1
  · cases accepted

theorem Limits.Admits.item {items : List Value} (admits : limits.Admits (.list items))
    {item : Value} (member : item ∈ items) : limits.Admits item :=
  ⟨Nat.le_of_lt (Nat.lt_of_lt_of_le (Value.levels_lt_of_mem_items member) admits.1),
    Nat.le_trans (Value.size_le_of_mem_items member) admits.2⟩

theorem Limits.Admits.entry {entries : List (String × Value)}
    (admits : limits.Admits (.map entries)) {entry : String × Value} (member : entry ∈ entries) :
    limits.Admits entry.2 :=
  ⟨Nat.le_of_lt (Nat.lt_of_lt_of_le (Value.levels_lt_of_mem_entries member) admits.1),
    Nat.le_trans (Value.size_le_of_mem_entries member) admits.2⟩

end Admits

/-- Every local and every entry of the store is within the limits of values. -/
structure Scope.Tidy (limits : Limits) (scope : Scope) : Prop where
  locals : ∀ name v, scope.locals.get? name = some v → limits.Admits v
  entries : ∀ entry ∈ scope.store.entries, limits.Admits (.ofJson entry.2)

/-- A value that a script may have without building it: a part of something that was measured, or a
number, a truth value or a short string. -/
def Regular (limits : Limits) (bound : Nat) (v : Value) : Prop :=
  limits.Admits v ∨ v.levels = 0 ∧ ∀ s, v = .string s → s.utf8ByteSize ≤ bound

/-- A value that an expression may have in a scope: the store as a whole, or a regular one. -/
def Scope.Allows (limits : Limits) (bound : Nat) (scope : Scope) (v : Value) : Prop :=
  v = .ofJson scope.store.toJson ∨ Regular limits bound v

section Values

variable {limits : Limits} {bound : Nat} {scope : Scope} {v : Value}

theorem regular_null : Regular limits bound .null := .inr ⟨rfl, nofun⟩

theorem regular_bool (b : Bool) : Regular limits bound (.bool b) := .inr ⟨rfl, nofun⟩

theorem regular_int (n : Int64) : Regular limits bound (.int n) := .inr ⟨rfl, nofun⟩

theorem regular_float (x : Float) : Regular limits bound (.float x) := .inr ⟨rfl, nofun⟩

theorem Scope.Allows.items {items : List Value}
    (allows : scope.Allows limits bound (.list items)) : ∀ item ∈ items, limits.Admits item := by
  rcases allows with whole | admits | ⟨flat, -⟩
  · rw [Store.toJson, Value.ofJson] at whole
    cases whole
  · exact fun item member => admits.item member
  · rw [Value.levels] at flat
    omega

/-- The entries of the store are those of the store as a whole. -/
theorem Scope.Allows.entries (tidy : scope.Tidy limits) {entries : List (String × Value)}
    (allows : scope.Allows limits bound (.map entries)) :
    ∀ entry ∈ entries, limits.Admits entry.2 := by
  rcases allows with whole | admits | ⟨flat, -⟩
  · rw [Store.toJson, Value.ofJson, Value.ofJsonFields_eq] at whole
    cases whole
    intro entry member
    obtain ⟨field, found, rfl⟩ := List.mem_map.1 member
    exact tidy.entries field found
  · exact fun entry member => admits.entry member
  · rw [Value.levels] at flat
    omega

private theorem regular_lookup {entries : List (String × Value)}
    (within : ∀ entry ∈ entries, limits.Admits entry.2) (key : String) :
    Regular limits bound ((entries.lookup key).getD .null) := by
  cases found : entries.lookup key with
  | none => exact regular_null
  | some w => exact .inl (within (key, w) (Fields.mem_of_lookup found))

theorem Scope.Tidy.entry (tidy : scope.Tidy limits) (key : String) :
    Regular limits bound (scope.entry key) := by
  rw [Scope.entry]
  split
  · rename_i j found
    exact .inl (tidy.entries (key, j) (Fields.mem_of_lookup found))
  · exact regular_null

theorem regular_field (tidy : scope.Tidy limits) (allows : scope.Allows limits bound v)
    {name : String} {w : Value} (read : v.field name = .ok w) : Regular limits bound w := by
  rw [Value.field.eq_def] at read
  split at read
  · cases read
    exact regular_lookup (allows.entries tidy) name
  · cases read
    split
    · exact regular_int _
    · exact regular_null
  · cases read
    split
    · exact regular_int _
    · exact regular_null
  · cases read
  · cases read
    exact regular_null

/-- A character of a string takes no more than the string. -/
theorem regular_character {s : String} (regular : Regular limits bound (.string s)) {c : Char}
    (member : c ∈ s.toList) : Regular limits bound (.string (String.singleton c)) := by
  have shorter : (String.singleton c).utf8ByteSize ≤ s.utf8ByteSize := by
    rw [Text.utf8ByteSize_eq, Text.utf8ByteSize_eq, String.toList_singleton]
    exact Text.byteSize_le_of_sublist (List.singleton_sublist.2 member)
  rcases regular with ⟨shallow, small⟩ | ⟨flat, short⟩
  · refine .inl ⟨shallow, ?_⟩
    rw [Value.size] at small ⊢
    omega
  · refine .inr ⟨flat, fun t same => ?_⟩
    cases same
    exact Nat.le_trans shorter (short s rfl)

theorem regular_index (tidy : scope.Tidy limits) (allows : scope.Allows limits bound v)
    {key w : Value} (read : v.index key = .ok w) : Regular limits bound w := by
  rw [Value.index.eq_def] at read
  split at read
  · rename_i items
    obtain ⟨at?, -, read⟩ := bind_eq_ok read
    cases read
    cases found : at?.bind (items[·]?) with
    | none => exact regular_null
    | some item =>
      obtain ⟨n, -, there⟩ := Option.bind_eq_some_iff.1 found
      exact .inl (allows.items item (List.mem_of_getElem? there))
  · rename_i s
    -- The store as a whole is a map, so a string is never it.
    have regular : Regular limits bound (.string s) := allows.resolve_left fun whole => by
      rw [Store.toJson, Value.ofJson] at whole
      cases whole
    obtain ⟨at?, -, read⟩ := bind_eq_ok read
    cases read
    cases found : at?.bind (s.toList[·]?) with
    | none => exact regular_null
    | some c =>
      obtain ⟨n, -, there⟩ := Option.bind_eq_some_iff.1 found
      exact regular_character regular (List.mem_of_getElem? there)
  · split at read
    · cases read
      exact regular_lookup (allows.entries tidy) _
    · cases read
      exact regular_lookup (allows.entries tidy) _
    · cases read
      exact regular_lookup (allows.entries tidy) _
    · cases read
  · cases read

end Values

/-! ## Results -/

section Results

variable {σ α β : Type} {P : α → Prop}

/-- Whatever the computation results in has the property. -/
def Results (x : ExceptT ScriptError (StateM σ) α) (P : α → Prop) : Prop :=
  ∀ st a after, x st = (.ok a, after) → P a

theorem results_any (x : ExceptT ScriptError (StateM σ) α) : Results x fun _ => True :=
  fun _ _ _ _ => trivial

theorem results_pure {a : α} (held : P a) :
    Results (pure a : ExceptT ScriptError (StateM σ) α) P := by
  intro st b after ran
  cases ran
  exact held

theorem results_lift {r : Except ScriptError α} (held : ∀ a, r = .ok a → P a) :
    Results (liftM r : ExceptT ScriptError (StateM σ) α) P :=
  fun _ a _ ran => held a (Prod.mk.inj ran).1

theorem results_throw (e : ScriptError) :
    Results (throw e : ExceptT ScriptError (StateM σ) α) P :=
  fun _ _ _ ran => nomatch ran

theorem Results.bind {x : ExceptT ScriptError (StateM σ) β}
    {f : β → ExceptT ScriptError (StateM σ) α} {Q : β → Prop} (first : Results x Q)
    (second : ∀ b, Q b → Results (f b) P) : Results (x >>= f) P := by
  intro st a after ran
  rw [bind_apply] at ran
  rcases went : x st with ⟨e | b, mid⟩
  · rw [went] at ran
    cases ran
  · rw [went] at ran
    exact second b (first st b mid went) mid a after ran

/-- What is computed before does not matter if it is not used. -/
theorem Results.after {x : ExceptT ScriptError (StateM σ) β}
    {f : β → ExceptT ScriptError (StateM σ) α} (next : ∀ b, Results (f b) P) :
    Results (x >>= f) P :=
  (results_any x).bind fun b _ => next b

end Results

/-! ## Expressions -/

section Expressions

variable {setting : Setting} {scope : Scope} {bound : Nat}

private theorem allows_accept (v : Value) :
    Results (liftM (setting.limits.accept v) : Metered Value) (scope.Allows setting.limits bound) :=
  results_lift fun _ accepted => .inr (.inl (Limits.accept_admits accepted))

private theorem allows_regular {v : Value} (regular : Regular setting.limits bound v) :
    Results (pure v : Metered Value) (scope.Allows setting.limits bound) :=
  results_pure (.inr regular)

private theorem regular_exactInt {limits : Limits} {n : Int} {w : Value}
    (exact_ : exactInt n = .ok w) : Regular limits bound w := by
  rw [exactInt] at exact_
  split at exact_
  · cases exact_
    exact regular_int _
  · cases exact_

theorem regular_applyUnary {limits : Limits} {op : UnaryOp} {v w : Value}
    (applied : applyUnary op v = .ok w) : Regular limits bound w := by
  rw [applyUnary.eq_def] at applied
  split at applied
  · cases applied
    exact regular_bool _
  · exact regular_exactInt applied
  · cases applied
    exact regular_float _
  · cases applied

private theorem regular_arithmetic {limits : Limits} {symbol : String} {exact_ : Int → Int → Int}
    {approximate : Float → Float → Float} {v w out : Value}
    (applied : arithmetic symbol exact_ approximate v w = .ok out) : Regular limits bound out := by
  rw [arithmetic.eq_def] at applied
  split at applied
  · exact regular_exactInt applied
  all_goals cases applied
  all_goals exact regular_float _

private theorem regular_divide {limits : Limits} {v w out : Value}
    (applied : divide v w = .ok out) : Regular limits bound out := by
  rw [divide.eq_def] at applied
  split at applied
  · split at applied
    · cases applied
    split at applied
    · exact regular_exactInt applied
    · cases applied
      exact regular_float _
  all_goals try split at applied
  all_goals cases applied
  all_goals exact regular_float _

private theorem regular_remainder {limits : Limits} {v w out : Value}
    (applied : remainder v w = .ok out) : Regular limits bound out := by
  rw [remainder.eq_def] at applied
  split at applied
  · split at applied
    · cases applied
    split at applied
    · exact regular_exactInt applied
    · cases applied
  · cases applied

private theorem regular_comparison {limits : Limits} {holds : Ordering → Bool} {v w out : Value}
    (applied : comparison holds v w = .ok out) : Regular limits bound out := by
  obtain ⟨order, -, applied⟩ := bind_eq_ok applied
  cases applied
  exact regular_bool _

/-- An addition is measured, and no other operator makes a string, a list or a map. -/
theorem regular_applyMeasured {limits : Limits} {op : BinaryOp} {v w out : Value}
    (arithmetical : op ≠ .and ∧ op ≠ .or) (applied : applyMeasured limits op v w = .ok out) :
    Regular limits bound out := by
  obtain ⟨result, computed, applied⟩ := bind_eq_ok applied
  cases op
  case add => exact .inl (Limits.accept_admits applied)
  case and => exact absurd rfl arithmetical.1
  case or => exact absurd rfl arithmetical.2
  all_goals cases applied
  case sub => exact regular_arithmetic computed
  case mul => exact regular_arithmetic computed
  case div => exact regular_divide computed
  case rem => exact regular_remainder computed
  case eq =>
    cases computed
    exact regular_bool _
  case ne =>
    cases computed
    exact regular_bool _
  all_goals exact regular_comparison computed

theorem allows_lookup (tidy : scope.Tidy setting.limits) (name : String) :
    Results (liftM (scope.lookup name) : Metered Value) (scope.Allows setting.limits bound) := by
  refine results_lift fun v found => ?_
  rw [Scope.lookup] at found
  split at found
  · rename_i w there
    cases found
    exact .inr (.inl (tidy.locals name _ there))
  · split at found
    · cases found
      exact .inl rfl
    · cases found

theorem allows_callLogger (method : String) (args : List Value) :
    Results (callLogger method args) (scope.Allows setting.limits bound) := by
  rw [callLogger]
  split
  · exact .after fun _ => allows_regular regular_null
  · exact results_throw _

theorem allows_callHttp (method : String) (args : List Value) :
    Results (callHttp setting method args) (scope.Allows setting.limits bound) := by
  rw [callHttp]
  split
  · exact results_throw _
  · refine .after fun ⟨verb, url, body⟩ => ?_
    dsimp only
    split
    · refine .after fun _ => .after fun _ => .after fun _ => ?_
      split
      · exact allows_accept _
      · exact results_throw _
    · exact results_throw _

/-- Whatever an expression results in is the store as a whole or regular, where the strings of the
expression are not longer than the bound. -/
theorem allows_eval (tidy : scope.Tidy setting.limits) (e : Expr)
    (short : e.cost .perByte ≤ bound) :
    Results (eval setting scope e) (scope.Allows setting.limits bound) := by
  have field {v : Value} (allows : scope.Allows setting.limits bound v) (name : String) :
      Results (liftM (v.field name) : Metered Value) (scope.Allows setting.limits bound) :=
    results_lift fun w read => .inr (regular_field tidy allows read)
  rw [eval.eq_def]
  refine .after fun _ => ?_
  cases e with
  | null => exact allows_regular regular_null
  | bool b => exact allows_regular (regular_bool b)
  | int n => exact allows_regular (regular_int n)
  | float x => exact allows_regular (regular_float x)
  | string s =>
    refine allows_regular (.inr ⟨rfl, fun t same => ?_⟩)
    cases same
    rw [Text.utf8ByteSize_eq]
    exact Nat.le_trans (Nat.le_add_left _ _) short
  | template holes tail => exact .after fun _ => allows_accept _
  | list items => exact .after fun _ => allows_accept _
  | map entries => exact .after fun _ => allows_accept _
  | ident name => exact allows_lookup tidy name
  | field base name =>
    rw [Expr.cost] at short
    have inside := allows_eval tidy base (Nat.le_of_add_left_le short)
    dsimp only
    split
    · split
      · exact allows_regular (tidy.entry name)
      · exact inside.bind fun v allows => field allows name
    · exact inside.bind fun v allows => field allows name
  | index base key =>
    rw [Expr.cost] at short
    refine (allows_eval tidy base (by omega)).bind fun v allows => .after fun k => ?_
    exact results_lift fun w read => .inr (regular_index tidy allows read)
  | unary op operand =>
    exact .after fun v => results_lift fun w applied => .inr (regular_applyUnary applied)
  | binary op left right =>
    rw [Expr.cost] at short
    refine (allows_eval tidy left (by omega)).bind fun l allows => ?_
    have second := allows_eval tidy right (by omega)
    split
    · split
      · exact second
      · exact results_pure allows
    · split
      · exact results_pure allows
      · exact second
    · rename_i noAnd noOr
      exact .after fun r => results_lift fun w applied =>
        .inr (regular_applyMeasured ⟨noAnd, noOr⟩ applied)
  | conditional condition yes no =>
    rw [Expr.cost] at short
    refine .after fun c => ?_
    split
    · exact allows_eval tidy yes (by omega)
    · exact allows_eval tidy no (by omega)
  | call name args => exact .after fun _ => .after fun _ => allows_accept _
  | invoke capability method args =>
    refine .after fun values => ?_
    cases capability with
    | logger => exact allows_callLogger method values
    | http => exact allows_callHttp method values

end Expressions

/-! ## Runs -/

section Runs

open Running

variable {setting : Setting} {limits : Limits} {bound : Nat} {scope after : Scope} {p q : Point}

theorem Limits.Admits.stored {v : Value} (admits : limits.Admits v) : limits.Admits v.stored := by
  have sized := (Value.footprint_stored _ v).trans (Value.footprint_of_levels admits.1)
  obtain ⟨shallow, same⟩ := Value.footprint_eq_some_iff.1 sized
  exact ⟨shallow, same ▸ admits.2⟩

theorem Scope.Tidy.writeLocal (tidy : scope.Tidy limits) {name : String} {v : Value}
    (wrote : scope.writeLocal limits name v = .ok after) : after.Tidy limits := by
  obtain ⟨bytes, measured, accepted⟩ := bind_eq_ok wrote
  obtain ⟨rfl, -⟩ := Scope.accept_ok accepted
  refine ⟨fun other w found => ?_, tidy.entries⟩
  rw [Dict.get?_insert] at found
  split at found
  · cases found
    exact (Limits.measure_ok_iff.1 ⟨bytes, measured⟩).1
  · exact tidy.locals other w found

theorem Scope.Tidy.writeStore (tidy : scope.Tidy limits) {key : String} {v : Value}
    (wrote : scope.writeStore limits key v = .ok after) : after.Tidy limits := by
  obtain ⟨bytes, measured, accepted⟩ := bind_eq_ok wrote
  obtain ⟨rfl, -⟩ := Scope.accept_ok accepted
  refine ⟨tidy.locals, fun entry member => ?_⟩
  rcases Fields.mem_insert member with rfl | before
  · exact (Limits.measure_ok_iff.1 ⟨bytes, measured⟩).1.stored
  · exact tidy.entries entry before

theorem Point.tidy_next? (tidy : p.state.scope.Tidy setting.limits)
    (moved : p.next? setting = some q) : q.state.scope.Tidy setting.limits := by
  rcases scope_next? moved with
    same | ⟨name, v, scope, constants, -, -, wrote, same, -⟩ | ⟨key, v, wrote⟩
  · exact same ▸ tidy
  · have held := tidy.writeLocal wrote
    exact same ▸ ⟨held.locals, held.entries⟩
  · exact tidy.writeStore wrote

/-- What a statement opens costs no more than the statement. -/
theorem costBody_opening_le (t : Tariff) {s : Stmt} {opening : Running (List Stmt)}
    (opens : s.opening? setting = some opening) {st mid : RunState} {body : List Stmt}
    (opened : opening st = (.ok body, mid)) : Stmt.costBody t body ≤ s.cost t := by
  cases s with
  | block inner =>
    cases opens
    obtain ⟨_, _, _, opened⟩ := bind_ok opened
    cases opened
    exact Nat.le_add_left _ _
  | branch condition yes no =>
    cases opens
    obtain ⟨_, _, _, opened⟩ := bind_ok opened
    obtain ⟨c, _, _, opened⟩ := bind_ok opened
    cases opened
    rw [Stmt.cost]
    split <;> omega
  | _ => cases opens

/-- What is ahead of a run never costs more than before. -/
theorem Point.cost_next? (t : Tariff) (moved : p.next? setting = some q) :
    Stmt.costBody t q.pending ≤ Stmt.costBody t p.pending := by
  obtain ⟨s, rest, ready, pending, -, -, next⟩ := next?_cases moved
  rw [pending, Stmt.costBody]
  rcases next with ⟨opening, body, opens, opened, ahead, -⟩ | ⟨-, -, ahead, -⟩
  · have inside := costBody_opening_le t opens opened
    rw [ahead, Stmt.costBody_eq, List.map_append, List.sum_append, ← Stmt.costBody_eq,
      ← Stmt.costBody_eq]
    omega
  · rw [ahead]
    exact Nat.le_add_left _ _

/-- A run that succeeds ends behind the last statement or with a return. -/
theorem Point.returned (ended : p.next? setting = none) {control : Control} {after : RunState}
    (ran : execList setting p.pending p.state = (.ok control, after)) :
    control = .next ∨ ∃ value rest v ready, p.pending = .ret value :: rest ∧ control = .ret v ∧
      ready.scope = p.state.scope ∧ exec setting (.ret value) ready = (.ok (.ret v), after) := by
  rcases next?_none_cases ended with
    none_ | ⟨s, rest, pending, ⟨e, left, cut⟩ | ⟨ready, gave, last⟩⟩
  · rw [none_] at ran
    cases ran
    exact .inl rfl
  · rw [pending, execList_cons, cut] at ran
    cases ran
  rw [pending, execList_cons, gave] at ran
  dsimp only at ran
  rcases last with ⟨opening, e, left, opens, failed⟩ | ⟨plain, last⟩
  · rw [exec_of_opening? opens, bind_apply, failed] at ran
    cases ran
  rcases once : exec setting s ready with ⟨e | control, mid⟩
  · rw [once] at ran
    cases ran
  rw [once] at last
  cases control with
  | next => exact absurd rfl last
  | ret v =>
    rw [once] at ran
    cases ran
    -- Of the statements without a body only a return does not go on to the next one.
    refine .inr ?_
    cases s with
    | ret value =>
      exact ⟨value, rest, v, ready, pending, rfl, (steady_reading _).scope_eq gave, once⟩
    | branch condition yes no => cases plain
    | block body => cases plain
    | declare constant name value => cases control_of_binds rfl once
    | assign place op value => cases control_of_binds rfl once
    | eval e =>
      rw [exec] at once
      obtain ⟨_, _, _, once⟩ := bind_ok once
      obtain ⟨_, _, _, once⟩ := bind_ok once
      cases once

theorem Point.kept_after? {n : Nat} (tidy : p.state.scope.Tidy setting.limits) (t : Tariff)
    (reached : p.after? setting n = some q) :
    q.state.scope.Tidy setting.limits ∧
      Stmt.costBody t q.pending ≤ Stmt.costBody t p.pending := by
  induction n generalizing p with
  | zero =>
    cases reached
    exact ⟨tidy, Nat.le_refl _⟩
  | succ n ih =>
    obtain ⟨next, moved, reached⟩ := Option.bind_eq_some_iff.1 reached
    obtain ⟨held, cheaper⟩ := ih (tidy_next? tidy moved) reached
    exact ⟨held, Nat.le_trans cheaper (cost_next? t moved)⟩

/-- What a program returns is the store as a whole at its end, or regular. -/
theorem runProgram_allows (setting : Setting) {program : Program} {store : Store}
    (short : Stmt.costBody .perByte program ≤ bound)
    (entries : ∀ entry ∈ store.entries, setting.limits.Admits (.ofJson entry.2)) :
    ∃ scope : Scope, (runProgram setting program store).store = scope.store ∧
      scope.Tidy setting.limits ∧
      ∀ v, (runProgram setting program store).result = .ok (.ret v) →
        scope.Allows setting.limits bound v := by
  have tidy : (Point.start program store).state.scope.Tidy setting.limits := ⟨nofun, entries⟩
  obtain ⟨n, last, reached, ended, same⟩ := Point.exists_last setting (.start program store)
  obtain ⟨held, cheaper⟩ := Point.kept_after? tidy .perByte reached
  refine ⟨last.state.scope, congrArg Scope.store same, held, fun v returned => ?_⟩
  have whole : execList setting last.pending last.state = (.ok (.ret v), _) :=
    Prod.ext ((congrArg Prod.fst (Point.execList_after? reached)).symm.trans returned) rfl
  rcases Point.returned ended whole with next | ⟨value, rest, w, ready, pending, control, same, ran⟩
  · cases next
  cases control
  rw [pending, Stmt.costBody] at cheaper
  cases value with
  | none =>
    rw [exec] at ran
    obtain ⟨_, _, _, ran⟩ := bind_ok ran
    cases ran
    exact .inr regular_null
  | some e =>
    rw [Stmt.cost] at cheaper
    rw [exec] at ran
    obtain ⟨_, ticked, counted, ran⟩ := bind_ok ran
    obtain ⟨w, after, evaluated, ran⟩ := bind_ok ran
    cases ran
    have result : (eval setting last.state.scope e ticked.meter).1 = .ok v := by
      rw [← same, ← (steady_reading _).scope_eq counted]
      exact congrArg Prod.fst evaluated
    have within : e.cost .perByte ≤ bound :=
      Nat.le_trans (Nat.le_trans (by omega) cheaper) short
    exact allows_eval held e within ticked.meter v _ (Prod.ext result rfl)

end Runs

/-- The value that a program results in: null if it just ends. -/
def Control.value : Control → Value
  | next => .null
  | ret v => v

/-- The bytes of a text pay for its strings. -/
theorem costBody_le_utf8ByteSize {limit : Nat} {source : String} {program : Program}
    (parsed : parseProgram limit source = .ok program) :
    Stmt.costBody .perByte program ≤ source.utf8ByteSize := by
  rw [Text.utf8ByteSize_eq]
  exact costBody_le_total .perByte parsed

/-- A regular value passes the measure, or it is no list or map and not too long. -/
theorem Regular.measured {limits : Limits} {bound : Nat} {v : Value}
    (regular : Regular limits bound v) :
    (∃ size, limits.measure v = .ok size) ∨
      v.levels = 0 ∧ ∀ s, v = .string s → s.utf8ByteSize ≤ max bound limits.maxValueBytes := by
  rcases regular with admits | ⟨flat, short⟩
  · by_cases text : ∃ s, v = .string s
    · obtain ⟨s, rfl⟩ := text
      refine .inr ⟨rfl, fun t same => ?_⟩
      cases same
      have small := admits.2
      rw [Value.size] at small
      omega
    · exact .inl (Limits.measure_ok_iff.2 ⟨admits, fun s same => absurd ⟨s, same⟩ text⟩)
  · exact .inr ⟨flat, fun s same => Nat.le_trans (short s same) (Nat.le_max_left _ _)⟩

/-- A store whose entries are within the limits of values nests at most one level deeper. -/
theorem Scope.Tidy.levels_store {limits : Limits} {scope : Scope} (tidy : scope.Tidy limits) :
    (Value.ofJson scope.store.toJson).levels ≤ Limits.maxDepth + 1 := by
  rw [Store.toJson, Value.ofJson, Value.ofJsonFields_eq]
  refine Value.levels_map_le fun entry member => ?_
  obtain ⟨field, found, rfl⟩ := List.mem_map.1 member
  exact (tidy.entries field found).1

/-- If the store as one map is measured before, then so is the value that a script results in, with
two exceptions: a value that is no list or map, where a string is no longer than the text of the
script or what fits a value, and the store as a whole, which may nest one level deeper and be
greater than each of its entries. -/
theorem Host.run_result (host : Host) (limits : Limits) (source : String) (store : Store)
    {bytes : Nat} (measured : limits.measure (.ofJson store.toJson) = .ok bytes) {j : Json}
    (ran : (host.run limits source store).result = .ok j) :
    ∃ program control, parseProgram limits.maxNesting source = .ok program ∧
      (runProgram (host.setting limits) program store).result = .ok control ∧
      j = control.value.toJson ∧
      ((∃ size, limits.measure control.value = .ok size) ∨
        (control.value.levels = 0 ∧ ∀ s, control.value = .string s →
          s.utf8ByteSize ≤ max source.utf8ByteSize limits.maxValueBytes) ∨
        (control.value = .ofJson (host.run limits source store).store.toJson ∧
          control.value.levels ≤ Limits.maxDepth + 1 ∧
          ∀ entry ∈ (host.run limits source store).store.entries,
            limits.Admits (.ofJson entry.2))) := by
  have admits := (Limits.measure_ok_iff.1 ⟨bytes, measured⟩).1
  rw [Store.toJson, Value.ofJson, Value.ofJsonFields_eq] at admits
  have entries (entry) (member : entry ∈ store.entries) : limits.Admits (.ofJson entry.2) :=
    admits.entry (List.mem_map_of_mem (f := fun entry => (entry.1, Value.ofJson entry.2)) member)
  rw [Host.run] at ran ⊢
  split at ran
  · cases ran
  rename_i short
  rw [if_neg short]
  split at ran
  · cases ran
  rename_i program parsed
  obtain ⟨scope, same, tidy, allows⟩ :=
    runProgram_allows (host.setting limits) (costBody_le_utf8ByteSize parsed) entries
  change Except.map _ (runProgram (host.setting limits) program store).result = _ at ran
  cases ended : (runProgram (host.setting limits) program store).result with
  | error e =>
    rw [ended] at ran
    cases ran
  | ok control =>
    rw [ended] at ran
    cases ran
    refine ⟨program, control, parsed, ended, ?_, ?_⟩
    · cases control <;> rfl
    have regular_or : scope.Allows limits source.utf8ByteSize control.value := by
      cases control with
      | next => exact .inr regular_null
      | ret v => exact allows v ended
    rcases regular_or with whole | regular
    · refine .inr (.inr ?_)
      dsimp only
      rw [same, whole]
      exact ⟨rfl, tidy.levels_store, tidy.entries⟩
    · exact regular.measured.imp_right .inl

/-- The items of the list that a run has returned. -/
private def list? : Except ScriptError Json → Option (List Json)
  | .ok (.array items) => some items
  | _ => none

/-- The string that a run has returned. -/
private def text? : Except ScriptError Json → Option String
  | .ok (.string s) => some s
  | _ => none

/-- A list is written and returned; the string in it is longer than what a script may build. -/
theorem Host.run_result_parcel :
    let limits : Limits := { maxStringBytes := 1, maxNesting := 8 }
    let store : Store := Dict.ofList [("a", .string "parcel")]
    (∃ bytes, limits.measure (.ofJson store.toJson) = .ok bytes) ∧
      ∃ v size, (Host.run {} limits "ctx.b=[ctx.a];return ctx.b" store).result = .ok v.toJson ∧
        limits.measure v = .ok size := by
  intro limits store
  have measured : limits.measure (.ofJson store.toJson) = .ok 71 := by rfl
  have list : (list? (Host.run {} limits "ctx.b=[ctx.a];return ctx.b" store).result).isSome := by
    decide +kernel
  refine ⟨⟨71, measured⟩, ?_⟩
  unfold list? at list
  split at list
  · rename_i items ran
    obtain ⟨program, control, -, -, same, cases⟩ := Host.run_result _ _ _ _ measured ran
    generalize control.value = v at same cases
    cases v with
    | list values =>
      rcases cases with ⟨size, passed⟩ | ⟨flat, -⟩ | ⟨whole, -⟩
      · exact ⟨_, size, ran.trans (congrArg Except.ok same), passed⟩
      · rw [Value.levels] at flat
        omega
      · rw [Store.toJson, Value.ofJson] at whole
        cases whole
    | float x =>
      rw [Value.toJson] at same
      split at same <;> cases same
    | _ => cases same
  · cases list

/-- A string of the text of a script is returned, though it is longer than strings may be. -/
theorem not_measure_result :
    let limits : Limits := { maxStringBytes := 1, maxNesting := 8 }
    limits.flaw? = none ∧
      (∃ bytes, limits.measure (.ofJson (Store.toJson Dict.empty)) = .ok bytes) ∧
      (Host.run {} limits "return \"ab\"" Dict.empty).result = .ok (Value.toJson (.string "ab")) ∧
      limits.measure (.string "ab") = .error (.fault (.stringTooLong 2 1)) := by
  intro limits
  have text : text? (Host.run {} limits "return \"ab\"" Dict.empty).result = some "ab" := by
    decide +kernel
  refine ⟨rfl, ⟨32, rfl⟩, ?_, rfl⟩
  unfold text? at text
  split at text
  · rename_i s ran
    rw [ran, Option.some.inj text, Value.toJson]
  · cases text

end Relay.Script
