import Relay.Proofs.Script.Points
import Relay.Proofs.Script.Charges

/-! # Laws of the meter

The meter of a run moves in three ways: a step is counted, something is noted and time passes. A law
that says where each of them and each failure leads holds of all that a script does, with as many
steps at most as the script has nodes. Operations on values keep no meter and know no time: they
never fail with a timeout.
-/

namespace Relay.Script

/-! ## Operations that know no time -/

/-- The computation does not fail with a timeout. -/
def Untimed {α : Type} (r : Except ScriptError α) : Prop :=
  ∀ ms, r ≠ .error (.timeout ms)

section Untimed

variable {α β : Type}

@[simp] theorem untimed_ok (a : α) : Untimed (.ok a) := nofun

@[simp] theorem untimed_fault (cause : Fault) :
    Untimed (.error (.fault cause) : Except _ α) := nofun

@[simp] theorem untimed_mismatch (cause : Mismatch) :
    Untimed (.error (.mismatch cause) : Except _ α) := nofun

@[simp] theorem untimed_undefinedVariable (name : String) :
    Untimed (.error (.undefinedVariable name) : Except _ α) := nofun

@[simp] theorem untimed_undefinedFunction (name : String) :
    Untimed (.error (.undefinedFunction name) : Except _ α) := nofun

theorem Untimed.bind {x : Except ScriptError α} {f : α → Except ScriptError β} (first : Untimed x)
    (second : ∀ a, Untimed (f a)) : Untimed (x >>= f) := by
  cases x with
  | error e => exact fun ms same => first ms (congrArg Except.error (Except.error.inj same))
  | ok a => exact second a

/-! ### Operators -/

@[simp] theorem untimed_exactInt (n : Int) : Untimed (exactInt n) := by
  rw [exactInt]
  split <;> simp

theorem untimed_applyUnary (op : UnaryOp) (v : Value) : Untimed (applyUnary op v) := by
  rw [applyUnary.eq_def]
  split <;> simp

@[simp] theorem untimed_add (left right : Value) : Untimed (add left right) := by
  rw [add.eq_def]
  split <;> simp

@[simp] theorem untimed_arithmetic (symbol : String) (exact : Int → Int → Int)
    (approximate : Float → Float → Float) (left right : Value) :
    Untimed (arithmetic symbol exact approximate left right) := by
  rw [arithmetic.eq_def]
  split <;> simp

@[simp] theorem untimed_divide (left right : Value) : Untimed (divide left right) := by
  rw [divide.eq_def]
  split
  · split
    · simp
    · split <;> simp
  all_goals try split
  all_goals simp

@[simp] theorem untimed_remainder (left right : Value) : Untimed (remainder left right) := by
  rw [remainder.eq_def]
  split
  · split
    · simp
    · split <;> simp
  · simp

@[simp] theorem untimed_comparison (holds : Ordering → Bool) (left right : Value) :
    Untimed (comparison holds left right) := by
  have order : Untimed (order? left right) := by
    rw [order?.eq_def]
    split <;> simp
  exact order.bind fun _ => untimed_ok _

theorem untimed_applyBinary (op : BinaryOp) (left right : Value) :
    Untimed (applyBinary op left right) := by
  cases op <;> simp [applyBinary]

theorem untimed_measure (limits : Limits) (v : Value) : Untimed (limits.measure v) := by
  simp only [Limits.measure]
  repeat' split
  all_goals first | exact untimed_fault _ | exact untimed_ok _

theorem untimed_accept (limits : Limits) (v : Value) : Untimed (limits.accept v) := by
  have measured := untimed_measure limits v
  rw [Limits.accept]
  split
  · exact untimed_ok v
  · rename_i failed
    rw [failed] at measured
    exact fun ms same => measured ms (congrArg Except.error (Except.error.inj same))

theorem untimed_applyMeasured (limits : Limits) (op : BinaryOp) (left right : Value) :
    Untimed (applyMeasured limits op left right) := by
  refine (untimed_applyBinary op left right).bind fun v => ?_
  split
  · exact untimed_accept limits v
  · exact untimed_ok v

/-! ### Parts of values -/

theorem untimed_position? (v : Value) : Untimed v.position? := by
  rw [Value.position?.eq_def]
  split <;> simp

theorem untimed_field (v : Value) (name : String) : Untimed (v.field name) := by
  rw [Value.field.eq_def]
  split <;> simp

theorem untimed_index (v key : Value) : Untimed (v.index key) := by
  rw [Value.index.eq_def]
  split
  · exact (untimed_position? key).bind fun _ => untimed_ok _
  · exact (untimed_position? key).bind fun _ => untimed_ok _
  · split <;> simp
  · simp

theorem untimed_toKey (v : Value) : Untimed v.toKey := by
  rw [Value.toKey.eq_def]
  split
  · exact untimed_ok _
  · refine (untimed_position? v).bind fun at? => ?_
    cases at? with
    | none => exact untimed_mismatch _
    | some n => exact untimed_ok _

theorem untimed_setPath (target : Value) (path : List Key) (new : Value) :
    Untimed (target.setPath path new) := by
  induction path generalizing target with
  | nil => exact untimed_ok new
  | cons key rest ih =>
    rw [Value.setPath.eq_def]
    dsimp only
    split
    · exact (ih _).bind fun _ => untimed_ok _
    · exact (ih _).bind fun _ => untimed_ok _
    · exact (ih _).bind fun _ => untimed_ok _
    · exact untimed_mismatch _

/-! ### Functions -/

namespace Builtin

variable (f : Builtin)

private theorem untimed_onString (apply : String → Value) (v : Value) :
    Untimed (f.onString apply v) := by
  rw [onString.eq_def]
  split <;> simp

private theorem untimed_onStrings (apply : String → String → Value) (a b : Value) :
    Untimed (f.onStrings apply a b) := by
  rw [onStrings.eq_def]
  split <;> simp

private theorem untimed_applyChoice (secondInt : Int → Int → Bool) (second : Float → Float → Bool)
    (a b : Value) : Untimed (f.applyChoice secondInt second a b) := by
  rw [applyChoice.eq_def]
  split <;> simp

private theorem untimed_applyRounding (apply : Float → Float) (v : Value) :
    Untimed (f.applyRounding apply v) := by
  rw [applyRounding.eq_def]
  split <;> simp

private theorem untimed_unary {run : Value → Except ScriptError Value} (found : f.unary? = some run)
    (v : Value) : Untimed (run v) := by
  cases f <;> cases found
  case len =>
    rw [applyLen.eq_def]
    split <;> simp
  case lower => exact untimed_onString _ _ v
  case upper => exact untimed_onString _ _ v
  case trim => exact untimed_onString _ _ v
  case keys =>
    rw [applyKeys.eq_def]
    split <;> simp
  case abs =>
    rw [applyAbs.eq_def]
    split <;> simp
  case floor => exact untimed_applyRounding _ _ v
  case ceil => exact untimed_applyRounding _ _ v
  case round => exact untimed_applyRounding _ _ v
  case parseJson =>
    rw [applyParseJson.eq_def]
    split
    · split <;> simp
    · simp
  all_goals exact untimed_ok _

private theorem untimed_binary (a b : Value) : Untimed (f.binary a b) := by
  have includes : Untimed (applyIncludes a b) := by
    rw [applyIncludes.eq_def]
    split <;> simp
  cases f
  case startsWith => exact untimed_onStrings _ _ a b
  case endsWith => exact untimed_onStrings _ _ a b
  case split => exact untimed_onStrings _ _ a b
  case join =>
    rw [binary, applyJoin.eq_def]
    split <;> simp
  case min =>
    rw [binary]
    exact untimed_applyChoice min _ _ a b
  case max =>
    rw [binary]
    exact untimed_applyChoice max _ _ a b
  all_goals exact includes

theorem untimed_apply (args : List Value) : Untimed (f.apply args) := by
  rw [apply.eq_def]
  split
  · rename_i found
    exact untimed_unary f found _
  · exact untimed_mismatch _
  · exact untimed_binary f _ _
  · exact untimed_mismatch _

end Builtin

theorem untimed_callFunction (name : String) (args : List Value) :
    Untimed (callFunction name args) := by
  rw [callFunction]
  split
  · exact Builtin.untimed_apply _ args
  · exact untimed_undefinedFunction _

theorem untimed_requestParts (method : String) (args : List Value) :
    Untimed (requestParts method args) := by
  rw [requestParts.eq_def]
  dsimp only
  split
  all_goals try split
  all_goals simp

/-! ### Scopes and writes -/

theorem untimed_lookup (scope : Scope) (name : String) : Untimed (scope.lookup name) := by
  rw [Scope.lookup]
  split
  · exact untimed_ok _
  · split <;> simp

private theorem untimed_acceptScope (limits : Limits) (scope : Scope) :
    Untimed (scope.accept limits) := by
  rw [Scope.accept]
  split <;> simp

theorem untimed_writeLocal (limits : Limits) (scope : Scope) (name : String) (v : Value) :
    Untimed (scope.writeLocal limits name v) :=
  (untimed_measure limits v).bind fun _ => untimed_acceptScope limits _

theorem untimed_writeStore (limits : Limits) (scope : Scope) (key : String) (v : Value) :
    Untimed (scope.writeStore limits key v) :=
  (untimed_measure limits v).bind fun _ => untimed_acceptScope limits _

private theorem untimed_combine (limits : Limits) (op : AssignOp) (old new : Value) :
    Untimed (combine limits op old new) := by
  rw [combine]
  split
  · exact untimed_ok new
  · exact untimed_applyMeasured limits _ old new

theorem untimed_checkPositions (limits : Limits) (keys : List Key) :
    Untimed (checkPositions limits keys) := by
  induction keys with
  | nil => exact untimed_ok ()
  | cons key rest ih =>
    cases key with
    | name s => exact ih
    | position n =>
      rw [checkPositions]
      split
      · exact untimed_fault _
      · exact ih

theorem untimed_assignStore (limits : Limits) (root : String) (keys : List Key) (op : AssignOp)
    (new : Value) (scope : Scope) : Untimed (assignStore limits root keys op new scope) := by
  cases keys with
  | nil => exact untimed_fault _
  | cons first rest =>
    exact (untimed_combine limits op _ new).bind fun _ =>
      (untimed_setPath _ rest _).bind fun _ => untimed_writeStore limits scope _ _

theorem untimed_assignLocal (limits : Limits) (root : String) (keys : List Key) (op : AssignOp)
    (new : Value) (scope : Scope) : Untimed (assignLocal limits root keys op new scope) := by
  rw [assignLocal]
  split
  · exact untimed_fault _
  split
  · exact untimed_undefinedVariable root
  · exact (untimed_combine limits op _ new).bind fun _ =>
      (untimed_setPath _ keys _).bind fun _ => untimed_writeLocal limits scope _ _

theorem untimed_checkDeclared (name : String) (scope : Scope) :
    Untimed (checkDeclared name scope) := by
  rw [checkDeclared]
  split
  · exact untimed_fault _
  · split <;> simp

end Untimed

/-! ## Laws -/

section Moves

variable (setting : Setting) (m : Meter)

theorem tick_eq : tick setting m =
    (if setting.late { m with steps := m.steps + 1 } ∧ (m.steps + 1) % deadlineStride = 0 then
        .error (.timeout setting.limits.timeoutMs)
      else .ok (), { m with steps := m.steps + 1 }) := by
  rw [tick, bind_apply]
  change (if _ then throw _ else pure () : Metered Unit) _ = _
  split <;> rfl

theorem giveWay_eq : giveWay setting m =
    if m.nextYield ≤ m.steps then
      (if setting.cutsOff { m with nextYield := m.steps + yieldStride } then
          .error (.timeout setting.limits.timeoutMs)
        else .ok (), { m with nextYield := m.steps + yieldStride })
    else (.ok (), m) := by
  rw [giveWay, bind_apply]
  change (if _ then _ else pure () : Metered Unit) m = _
  split
  · change (if _ then throw _ else pure () : Metered Unit) _ = _
    split <;> rfl
  · rfl

theorem pass_eq (delay : Nat) : pass setting delay m =
    match setting.cutoff with
    | some cutoff =>
      if cutoff < m.now + delay ∨ setting.spent m then
        (.error (.timeout setting.limits.timeoutMs), { m with now := cutoff })
      else (.ok (), { m with now := m.now + delay })
    | none => (.ok (), { m with now := m.now + delay }) := by
  rw [pass, bind_apply]
  change (match setting.cutoff with | some cutoff => _ | none => _ : Metered Unit) m = _
  cases setting.cutoff with
  | none => rfl
  | some cutoff =>
    change (if cutoff < m.now + delay ∨ setting.spent m then _ else _ : Metered Unit) m = _
    dsimp only
    split <;> rfl

variable {setting m}

/-- A step that finds the deadline passed does so at a time at which that may be. -/
theorem Setting.passed_of_late (late : setting.late m = true) : setting.Passed m.now := by
  unfold Setting.late at late
  unfold Setting.Passed
  cases given : setting.clock with
  | stopped =>
    rw [given] at late
    cases late
  | waiting =>
    rw [given] at late
    exact late
  | running usedUp => trivial

/-- Where steps use up the time, any of them may find the deadline passed. -/
theorem Setting.passed_of_spent (spent : setting.spent m = true) (now : Nat) :
    setting.Passed now := by
  unfold Setting.spent at spent
  unfold Setting.Passed
  cases given : setting.clock with
  | running usedUp => trivial
  | _ =>
    rw [given] at spent
    cases spent

end Moves

/-- The error that a computation ends with, if it fails. -/
def failure? {α : Type} : Except ScriptError α → Option ScriptError
  | .ok _ => none
  | .error e => some e

/-- A law of the meter says where at most so many steps may lead from a meter, and with which error
if they fail. -/
structure MeterLaw (setting : Setting) where
  Leads : Nat → Meter → Option ScriptError → Meter → Prop
  stay : ∀ m, Leads 0 m none m
  fail : ∀ m e, (∀ ms, e ≠ .timeout ms) → Leads 0 m (some e) m
  more : ∀ {n k m e after}, n ≤ k → Leads n m e after → Leads k m e after
  trans : ∀ {n k m between e after}, Leads n m none between → Leads k between e after →
    Leads (n + k) m e after
  tick : ∀ m, Leads 1 m (failure? (tick setting m).1) (tick setting m).2
  giveWay : ∀ m, Leads 0 m (failure? (giveWay setting m).1) (giveWay setting m).2
  note : ∀ event m, Leads 0 m (failure? (note event m).1) (note event m).2
  pass : ∀ delay m, Leads 0 m (failure? (pass setting delay m).1) (pass setting delay m).2

section Obeys

variable {setting : Setting} {law : MeterLaw setting} {σ α β : Type} {meter : σ → Meter}
  {n k : Nat}

/-- Every run of the computation goes by the law and takes at most so many steps. -/
def Obeys (law : MeterLaw setting) (meter : σ → Meter) (n : Nat)
    (x : ExceptT ScriptError (StateM σ) α) : Prop :=
  ∀ st, law.Leads n (meter st) (failure? (x st).1) (meter (x st).2)

theorem Obeys.more {x : ExceptT ScriptError (StateM σ) α} (obeys : Obeys law meter n x)
    (fewer : n ≤ k) : Obeys law meter k x :=
  fun st => law.more fewer (obeys st)

theorem obeys_pure (a : α) : Obeys law meter 0 (pure a) :=
  fun st => law.stay (meter st)

theorem Obeys.bind {x : ExceptT ScriptError (StateM σ) α}
    {f : α → ExceptT ScriptError (StateM σ) β} (first : Obeys law meter n x)
    (second : ∀ a, Obeys law meter k (f a)) : Obeys law meter (n + k) (x >>= f) := by
  intro st
  have led := first st
  rw [bind_apply]
  rcases ran : x st with ⟨e | a, mid⟩
  · rw [ran] at led
    exact law.more (Nat.le_add_right n k) led
  · rw [ran] at led
    exact law.trans led (second a mid)

/-- What a computation does before it goes on without steps. -/
theorem Obeys.then {x : ExceptT ScriptError (StateM σ) α}
    {f : α → ExceptT ScriptError (StateM σ) β} (first : Obeys law meter n x)
    (second : ∀ a, Obeys law meter 0 (f a)) : Obeys law meter n (x >>= f) :=
  first.bind second

theorem obeys_lift {r : Except ScriptError α} (untimed : Untimed r) :
    Obeys law meter 0 (liftM r : ExceptT ScriptError (StateM σ) α) := by
  intro st
  cases r with
  | ok a => exact law.stay (meter st)
  | error e => exact law.fail (meter st) e fun ms same => untimed ms (congrArg Except.error same)

theorem obeys_throw {e : ScriptError} (timely : ∀ ms, e ≠ .timeout ms) :
    Obeys law meter 0 (throw e : ExceptT ScriptError (StateM σ) α) :=
  fun st => law.fail (meter st) e timely

theorem obeys_get : Obeys law meter 0 (get : ExceptT ScriptError (StateM σ) σ) :=
  fun st => law.stay (meter st)

theorem Obeys.reading {f : Scope → Metered α} (obeys : ∀ scope, Obeys law id n (f scope)) :
    Obeys law RunState.meter n (reading f) :=
  fun st => obeys st.scope st.meter

theorem obeys_writing {f : Scope → Except ScriptError Scope}
    (untimed : ∀ scope, Untimed (f scope)) :
    Obeys law RunState.meter 0 (writing f) := by
  intro st
  have timely := untimed st.scope
  rw [writing]
  cases ended : f st.scope with
  | ok scope => exact law.stay st.meter
  | error e =>
    rw [ended] at timely
    exact law.fail st.meter e fun ms same => timely ms (congrArg Except.error same)

/-! ### Expressions -/

theorem obeys_callLogger (method : String) (args : List Value) :
    Obeys law id 0 (callLogger method args) := by
  rw [callLogger]
  split
  · exact Obeys.then (law.note _) fun _ => obeys_pure _
  · exact obeys_throw nofun

theorem obeys_callHttp (method : String) (args : List Value) :
    Obeys law id 0 (callHttp setting method args) := by
  rw [callHttp]
  split
  · exact obeys_throw nofun
  · refine (obeys_lift (untimed_requestParts method args)).then fun ⟨verb, url, body⟩ => ?_
    dsimp only
    split
    · refine obeys_get.then fun m => ?_
      refine Obeys.then (law.note _) fun _ => Obeys.then (law.pass _) fun _ => ?_
      split
      · exact obeys_lift (untimed_accept _ _)
      · exact obeys_throw nofun
    · exact obeys_throw nofun

variable (scope : Scope)

/-- A node is one step, and then what is inside it. -/
theorem obeys_node {x : Metered α} (inside : Obeys law id k x) :
    Obeys law id (Tariff.perNode.node + k) (do tick setting; x) :=
  Obeys.bind law.tick fun _ => inside

theorem obeys_leaf {x : Metered α} (inside : Obeys law id 0 x) :
    Obeys law id Tariff.perNode.node (do tick setting; x) :=
  obeys_node inside

theorem obeys_ident (name : String) :
    Obeys law id Tariff.perNode.node (eval setting scope (.ident name)) := by
  rw [eval]
  exact obeys_leaf (obeys_lift (untimed_lookup scope name))

mutual

theorem obeys_eval (e : Expr) : Obeys law id (e.cost .perNode) (eval setting scope e) := by
  rw [eval.eq_def]
  cases e with
  | null => exact obeys_leaf (obeys_pure _)
  | bool b => exact obeys_leaf (obeys_pure _)
  | int n => exact obeys_leaf (obeys_pure _)
  | float x => exact obeys_leaf (obeys_pure _)
  | string s => exact (obeys_leaf (obeys_pure _)).more (Nat.le_add_right _ _)
  | template holes tail =>
    refine obeys_node ((obeys_evalHoles "" holes).then fun text => ?_)
    exact obeys_lift (untimed_accept _ _)
  | list items =>
    refine obeys_node ((obeys_evalList [] items).then fun values => ?_)
    exact obeys_lift (untimed_accept _ _)
  | map entries =>
    refine obeys_node ((obeys_evalEntries [] entries).then fun values => ?_)
    exact obeys_lift (untimed_accept _ _)
  | ident name => exact eval.eq_def setting scope (.ident name) ▸ obeys_ident scope name
  | field base name =>
    have read (v : Value) : Obeys law id 0 (liftM (v.field name) : Metered Value) :=
      obeys_lift (untimed_field v name)
    refine obeys_node ?_
    dsimp only
    split
    · rename_i root
      split
      · exact (obeys_pure _).more (Nat.zero_le _)
      · exact (obeys_ident scope root).then read
    · exact (obeys_eval base).then read
  | index base key =>
    rw [Expr.cost, Nat.add_assoc]
    refine obeys_node ((obeys_eval base).bind fun v => (obeys_eval key).then fun k => ?_)
    exact obeys_lift (untimed_index v k)
  | unary op operand =>
    refine obeys_node ((obeys_eval operand).then fun v => ?_)
    exact obeys_lift (untimed_applyUnary op v)
  | binary op left right =>
    rw [Expr.cost, Nat.add_assoc]
    refine obeys_node ((obeys_eval left).bind fun l => ?_)
    -- A skipped operand takes no steps, which its nodes bound as well.
    have shortcut : Obeys law id (right.cost .perNode) (pure l) :=
      (obeys_pure l).more (Nat.zero_le _)
    split
    · split
      · exact obeys_eval right
      · exact shortcut
    · split
      · exact shortcut
      · exact obeys_eval right
    · exact (obeys_eval right).then fun r => obeys_lift (untimed_applyMeasured _ _ l r)
  | conditional condition yes no =>
    rw [Expr.cost, Nat.add_assoc, Nat.add_assoc]
    refine obeys_node ((obeys_eval condition).bind fun c => ?_)
    split
    · exact (obeys_eval yes).more (Nat.le_add_right _ _)
    · exact (obeys_eval no).more (Nat.le_add_left _ _)
  | call name args =>
    refine obeys_node ((obeys_evalList [] args).then fun values => ?_)
    refine (obeys_lift (untimed_callFunction name values)).then fun v => ?_
    exact obeys_lift (untimed_accept _ v)
  | invoke capability method args =>
    refine obeys_node ((obeys_evalList [] args).then fun values => ?_)
    cases capability with
    | logger => exact obeys_callLogger method values
    | http => exact obeys_callHttp method values

theorem obeys_evalList (values : List Value) (items : List Expr) :
    Obeys law id (Expr.costItems .perNode items) (evalList setting scope values items) := by
  cases items with
  | nil => exact obeys_pure _
  | cons e rest => exact (obeys_eval e).bind fun v => obeys_evalList (v :: values) rest

theorem obeys_evalEntries (entries : List (String × Value)) (items : List (String × Expr)) :
    Obeys law id (Expr.costEntries .perNode items) (evalEntries setting scope entries items) := by
  cases items with
  | nil => exact obeys_pure _
  | cons entry rest =>
    obtain ⟨key, e⟩ := entry
    exact (obeys_eval e).bind fun v => obeys_evalEntries _ rest

theorem obeys_evalHoles (text : String) (holes : List (String × Expr)) :
    Obeys law id (Expr.costEntries .perNode holes) (evalHoles setting scope text holes) := by
  cases holes with
  | nil => exact obeys_pure _
  | cons hole rest =>
    obtain ⟨before, e⟩ := hole
    exact (obeys_eval e).bind fun v => obeys_evalHoles _ rest

end

/-! ### Statements -/

theorem obeys_evaluate (e : Expr) :
    Obeys law RunState.meter (e.cost .perNode) (evaluate setting e) :=
  Obeys.reading fun scope => obeys_eval scope e

theorem obeys_evaluatePath (keys : List Key) (path : List PathStep) :
    Obeys law RunState.meter (path.map (PathStep.cost .perNode)).sum
      (evaluatePath setting keys path) := by
  induction path generalizing keys with
  | nil => exact obeys_pure _
  | cons step rest ih =>
    rw [List.map_cons, List.sum_cons]
    cases step with
    | field name => exact (ih _).more (Nat.le_add_left _ _)
    | index e =>
      refine (obeys_evaluate e).bind fun v => ?_
      exact ((obeys_lift (untimed_toKey v)).bind fun key => ih _).more
        (Nat.le_of_eq (Nat.zero_add _))

theorem obeys_assign (place : Place) (op : AssignOp) (value : Expr) :
    Obeys law RunState.meter (place.cost .perNode + value.cost .perNode)
      (assign setting place op value) := by
  refine (obeys_evaluatePath [] place.path).bind fun keys => ?_
  have checked : Obeys law RunState.meter 0
      (liftM (checkPositions setting.limits keys) : Running Unit) :=
    obeys_lift (untimed_checkPositions _ keys)
  have written : Obeys law RunState.meter (value.cost .perNode) _ :=
    (obeys_evaluate value).then fun new => obeys_writing fun scope => by
      show Untimed (if isStoreName place.root then
        assignStore setting.limits place.root keys op new scope
        else assignLocal setting.limits place.root keys op new scope)
      split
      · exact untimed_assignStore _ _ keys op new scope
      · exact untimed_assignLocal _ _ keys op new scope
  exact (checked.bind fun _ => written).more (Nat.le_of_eq (Nat.zero_add _))

theorem obeys_declare (constant : Bool) (name : String) (value : Expr) :
    Obeys law RunState.meter (value.cost .perNode) (declare setting constant name value) := by
  have declared (st : RunState) : Obeys law RunState.meter 0
      (liftM (checkDeclared name st.scope) : Running Unit) :=
    obeys_lift (untimed_checkDeclared name st.scope)
  have written : Obeys law RunState.meter (value.cost .perNode) _ :=
    (obeys_evaluate value).then fun v => obeys_writing fun scope =>
      (untimed_writeLocal setting.limits scope name v).bind fun scope => untimed_ok
        (if constant then { scope with constants := name :: scope.constants } else scope)
  refine (obeys_get.bind fun st => (declared st).bind fun _ => written).more ?_
  exact Nat.le_of_eq ((Nat.zero_add _).trans (Nat.zero_add _))

/-- A statement is one step, and then what is inside it. -/
theorem obeys_statement {x : Running α} (inside : Obeys law RunState.meter k x) :
    Obeys law RunState.meter (Tariff.perNode.node + k) (do reading fun _ => tick setting; x) :=
  (Obeys.reading fun _ => law.tick).bind fun _ => inside

mutual

/-- A statement takes at most as many steps as it has nodes. -/
theorem obeys_exec (s : Stmt) :
    Obeys law RunState.meter (s.cost .perNode) (exec setting s) := by
  rw [exec.eq_def]
  cases s with
  | declare constant name value =>
    exact obeys_statement ((obeys_declare constant name value).then fun _ => obeys_pure _)
  | assign place op value =>
    rw [Stmt.cost, Nat.add_assoc]
    exact obeys_statement ((obeys_assign place op value).then fun _ => obeys_pure _)
  | branch condition yes no =>
    rw [Stmt.cost, Nat.add_assoc, Nat.add_assoc]
    refine obeys_statement ((obeys_evaluate condition).bind fun c => ?_)
    split
    · exact (obeys_execList yes).more (Nat.le_add_right _ _)
    · exact (obeys_execList no).more (Nat.le_add_left _ _)
  | ret value =>
    cases value with
    | none => exact obeys_statement (obeys_pure _)
    | some e => exact obeys_statement ((obeys_evaluate e).then fun v => obeys_pure _)
  | block body => exact obeys_statement (obeys_execList body)
  | eval e => exact obeys_statement ((obeys_evaluate e).then fun _ => obeys_pure _)

theorem obeys_execList (body : List Stmt) :
    Obeys law RunState.meter (Stmt.costBody .perNode body) (execList setting body) := by
  cases body with
  | nil => exact obeys_pure _
  | cons s rest =>
    rw [execList, Stmt.costBody, ← Nat.zero_add (s.cost _ + _)]
    refine (Obeys.reading fun _ => law.giveWay).bind fun _ => (obeys_exec s).bind fun control => ?_
    cases control with
    | next => exact obeys_execList rest
    | ret v => exact (obeys_pure _).more (Nat.zero_le _)

end

end Obeys

end Relay.Script
