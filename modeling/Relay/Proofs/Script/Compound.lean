import Relay.Proofs.Script.Arithmetic
import Relay.Proofs.Script.Metering

/-! # Compound assignments

A compound assignment finds the old value of its place by the keys of its path, after it has
evaluated the right-hand side. Written out, the old value is an operand before the right-hand side,
and the indices of the place are evaluated once more to read it. Where the answer to a request
depends on the request alone, an expression that succeeds has the same value whenever it succeeds,
and succeeds at every earlier time. So a compound assignment does what it does when it is written
out, `exec_compound`.
-/

namespace Relay.Script

open Running

variable {setting : Setting} {α β : Type}

/-! ## Computations at two times -/

/-- The answer to a request depends on the request alone, and not on what was seen before it. -/
def Setting.Memoryless (setting : Setting) : Prop :=
  ∀ answer, setting.http = some answer → ∀ before other call, answer before call = answer other call

/-- Whenever the computation succeeds it gives the same value and takes as long, and if it has come
to an end before the deadline, it does so from every earlier time. -/
structure Repeatable (setting : Setting) (x : Metered α) : Prop where
  forward : ∀ {m a after}, x m = (.ok a, after) → m.now ≤ after.now
  same : ∀ {m a after n b ended}, x m = (.ok a, after) → x n = (.ok b, ended) →
    b = a ∧ ended.now + m.now = n.now + after.now
  again : ∀ {m a after n}, x m = (.ok a, after) → ¬ setting.Passed after.now → n.now ≤ m.now →
    ∃ ended, x n = (.ok a, ended)

theorem Setting.Passed.later {early late : Nat} (passed : setting.Passed early)
    (order : early ≤ late) : setting.Passed late := by
  unfold Setting.Passed at passed ⊢
  split at passed
  · exact passed
  · unfold Setting.expired at passed ⊢
    cases given : setting.cutoff with
    | none =>
      rw [given] at passed
      cases passed
    | some cutoff =>
      rw [given] at passed
      exact decide_eq_true (Nat.le_trans (of_decide_eq_true passed) order)
  · trivial

theorem repeatable_lift (r : Except ScriptError α) : Repeatable setting (liftM r) where
  forward := by
    rintro m a after ⟨⟩
    exact Nat.le_refl _
  same := by
    rintro m a after n b ended ran ran'
    cases ran
    cases ran'
    exact ⟨rfl, rfl⟩
  again := by
    rintro m a after n ⟨⟩ - -
    exact ⟨n, rfl⟩

theorem repeatable_pure (a : α) : Repeatable setting (pure a) :=
  repeatable_lift (.ok a)

theorem repeatable_throw (e : ScriptError) : Repeatable setting (throw e : Metered α) :=
  repeatable_lift (.error e)

theorem repeatable_tick : Repeatable setting (tick setting) where
  forward := by
    intro m a after ran
    rw [tick_eq] at ran
    cases (Prod.mk.inj ran).2
    exact Nat.le_refl _
  same := by
    intro m a after n b ended ran ran'
    rw [tick_eq] at ran ran'
    cases (Prod.mk.inj ran).2
    cases (Prod.mk.inj ran').2
    exact ⟨rfl, rfl⟩
  again := by
    intro m a after n ran early order
    rw [tick_eq] at ran
    cases (Prod.mk.inj ran).2
    rw [tick_eq, if_neg]
    · exact ⟨_, rfl⟩
    · rintro ⟨late, -⟩
      have passed := Setting.passed_of_late late
      exact early (passed.later order)

theorem repeatable_note (event : Event) : Repeatable setting (note event) where
  forward := by
    rintro m a after ⟨⟩
    exact Nat.le_refl _
  same := by
    rintro m a after n b ended ⟨⟩ ⟨⟩
    exact ⟨rfl, rfl⟩
  again := by
    rintro m a after n ⟨⟩ - -
    exact ⟨_, rfl⟩

/-- A wait that succeeds ends after the delay, for which there is enough time. -/
theorem pass_ok_iff {delay : Nat} {m after : Meter} :
    pass setting delay m = (.ok (), after) ↔
      (∀ cutoff, setting.cutoff = some cutoff →
          m.now + delay ≤ cutoff ∧ setting.spent m = false) ∧
        after = { m with now := m.now + delay } := by
  rw [pass_eq]
  cases setting.cutoff with
  | none =>
    constructor
    · rintro ⟨⟩
      exact ⟨nofun, rfl⟩
    · rintro ⟨-, rfl⟩
      rfl
  | some cutoff =>
    dsimp only
    split
    · rename_i beyond
      refine iff_of_false nofun fun ended => ?_
      obtain ⟨due, unspent⟩ := ended.1 cutoff rfl
      exact beyond.elim (Nat.not_lt.2 due) (Bool.eq_false_iff.1 unspent)
    · rename_i due
      constructor
      · rintro ⟨⟩
        refine ⟨?_, rfl⟩
        rintro _ ⟨⟩
        obtain ⟨early, unspent⟩ := not_or.1 due
        exact ⟨Nat.not_lt.1 early, Bool.eq_false_iff.2 unspent⟩
      · rintro ⟨-, rfl⟩
        rfl

theorem repeatable_pass (delay : Nat) : Repeatable setting (pass setting delay) where
  forward := by
    intro m a after ran
    obtain ⟨-, rfl⟩ := pass_ok_iff.1 ran
    exact Nat.le_add_right _ _
  same := by
    intro m a after n b ended ran ran'
    obtain ⟨-, rfl⟩ := pass_ok_iff.1 ran
    obtain ⟨-, rfl⟩ := pass_ok_iff.1 ran'
    refine ⟨rfl, ?_⟩
    dsimp only
    omega
  again := by
    intro m a after n ran early order
    obtain ⟨due, -⟩ := pass_ok_iff.1 ran
    refine ⟨_, pass_ok_iff.2 ⟨fun cutoff given => ⟨?_, ?_⟩, rfl⟩⟩
    · have latest := (due cutoff given).1
      omega
    · exact Bool.eq_false_iff.2 fun spent => early (Setting.passed_of_spent spent _)

theorem Repeatable.bind {x : Metered α} {f : α → Metered β} (first : Repeatable setting x)
    (second : ∀ a, Repeatable setting (f a)) : Repeatable setting (x >>= f) where
  forward := by
    intro m b after ran
    obtain ⟨a, mid, ran, ran'⟩ := bind_apply_ok ran
    exact Nat.le_trans (first.forward ran) ((second a).forward ran')
  same := by
    intro m b after n c ended ran other
    obtain ⟨a, mid, ran, ran'⟩ := bind_apply_ok ran
    obtain ⟨a', between, other, other'⟩ := bind_apply_ok other
    obtain ⟨rfl, took⟩ := first.same ran other
    obtain ⟨rfl, took'⟩ := (second a').same ran' other'
    exact ⟨rfl, by omega⟩
  again := by
    intro m b after n ran early order
    obtain ⟨a, mid, ran, ran'⟩ := bind_apply_ok ran
    have between : mid.now ≤ after.now := (second a).forward ran'
    obtain ⟨mid', other⟩ := first.again ran (fun late => early (late.later between)) order
    -- The first part takes as long as it did, so the second part begins no later than it did.
    obtain ⟨-, took⟩ := first.same ran other
    obtain ⟨ended, other'⟩ := (second a).again ran' early (show mid'.now ≤ mid.now by omega)
    rw [bind_apply, other]
    exact ⟨ended, other'⟩

/-- What does not depend on the meter may be made from it. -/
theorem repeatable_get {f : Meter → Metered α} (forgets : ∀ m n, f m = f n)
    (each : ∀ m, Repeatable setting (f m)) : Repeatable setting (get >>= f) := by
  have constant : (get >>= f) = f {} := by
    funext m
    exact congrFun (forgets m _) m
  rw [constant]
  exact each _

/-! ## Expressions -/

theorem repeatable_callLogger (method : String) (args : List Value) :
    Repeatable setting (callLogger method args) := by
  rw [callLogger]
  split
  · exact (repeatable_note _).bind fun _ => repeatable_pure _
  · exact repeatable_throw _

theorem repeatable_callHttp (memoryless : setting.Memoryless) (method : String)
    (args : List Value) : Repeatable setting (callHttp setting method args) := by
  rw [callHttp]
  split
  · exact repeatable_throw _
  rename_i answer given
  refine (repeatable_lift (requestParts method args)).bind fun parts => ?_
  obtain ⟨verb, url, body⟩ := parts
  dsimp only
  split
  · refine repeatable_get (fun m n => ?_) fun m => ?_
    · rw [memoryless answer given m.events n.events]
    · refine (repeatable_note _).bind fun _ => (repeatable_pass _).bind fun _ => ?_
      split
      · exact repeatable_lift _
      · exact repeatable_throw _
  · exact repeatable_throw _

theorem repeatable_node {x : Metered α} (inside : Repeatable setting x) :
    Repeatable setting (do tick setting; x) :=
  repeatable_tick.bind fun _ => inside

section Expressions

variable (scope : Scope)

mutual

theorem repeatable_eval (memoryless : setting.Memoryless) (e : Expr) :
    Repeatable setting (eval setting scope e) := by
  rw [eval.eq_def]
  refine repeatable_node ?_
  cases e with
  | template holes tail =>
    exact (repeatable_evalHoles memoryless "" holes).bind fun _ => repeatable_lift _
  | list items => exact (repeatable_evalList memoryless [] items).bind fun _ => repeatable_lift _
  | map entries =>
    exact (repeatable_evalEntries memoryless [] entries).bind fun _ => repeatable_lift _
  | ident name => exact repeatable_lift _
  | field base name =>
    dsimp only
    split
    · rename_i root
      split
      · exact repeatable_pure _
      · exact (repeatable_eval memoryless (.ident root)).bind fun _ => repeatable_lift _
    · exact (repeatable_eval memoryless base).bind fun _ => repeatable_lift _
  | index base key =>
    exact (repeatable_eval memoryless base).bind fun _ =>
      (repeatable_eval memoryless key).bind fun _ => repeatable_lift _
  | unary op operand => exact (repeatable_eval memoryless operand).bind fun _ => repeatable_lift _
  | binary op left right =>
    refine (repeatable_eval memoryless left).bind fun l => ?_
    split
    · split
      · exact repeatable_eval memoryless right
      · exact repeatable_pure l
    · split
      · exact repeatable_pure l
      · exact repeatable_eval memoryless right
    · exact (repeatable_eval memoryless right).bind fun _ => repeatable_lift _
  | conditional condition yes no =>
    refine (repeatable_eval memoryless condition).bind fun c => ?_
    split
    · exact repeatable_eval memoryless yes
    · exact repeatable_eval memoryless no
  | call name args =>
    exact (repeatable_evalList memoryless [] args).bind fun values =>
      (repeatable_lift (callFunction name values)).bind fun _ => repeatable_lift _
  | invoke capability method args =>
    refine (repeatable_evalList memoryless [] args).bind fun values => ?_
    cases capability with
    | logger => exact repeatable_callLogger method values
    | http => exact repeatable_callHttp memoryless method values
  | _ => exact repeatable_pure _

theorem repeatable_evalList (memoryless : setting.Memoryless) (values : List Value)
    (items : List Expr) :
    Repeatable setting (evalList setting scope values items) := by
  cases items with
  | nil => exact repeatable_pure _
  | cons e rest =>
    exact (repeatable_eval memoryless e).bind fun v =>
      repeatable_evalList memoryless (v :: values) rest

theorem repeatable_evalEntries (memoryless : setting.Memoryless)
    (entries : List (String × Value)) (items : List (String × Expr)) :
    Repeatable setting (evalEntries setting scope entries items) := by
  cases items with
  | nil => exact repeatable_pure _
  | cons entry rest =>
    obtain ⟨key, e⟩ := entry
    exact (repeatable_eval memoryless e).bind fun v =>
      repeatable_evalEntries memoryless _ rest

theorem repeatable_evalHoles (memoryless : setting.Memoryless) (text : String)
    (holes : List (String × Expr)) :
    Repeatable setting (evalHoles setting scope text holes) := by
  cases holes with
  | nil => exact repeatable_pure _
  | cons hole rest =>
    obtain ⟨before, e⟩ := hole
    exact (repeatable_eval memoryless e).bind fun v => repeatable_evalHoles memoryless _ rest

end

end Expressions

/-! ## The old value of a place -/

/-- If the computation succeeds, it gives this value. -/
def Only (x : Metered α) (a : α) : Prop :=
  ∀ m b after, x m = (.ok b, after) → b = a

theorem only_lift {r : Except ScriptError α} {a : α} (given : ∀ b, r = .ok b → b = a) :
    Only (liftM r) a :=
  fun _ b _ ran => given b (Prod.mk.inj ran).1

theorem Only.bind {x : Metered α} {f : α → Metered β} {a : α} {b : β} (first : Only x a)
    (second : Only (f a) b) : Only (x >>= f) b := by
  intro m c after ran
  obtain ⟨a', mid, ran, ran'⟩ := bind_apply_ok ran
  obtain rfl := first m a' mid ran
  exact second mid c after ran'

/-- The index, if it has one, evaluates to integers and strings. -/
def PathStep.Keyed (setting : Setting) (scope : Scope) : PathStep → Prop
  | field _ => True
  | index e => ∀ m v after, eval setting scope e m = (.ok v, after) → v.IsKey

/-- Null has no fields, and what takes a name has the part of this name. -/
theorem Value.field_only {v w : Value} {name : String} (taken : v.Takes (.name name))
    (read : v.field name = .ok w) : w = (v.step? (.name name)).getD null := by
  by_cases there : v = null
  · subst there
    cases read
  · exact Except.ok.inj (read.symm.trans (field_of_offers ⟨there, taken⟩))

theorem Value.index_only {v k w : Value} {key : Key} (isKey : k.IsKey) (keyed : k.toKey = .ok key)
    (taken : v.Takes key) (read : v.index k = .ok w) : w = (v.step? key).getD null := by
  by_cases there : v = null
  · subst there
    cases read
  · exact Except.ok.inj (read.symm.trans (index_of_offers isKey keyed ⟨there, taken⟩))

/-- Where a step is taken, the part that is read by it is the only one. -/
theorem stepRules_only (memoryless : setting.Memoryless) (scope : Scope) :
    StepRules setting scope
      (fun step key => step.Keyed setting scope ∧ step.Gives setting scope key) Value.Takes
      Only where
  names gives := gives.2
  known _ := only_lift fun _ same => (Except.ok.inj same).symm
  counted only := Only.bind (fun _ _ _ _ => Subsingleton.elim _ ()) only
  field taken only := only.bind (only_lift fun _ => Value.field_only taken)
  index := by
    rintro x v e key ⟨isKey, k, m, after, ran, keyed⟩ taken only
    have index : Only (eval setting scope e) k := fun _ _ _ ran' =>
      ((repeatable_eval scope memoryless e).same ran ran').1
    exact only.bind (index.bind (only_lift fun _ =>
      Value.index_only (isKey m k after ran) keyed taken))

/-! ## Assignments -/

/-- The operator of a compound assignment takes both operands, the left one first. -/
theorem eval_compound {op : AssignOp} {binary : BinaryOp} (compound : op.binary? = some binary)
    (scope : Scope) (left right : Expr) :
    eval setting scope (.binary binary left right) = (do
      tick setting
      let l ← eval setting scope left
      let r ← eval setting scope right
      applyMeasured setting.limits binary l r) := by
  refine eval_binary ?_ scope left right
  cases op <;> cases compound <;> exact ⟨nofun, nofun⟩

/-- A compound assignment agrees with its expansion. If the assignment of the combination of the
place and an expression to the place succeeds before the deadline, then so does the compound
assignment, no later, and it leaves the same scope: the store, the locals, the constants and the
recorded sizes. The indices of the place evaluate to integers and strings, and the answer to a
request depends on the request; an index may make requests too. -/
theorem exec_compound {op : AssignOp} {binary : BinaryOp} {place : Place} {e : Expr}
    {st after : RunState} (memoryless : setting.Memoryless) (named : st.scope.NamesStore)
    (keyed : ∀ step ∈ place.path, step.Keyed setting st.scope)
    (compound : op.binary? = some binary)
    (ran : exec setting (.assign place .set (.binary binary place.expr e)) st = (.ok .next, after))
    (early : ¬ setting.Passed after.meter.now) :
    ∃ ended, exec setting (.assign place op e) st = (.ok .next, ended) ∧
      ended.scope = after.scope ∧ ended.meter.now ≤ after.meter.now := by
  obtain ⟨ticked, keys, mid, result, ready, counted, path, checked, right, wrote, last⟩ :=
    exec_assign_iff.1 ran
  have tickedScope : ticked.scope = st.scope := (steady_reading _).scope_eq counted
  have midScope : mid.scope = st.scope :=
    ((steady_evaluatePath [] place.path).scope_eq path).trans tickedScope
  obtain ⟨combined, -⟩ := reading_ok_iff.1 right
  rw [midScope, eval_compound compound] at combined
  obtain ⟨_, m₁, nodeRan, combined⟩ := bind_apply_ok combined
  obtain ⟨old, m₂, oldRan, combined⟩ := bind_apply_ok combined
  obtain ⟨new, m₃, newRan, combined⟩ := bind_apply_ok combined
  obtain ⟨applied, rfl⟩ := Prod.mk.inj combined
  -- What the expansion reads at the place is what the compound assignment finds there.
  obtain ⟨whole, _, stands, taken, -⟩ := Place.write_set_ok named wrote
  obtain ⟨_, rfl, given⟩ := evaluatePath_gives path
  rw [tickedScope] at given
  have only : Only (eval setting st.scope place.expr) (whole.getPath keys) :=
    (stepRules_only memoryless st.scope).judged named stands
      ((List.forall₂_and_left _ _).2 ⟨keyed, given⟩) taken
  obtain rfl : old = whole.getPath keys := only m₁ old m₂ oldRan
  -- The right-hand side is evaluated earlier.
  have order : mid.meter.now ≤ m₂.now :=
    Nat.le_trans (repeatable_tick.forward nodeRan)
      ((repeatable_eval st.scope memoryless place.expr).forward oldRan)
  have repeatable := repeatable_eval st.scope memoryless e
  rw [last] at early
  obtain ⟨ended, newRan'⟩ := repeatable.again newRan early order
  obtain ⟨-, took⟩ := repeatable.same newRan newRan'
  have right' : evaluate setting e mid = (.ok new, ⟨mid.scope, ended⟩) :=
    reading_ok_iff.2 ⟨midScope.symm ▸ newRan', rfl⟩
  have wrote' : place.write setting.limits keys op new st.scope = .ok after.scope := by
    refine Place.write_of_combine named stands ?_ wrote
    rw [combine, compound]
    exact applied
  refine ⟨⟨after.scope, ended⟩, exec_assign_iff.2 ?_, rfl, ?_⟩
  · exact ⟨ticked, keys, mid, new, _, counted, path, checked, right', wrote', rfl⟩
  · rw [last]
    dsimp only
    omega

/-- Every request is answered with two after five milliseconds. -/
def Setting.answering : Setting :=
  ⟨{}, some fun _ _ => ⟨5, .ok (.int ⟨2, by decide, by decide⟩)⟩, some 30, .waiting⟩

/-- An answer is added to an item of a list in the store, whose index is a sum. -/
theorem exec_compound_item :
    let st : RunState :=
      ⟨{ store := Dict.ofList [("a", .array [.null, .null, .int ⟨1, by decide, by decide⟩])] },
        {}⟩
    let answer : Expr := .invoke .http "get" [.string "u"]
    let sum : Expr := .binary .add (.int 1) (.int 1)
    let place : Place := ⟨"ctx", [.field "a", .index sum]⟩
    let expansion : Stmt := .assign place .set (.binary .add place.expr answer)
    let after := (exec .answering expansion st).2
    (Setting.answering.Memoryless ∧ st.scope.NamesStore ∧
        (∀ step ∈ place.path, step.Keyed .answering st.scope) ∧
        AssignOp.add.binary? = some .add ∧ exec .answering expansion st = (.ok .next, after) ∧
        ¬ Setting.answering.Passed after.meter.now) ∧
      ∃ ended, exec .answering (.assign place .add answer) st = (.ok .next, ended) ∧
        ended.scope = after.scope ∧ ended.meter.now ≤ after.meter.now := by
  intro st answer sum place expansion after
  have memoryless : Setting.answering.Memoryless := by
    rintro _ ⟨⟩ _ _ _
    rfl
  have named : st.scope.NamesStore := Scope.namesStore_start _
  have first : eval .answering st.scope sum {} = (.ok (.int 2), { steps := 3 }) := rfl
  have keyed : ∀ step ∈ place.path, step.Keyed .answering st.scope := by
    refine List.forall_mem_cons.2 ⟨trivial, List.forall_mem_singleton.2 fun m v ended ran => ?_⟩
    obtain ⟨rfl, -⟩ := (repeatable_eval st.scope memoryless sum).same first ran
    trivial
  have ran : exec .answering expansion st = (.ok .next, after) := rfl
  have early : ¬ Setting.answering.Passed after.meter.now := by decide
  exact ⟨⟨memoryless, named, keyed, rfl, ran, early⟩,
    exec_compound memoryless named keyed rfl ran early⟩

end Relay.Script
