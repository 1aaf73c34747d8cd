import Relay.Proofs.Script.Points

/-! # Running in place

A write to the scope either takes place as a whole or fails and leaves the scope as it was. A run
that changes its scope in place has no such writes: maps are made on the way to the end of a path,
and a size is recorded before the sum of all sizes is checked, so what fails further on leaves
traces. Here is a run of that kind, with every change and every check in its order. It ends as the
run with whole writes does, `agrees_execList`; what a failure leaves behind is not in the store.
-/

namespace Relay.Script

/-- A place as a write to a part of it finds it: nothing becomes a map. -/
def Value.opened : Value → Value
  | null => map []
  | v => v

/-- Write to the end of a path in place: whether that succeeds, and what is there then. What is made
on the way stays if the write gets no further. -/
def Value.write (target : Value) (path : List Key) (new : Value) :
    Except ScriptError Unit × Value :=
  match path with
  | [] => (.ok (), new)
  | key :: rest =>
    match target.opened, key with
    | map entries, key =>
      let (result, inner) := write ((entries.lookup key.text).getD null) rest new
      (result, map (Fields.insert key.text inner entries))
    | list items, .position n =>
      let (result, inner) := write (items[n]?.getD null) rest new
      (result, list (setItem items n inner))
    | target, key => (.error (.mismatch (.assign key target.type)), target)

/-- A write to the end of a path that succeeds leaves the value with its part replaced. -/
theorem Value.setPath_eq_write (target : Value) (path : List Key) (new : Value) :
    target.setPath path new =
      (target.write path new).1.map fun _ => (target.write path new).2 := by
  induction path generalizing target with
  | nil => rw [setPath, write]; rfl
  | cons key rest ih =>
    cases target with
    | null =>
      simp only [setPath, write, opened, ih, Fields.insert, List.lookup_nil, Option.getD_none]
      cases (write null rest new).1 <;> rfl
    | map entries =>
      simp only [setPath, write, opened, ih]
      cases (write ((entries.lookup key.text).getD null) rest new).1 <;> rfl
    | list items =>
      cases key with
      | name s => simp only [setPath, write, opened]; rfl
      | position n =>
        simp only [setPath, write, opened, ih]
        cases (write (items[n]?.getD null) rest new).1 <;> rfl
    | _ => cases key <;> rfl

theorem Value.setPath_bind {α : Type} (target : Value) (path : List Key) (new : Value)
    (f : Value → Except ScriptError α) :
    (target.setPath path new >>= f) =
      ((target.write path new).1 >>= fun _ => f (target.write path new).2) := by
  rw [setPath_eq_write]
  cases (target.write path new).1 <;> rfl

namespace InPlace

/-! ## Expressions -/

mutual

/-- Evaluate an expression in a scope that every part of it could change. -/
def eval (setting : Setting) (e : Expr) : Running Value := do
  reading fun _ => tick setting
  match e with
  | .null => return .null
  | .bool b => return .bool b
  | .int n => return .int n
  | .float x => return .float x
  | .string s => return .string s
  | .template holes tail =>
    let text ← evalHoles setting "" holes
    setting.limits.accept (.string (text ++ tail))
  | .list items =>
    let values ← evalList setting [] items
    setting.limits.accept (.list values)
  | .map entries =>
    let values ← evalEntries setting [] entries
    setting.limits.accept (.map values)
  | .ident name => reading fun scope => scope.lookup name
  | .field base name =>
    match base with
    | .ident root =>
      if isStoreName root then reading fun scope => return scope.entry name
      else
        let v ← eval setting (.ident root)
        v.field name
    | base =>
      let v ← eval setting base
      v.field name
  | .index base key =>
    let v ← eval setting base
    let k ← eval setting key
    v.index k
  | .unary op operand =>
    let v ← eval setting operand
    applyUnary op v
  | .binary op left right =>
    let l ← eval setting left
    match op with
    | .and => if l.truthy then eval setting right else return l
    | .or => if l.truthy then return l else eval setting right
    | op =>
      let r ← eval setting right
      applyMeasured setting.limits op l r
  | .conditional condition yes no =>
    let c ← eval setting condition
    if c.truthy then eval setting yes else eval setting no
  | .call name args =>
    let values ← evalList setting [] args
    let v ← callFunction name values
    setting.limits.accept v
  | .invoke capability method args =>
    let values ← evalList setting [] args
    match capability with
    | .logger => reading fun _ => callLogger method values
    | .http => reading fun _ => callHttp setting method values

/-- Evaluate expressions in order, after those that are evaluated, which are held last first. -/
def evalList (setting : Setting) (values : List Value) : List Expr → Running (List Value)
  | [] => return values.reverse
  | e :: rest => do
    let v ← eval setting e
    evalList setting (v :: values) rest

/-- Evaluate the entries of a map in order. -/
def evalEntries (setting : Setting) (entries : List (String × Value)) :
    List (String × Expr) → Running (List (String × Value))
  | [] => return entries
  | (key, e) :: rest => do
    let v ← eval setting e
    evalEntries setting (Fields.insert key v entries) rest

/-- Evaluate the holes of a template in order. -/
def evalHoles (setting : Setting) (text : String) : List (String × Expr) → Running String
  | [] => return text
  | (before, e) :: rest => do
    let v ← eval setting e
    evalHoles setting (text ++ before ++ v.display) rest

end

/-- In a scope, the computation does what one does that only keeps a meter. -/
def Reads {α : Type} (scope : Scope) (x : Running α) (m : Metered α) : Prop :=
  ∀ meter, x ⟨scope, meter⟩ = ((m meter).1, ⟨scope, (m meter).2⟩)

section Reads

variable {α β : Type} {setting : Setting} {scope : Scope}

theorem reads_reading (f : Scope → Metered α) : Reads scope (reading f) (f scope) :=
  fun _ => rfl

theorem reads_pure (a : α) : Reads scope (pure a) (pure a) :=
  fun _ => rfl

theorem reads_lift (result : Except ScriptError α) :
    Reads scope (liftM result) (liftM result) :=
  fun _ => rfl

theorem Reads.bind {x : Running α} {m : Metered α} {f : α → Running β} {g : α → Metered β}
    (first : Reads scope x m) (second : ∀ a, Reads scope (f a) (g a)) :
    Reads scope (x >>= f) (m >>= g) := by
  intro meter
  rw [bind_apply, bind_apply, first meter]
  rcases m meter with ⟨e | a, mid⟩
  · rfl
  · exact second a mid

/-- A node of an expression is counted, and then what is inside it is evaluated. -/
theorem reads_node {x : Running α} {m : Metered α} (inside : Reads scope x m) :
    Reads scope (do reading (fun _ => tick setting); x) (do tick setting; m) :=
  (reads_reading fun _ => tick setting).bind fun _ => inside

theorem reads_ident (name : String) :
    Reads scope (eval setting (.ident name)) (Script.eval setting scope (.ident name)) := by
  rw [eval, Script.eval]
  exact reads_node (reads_reading _)

mutual

theorem reads_eval (e : Expr) : Reads scope (eval setting e) (Script.eval setting scope e) := by
  rw [eval.eq_def, Script.eval.eq_def]
  cases e with
  | null => exact reads_node (reads_pure _)
  | bool b => exact reads_node (reads_pure _)
  | int n => exact reads_node (reads_pure _)
  | float x => exact reads_node (reads_pure _)
  | string s => exact reads_node (reads_pure _)
  | template holes tail => exact reads_node ((reads_evalHoles "" holes).bind fun _ => reads_lift _)
  | list items => exact reads_node ((reads_evalList [] items).bind fun _ => reads_lift _)
  | map entries => exact reads_node ((reads_evalEntries [] entries).bind fun _ => reads_lift _)
  | ident name => exact reads_node (reads_reading _)
  | field base name =>
    refine reads_node ?_
    have inside := reads_eval base
    cases base with
    | ident root =>
      dsimp only
      split
      · exact reads_reading _
      · exact (reads_ident root).bind fun _ => reads_lift _
    | _ => exact inside.bind fun _ => reads_lift _
  | index base key =>
    exact reads_node ((reads_eval base).bind fun _ => (reads_eval key).bind fun _ => reads_lift _)
  | unary op operand => exact reads_node ((reads_eval operand).bind fun _ => reads_lift _)
  | binary op left right =>
    refine reads_node ((reads_eval left).bind fun l => ?_)
    have measured : Reads scope
        (do let r ← eval setting right; applyMeasured setting.limits op l r)
        (do let r ← Script.eval setting scope right; applyMeasured setting.limits op l r) :=
      (reads_eval right).bind fun _ => reads_lift _
    cases op with
    | and =>
      dsimp only
      split
      · exact reads_eval right
      · exact reads_pure l
    | or =>
      dsimp only
      split
      · exact reads_pure l
      · exact reads_eval right
    | _ => exact measured
  | conditional condition yes no =>
    refine reads_node ((reads_eval condition).bind fun c => ?_)
    split
    · exact reads_eval yes
    · exact reads_eval no
  | call name args =>
    exact reads_node ((reads_evalList [] args).bind fun _ =>
      (reads_lift _).bind fun _ => reads_lift _)
  | invoke capability method args =>
    refine reads_node ((reads_evalList [] args).bind fun _ => ?_)
    cases capability with
    | logger => exact reads_reading _
    | http => exact reads_reading _

theorem reads_evalList (values : List Value) (items : List Expr) :
    Reads scope (evalList setting values items) (Script.evalList setting scope values items) := by
  cases items with
  | nil => exact reads_pure _
  | cons e rest => exact (reads_eval e).bind fun v => reads_evalList (v :: values) rest

theorem reads_evalEntries (entries : List (String × Value)) (items : List (String × Expr)) :
    Reads scope (evalEntries setting entries items)
      (Script.evalEntries setting scope entries items) := by
  cases items with
  | nil => exact reads_pure _
  | cons entry rest =>
    obtain ⟨key, e⟩ := entry
    exact (reads_eval e).bind fun v => reads_evalEntries _ rest

theorem reads_evalHoles (text : String) (holes : List (String × Expr)) :
    Reads scope (evalHoles setting text holes) (Script.evalHoles setting scope text holes) := by
  cases holes with
  | nil => exact reads_pure _
  | cons hole rest =>
    obtain ⟨before, e⟩ := hole
    exact (reads_eval e).bind fun v => reads_evalHoles _ rest

end

/-- Evaluation in place leaves the scope, and gives what is read in the scope. -/
theorem eval_eq_evaluate (e : Expr) : eval setting e = evaluate setting e :=
  funext fun st => reads_eval e st.meter

end Reads

/-! ## Statements -/

/-- Change the scope, whatever comes after. -/
def change (f : Scope → Scope) : Running Unit :=
  modify fun st => { st with scope := f st.scope }

/-- A scope with the size of an entry of the store or of a local recorded. -/
def recorded (inStore : Bool) (name : String) (bytes : Nat) (scope : Scope) : Scope :=
  if inStore then { scope with storeSizes := scope.storeSizes.insert name bytes }
  else { scope with localSizes := scope.localSizes.insert name bytes }

/-- Record a size, and then refuse it if all sizes together exceed the limit. -/
def hold (limits : Limits) (inStore : Bool) (name : String) (bytes : Nat) : Running Unit := do
  change (recorded inStore name bytes)
  let held := (← get).scope.heldBytes
  if limits.maxValueBytes < held then
    throw (.fault (.holdsTooMuch held limits.maxValueBytes))

/-- Write to the end of a path into a copy of an entry of the store, and then replace the entry. -/
def assignStore (limits : Limits) (root : String) (keys : List Key) (op : AssignOp) (new : Value) :
    Running Unit :=
  match keys with
  | [] => throw (.fault (.wholeStore root))
  | first :: rest => do
    let top := (← get).scope.entry first.text
    let combined ← combine limits op (top.getPath rest) new
    let (result, top) := top.write rest combined
    result
    let bytes ← limits.measure top
    hold limits true first.text bytes
    change fun scope => { scope with store := scope.store.insert first.text top.toJson }

/-- Write to the end of a path into a local itself, and then look whether it has become too large.
-/
def assignLocal (limits : Limits) (root : String) (keys : List Key) (op : AssignOp) (new : Value) :
    Running Unit := do
  let scope := (← get).scope
  if root ∈ scope.constants then throw (.fault (.constant root))
  match scope.locals.get? root with
  | none => throw (.undefinedVariable root)
  | some current =>
    let combined ← combine limits op (current.getPath keys) new
    let (result, current) := current.write keys combined
    change fun scope => { scope with locals := scope.locals.insert root current }
    result
    let bytes ← limits.measure current
    hold limits false root bytes

/-- Evaluate the steps of a path in order. -/
def evalPath (setting : Setting) (keys : List Key) : List PathStep → Running (List Key)
  | [] => return keys.reverse
  | .field name :: rest => evalPath setting (.name name :: keys) rest
  | .index e :: rest => do
    let v ← eval setting e
    let key ← v.toKey
    evalPath setting (key :: keys) rest

/-- Run an assignment. -/
def assign (setting : Setting) (place : Place) (op : AssignOp) (value : Expr) : Running Unit := do
  let keys ← evalPath setting [] place.path
  checkPositions setting.limits keys
  let new ← eval setting value
  if isStoreName place.root then assignStore setting.limits place.root keys op new
  else assignLocal setting.limits place.root keys op new

/-- Run a declaration. The size is recorded before there is a local. -/
def declare (setting : Setting) (constant : Bool) (name : String) (value : Expr) :
    Running Unit := do
  checkDeclared name (← get).scope
  let v ← eval setting value
  let bytes ← setting.limits.measure v
  hold setting.limits false name bytes
  change fun scope => { scope with locals := scope.locals.insert name v }
  if constant then change fun scope => { scope with constants := name :: scope.constants }

mutual

/-- Run a statement in place. -/
def exec (setting : Setting) (s : Stmt) : Running Control := do
  reading fun _ => tick setting
  match s with
  | .declare constant name value =>
    declare setting constant name value
    return .next
  | .assign place op value =>
    assign setting place op value
    return .next
  | .branch condition yes no =>
    let c ← eval setting condition
    if c.truthy then execList setting yes else execList setting no
  | .ret value =>
    match value with
    | some e =>
      let v ← eval setting e
      return .ret v
    | none => return .ret .null
  | .block body => execList setting body
  | .eval e =>
    let _ ← eval setting e
    return .next

/-- Run statements in place until one ends the program, and give way to others before each of them
if that is due. -/
def execList (setting : Setting) : List Stmt → Running Control
  | [] => return .next
  | s :: rest => do
    reading fun _ => giveWay setting
    match ← exec setting s with
    | .ret v => return .ret v
    | .next => execList setting rest

end

/-! ## Agreement -/

/-- Where the first computation succeeds, so does the second, with the same state. Where the first
one fails, so does the second, with the same meter and the same store. -/
def Agrees {α : Type} (x y : Running α) : Prop :=
  ∀ st, match x st with
    | (.ok a, after) => y st = (.ok a, after)
    | (.error e, after) => ∃ left, y st = (.error e, left) ∧
        left.meter = after.meter ∧ left.scope.store = after.scope.store

section Agrees

variable {α β : Type} {setting : Setting} {limits : Limits}

theorem Agrees.refl (x : Running α) : Agrees x x := by
  intro st
  rcases x st with ⟨e | a, after⟩
  · exact ⟨after, rfl, rfl, rfl⟩
  · rfl

theorem Agrees.bind {x y : Running α} {f g : α → Running β} (first : Agrees x y)
    (second : ∀ a, Agrees (f a) (g a)) : Agrees (x >>= f) (y >>= g) := by
  intro st
  have agrees := first st
  rw [bind_apply, bind_apply]
  rcases ran : x st with ⟨e | a, mid⟩
  · rw [ran] at agrees
    obtain ⟨left, failed, same⟩ := agrees
    rw [failed]
    exact ⟨left, rfl, same⟩
  · rw [ran] at agrees
    rw [agrees]
    exact second a mid

/-- What comes after the same computation agrees. -/
theorem Agrees.after (x : Running α) {f g : α → Running β} (second : ∀ a, Agrees (f a) (g a)) :
    Agrees (x >>= f) (x >>= g) :=
  (Agrees.refl x).bind second

theorem hold_apply (inStore : Bool) (name : String) (bytes : Nat) (st : RunState) :
    hold limits inStore name bytes st =
      (if limits.maxValueBytes < (recorded inStore name bytes st.scope).heldBytes then
        .error (.fault (.holdsTooMuch (recorded inStore name bytes st.scope).heldBytes
          limits.maxValueBytes))
      else .ok (), { st with scope := recorded inStore name bytes st.scope }) := by
  rw [hold, bind_apply]
  change (if _ then throw _ else pure () : Running Unit) _ = _
  by_cases large : limits.maxValueBytes < (recorded inStore name bytes st.scope).heldBytes
  · rw [if_pos large, if_pos large]
    rfl
  · rw [if_neg large, if_neg large]
    rfl

/-- What a whole write comes to, and what comes of the same write in place. -/
def Settles (st : RunState) (whole : Except ScriptError Scope)
    (ended : Except ScriptError Unit × RunState) : Prop :=
  match whole with
  | .ok scope => ended = (.ok (), { st with scope })
  | .error e => ∃ left, ended = (.error e, left) ∧
      left.meter = st.meter ∧ left.scope.store = st.scope.store

theorem agrees_writing {f : Scope → Except ScriptError Scope} {y : Running Unit}
    (settles : ∀ st, Settles st (f st.scope) (y st)) : Agrees (writing f) y := by
  intro st
  have settled := settles st
  rw [writing]
  cases ended : f st.scope with
  | ok scope => rw [ended] at settled; exact settled
  | error e => rw [ended] at settled; exact settled

section Settles

variable {st now : RunState} (same : now.meter = st.meter ∧ now.scope.store = st.scope.store)

include same

theorem settles_lift {result : Except ScriptError α} {f : α → Except ScriptError Scope}
    {k : α → Running Unit} (next : ∀ a, Settles st (f a) (k a now)) :
    Settles st (result >>= f) ((liftM result >>= k) now) := by
  rw [bind_apply]
  cases result with
  | error e => exact ⟨now, rfl, same⟩
  | ok a => exact next a

/-- A size is recorded, and what comes after that cannot fail: together that is what the whole write
accepts or refuses. -/
theorem settles_hold {inStore : Bool} {name : String} {bytes : Nat} {scope : Scope}
    {k : Unit → Running Unit}
    (final : k () { now with scope := recorded inStore name bytes now.scope } =
      (.ok (), { now with scope }))
    (total : (recorded inStore name bytes now.scope).heldBytes = scope.heldBytes) :
    Settles st (scope.accept limits) ((hold limits inStore name bytes >>= k) now) := by
  have store : (recorded inStore name bytes now.scope).store = now.scope.store := by
    rw [recorded]
    split <;> rfl
  rw [bind_apply, hold_apply, Scope.accept, total]
  by_cases large : limits.maxValueBytes < scope.heldBytes
  · rw [if_pos large, if_pos large]
    exact ⟨_, rfl, same.1, store.trans same.2⟩
  · rw [if_neg large, if_neg large]
    exact final.trans (same.1 ▸ rfl)

end Settles

/-- What is changed after a whole write can be changed after the one in place. -/
theorem Settles.change {st now : RunState} {whole : Except ScriptError Scope} {x : Running Unit}
    (settles : Settles st whole (x now)) (f : Scope → Scope) :
    Settles st (whole >>= fun scope => pure (f scope)) ((x >>= fun _ => InPlace.change f) now) := by
  rw [bind_apply]
  cases whole with
  | error e =>
    obtain ⟨left, failed, same⟩ := settles
    rw [failed]
    exact ⟨left, rfl, same⟩
  | ok scope =>
    rw [show x now = _ from settles]
    rfl

theorem agrees_assignStore (root : String) (keys : List Key) (op : AssignOp) (new : Value) :
    Agrees (writing (Script.assignStore limits root keys op new))
      (assignStore limits root keys op new) := by
  refine agrees_writing fun st => ?_
  cases keys with
  | nil => exact ⟨st, rfl, rfl, rfl⟩
  | cons first rest =>
    rw [Script.assignStore, assignStore, bind_apply]
    refine settles_lift ⟨rfl, rfl⟩ fun combined => ?_
    rw [Value.setPath_bind]
    refine settles_lift ⟨rfl, rfl⟩ fun _ => ?_
    refine settles_lift ⟨rfl, rfl⟩ fun bytes => ?_
    exact settles_hold ⟨rfl, rfl⟩ rfl rfl

theorem agrees_assignLocal (root : String) (keys : List Key) (op : AssignOp) (new : Value) :
    Agrees (writing (Script.assignLocal limits root keys op new))
      (assignLocal limits root keys op new) := by
  refine agrees_writing fun st => ?_
  rw [Script.assignLocal, assignLocal, bind_apply]
  change Settles st _ ((if root ∈ st.scope.constants then _ else _ : Running Unit) st)
  split
  · exact ⟨st, rfl, rfl, rfl⟩
  change Settles st _ ((match st.scope.locals.get? root with | none => _ | some current => _ :
    Running Unit) st)
  cases st.scope.locals.get? root with
  | none => exact ⟨st, rfl, rfl, rfl⟩
  | some current =>
    refine settles_lift ⟨rfl, rfl⟩ fun combined => ?_
    rw [Value.setPath_bind]
    -- The local is changed from here on, and its size is not the one that is recorded.
    change Settles st _ ((do
      (current.write keys combined).1
      let bytes ← limits.measure (current.write keys combined).2
      hold limits false root bytes : Running Unit) _)
    refine settles_lift ⟨rfl, rfl⟩ fun _ => ?_
    refine settles_lift ⟨rfl, rfl⟩ fun bytes => ?_
    rw [← bind_pure (hold limits false root bytes)]
    exact settles_hold ⟨rfl, rfl⟩ rfl rfl

/-- The size of a declared local is recorded before there is a local. -/
theorem agrees_declaring (constant : Bool) (name : String) (v : Value) :
    Agrees
      (writing fun scope => do
        let scope ← scope.writeLocal limits name v
        return if constant then { scope with constants := name :: scope.constants } else scope)
      (do
        let bytes ← limits.measure v
        hold limits false name bytes
        change fun scope => { scope with locals := scope.locals.insert name v }
        if constant then
          change fun scope => { scope with constants := name :: scope.constants }) := by
  refine agrees_writing fun st => ?_
  have written : Settles st (st.scope.writeLocal limits name v) ((do
      let bytes ← limits.measure v
      hold limits false name bytes
      change fun scope => { scope with locals := scope.locals.insert name v } : Running Unit) st) :=
    settles_lift ⟨rfl, rfl⟩ fun bytes => settles_hold ⟨rfl, rfl⟩ rfl rfl
  cases constant with
  | false =>
    simpa only [Bool.false_eq_true, ↓reduceIte, bind_pure, bind_pure_unit] using written
  | true =>
    simpa only [↓reduceIte, bind_assoc] using
      written.change fun scope => { scope with constants := name :: scope.constants }

theorem evalPath_eq_evaluatePath (keys : List Key) (path : List PathStep) :
    evalPath setting keys path = evaluatePath setting keys path := by
  induction path generalizing keys with
  | nil => rfl
  | cons step rest ih =>
    cases step with
    | field name => exact ih _
    | index e => simp only [evalPath, evaluatePath, eval_eq_evaluate, ih]

theorem agrees_assign (place : Place) (op : AssignOp) (value : Expr) :
    Agrees (Script.assign setting place op value) (assign setting place op value) := by
  rw [Script.assign, assign, evalPath_eq_evaluatePath, eval_eq_evaluate]
  refine .after _ fun keys => .after _ fun _ => .after _ fun new => ?_
  split
  · exact agrees_assignStore _ keys op new
  · exact agrees_assignLocal _ keys op new

theorem agrees_declare (constant : Bool) (name : String) (value : Expr) :
    Agrees (Script.declare setting constant name value) (declare setting constant name value) := by
  rw [Script.declare, declare, eval_eq_evaluate]
  exact .after _ fun st => .after _ fun _ => .after _ fun v => agrees_declaring constant name v

mutual

theorem agrees_exec (s : Stmt) : Agrees (Script.exec setting s) (exec setting s) := by
  rw [Script.exec.eq_def, exec.eq_def]
  refine .after _ fun _ => ?_
  cases s with
  | declare constant name value =>
    exact (agrees_declare constant name value).bind fun _ => .refl _
  | assign place op value => exact (agrees_assign place op value).bind fun _ => .refl _
  | branch condition yes no =>
    dsimp only
    rw [eval_eq_evaluate]
    refine .after _ fun c => ?_
    split
    · exact agrees_execList yes
    · exact agrees_execList no
  | ret value =>
    cases value with
    | none => exact .refl _
    | some e =>
      dsimp only
      rw [eval_eq_evaluate]
      exact .refl _
  | block body => exact agrees_execList body
  | eval e =>
    dsimp only
    rw [eval_eq_evaluate]
    exact .refl _

theorem agrees_execList (statements : List Stmt) :
    Agrees (Script.execList setting statements) (execList setting statements) := by
  cases statements with
  | nil => exact .refl _
  | cons s rest =>
    rw [Script.execList, execList]
    refine .after _ fun _ => (agrees_exec s).bind fun control => ?_
    cases control with
    | ret v => exact .refl _
    | next => exact agrees_execList rest

end

end Agrees

end InPlace
end Relay.Script
