import Relay.Script.Eval

/-!
# Running statements

A statement either goes on to the next one or ends the program with a value. A statement that fails
leaves the scope as it was, so a failed run keeps exactly what the assignments before it wrote.
-/

namespace Relay.Script

/-- How statements end: with the next one, or with the value of the program. -/
inductive Control where
  | next
  | ret (v : Value)

/-- The scope of a run and its meter. -/
structure RunState where
  scope : Scope
  meter : Meter

/-- A computation that may also change the scope. -/
abbrev Running := ExceptT ScriptError (StateM RunState)

/-- Do something that leaves the scope as it is. -/
def reading {α : Type} (f : Scope → Metered α) : Running α :=
  fun st =>
    let (result, meter) := f st.scope st.meter
    (result, { st with meter })

/-- Change the scope, unless that fails. -/
def writing (f : Scope → Except ScriptError Scope) : Running Unit :=
  fun st =>
    match f st.scope with
    | .ok scope => (.ok (), { st with scope })
    | .error e => (.error e, st)

/-- Evaluate an expression in the present scope. -/
def evaluate (setting : Setting) (e : Expr) : Running Value :=
  reading fun scope => eval setting scope e

/-- The new value of a place, from its old value and the right-hand side. -/
def combine (limits : Limits) (op : AssignOp) (old new : Value) : Except ScriptError Value :=
  match op.binary? with
  | none => .ok new
  | some binary => applyMeasured limits binary old new

/-- Evaluate the steps of a path in order, after those that are evaluated, which are held last
first. -/
def evaluatePath (setting : Setting) (keys : List Key) : List PathStep → Running (List Key)
  | [] => return keys.reverse
  | .field name :: rest => evaluatePath setting (.name name :: keys) rest
  | .index e :: rest => do
    let v ← evaluate setting e
    let key ← v.toKey
    evaluatePath setting (key :: keys) rest

/-- The size of the nulls that fill a list up to a position. Sizes are words of 64 bits; what does
not fit one counts as the greatest. -/
def paddingBytes (position : Nat) : Nat :=
  min (position * Value.slotBytes) (UInt64.size - 1)

/-- Refuse positions whose padding alone would break the size limit. -/
def checkPositions (limits : Limits) : List Key → Except ScriptError Unit
  | [] => .ok ()
  | .name _ :: rest => checkPositions limits rest
  | .position n :: rest =>
    if limits.maxValueBytes < paddingBytes n then .error (.fault (.positionTooLarge n))
    else checkPositions limits rest

/-- Write to the end of a path into the store. The first step names the entry; the entry as a whole
is converted, changed and converted back. -/
def assignStore (limits : Limits) (root : String) (keys : List Key) (op : AssignOp) (new : Value)
    (scope : Scope) : Except ScriptError Scope :=
  match keys with
  | [] => .error (.fault (.wholeStore root))
  | first :: rest => do
    let top := scope.entry first.text
    let combined ← combine limits op (top.getPath rest) new
    let changed ← top.setPath rest combined
    scope.writeStore limits first.text changed

/-- Write to the end of a path into a local. -/
def assignLocal (limits : Limits) (root : String) (keys : List Key) (op : AssignOp) (new : Value)
    (scope : Scope) : Except ScriptError Scope :=
  if root ∈ scope.constants then .error (.fault (.constant root))
  else
    match scope.locals.get? root with
    | none => .error (.undefinedVariable root)
    | some current => do
      let combined ← combine limits op (current.getPath keys) new
      let changed ← current.setPath keys combined
      scope.writeLocal limits root changed

/-- Run an assignment: the path first, then the right-hand side, then the write. -/
def assign (setting : Setting) (place : Place) (op : AssignOp) (value : Expr) : Running Unit := do
  let keys ← evaluatePath setting [] place.path
  checkPositions setting.limits keys
  let new ← evaluate setting value
  writing fun scope =>
    if isStoreName place.root then assignStore setting.limits place.root keys op new scope
    else assignLocal setting.limits place.root keys op new scope

/-- Refuse to declare a name of the store or a constant again. -/
def checkDeclared (name : String) (scope : Scope) : Except ScriptError Unit :=
  if isStoreName name then .error (.fault (.rebind name))
  else if name ∈ scope.constants then .error (.fault (.constant name))
  else .ok ()

/-- Run a declaration. -/
def declare (setting : Setting) (constant : Bool) (name : String) (value : Expr) :
    Running Unit := do
  checkDeclared name (← get).scope
  let v ← evaluate setting value
  writing fun scope => do
    let scope ← scope.writeLocal setting.limits name v
    return if constant then { scope with constants := name :: scope.constants } else scope

mutual

/-- Run a statement. -/
def exec (setting : Setting) (s : Stmt) : Running Control := do
  reading fun _ => tick setting
  match s with
  | .declare constant name value =>
    declare setting constant name value
    return .next
  | .assign place op value =>
    assign setting place op value
    return .next
  | .branch condition yes no =>
    let c ← evaluate setting condition
    if c.truthy then execList setting yes else execList setting no
  | .ret value =>
    match value with
    | some e =>
      let v ← evaluate setting e
      return .ret v
    | none => return .ret .null
  | .block body => execList setting body
  | .eval e =>
    let _ ← evaluate setting e
    return .next

/-- Run statements in order until one ends the program. Before each of them the run gives way to
others, if that is due. -/
def execList (setting : Setting) : List Stmt → Running Control
  | [] => return .next
  | s :: rest => do
    reading fun _ => giveWay setting
    match ← exec setting s with
    | .ret v => return .ret v
    | .next => execList setting rest

end

/-- How a program ends: its result, the store, the time it took and what was seen of it. Times are
those of the waits and count from the start of the program. -/
structure Outcome (α : Type) where
  result : Except ScriptError α
  store : Store
  elapsed : Nat := 0
  events : List (Nat × Event) := []

/-- Run a program on a store. -/
def runProgram (setting : Setting) (program : Program) (store : Store) : Outcome Control :=
  let (result, st) := execList setting program ⟨{ store }, {}⟩
  ⟨result, st.scope.store, st.meter.now, st.meter.events.reverse⟩

end Relay.Script
