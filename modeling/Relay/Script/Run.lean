import Relay.Script.Limits
import Relay.Store.Basic

/-!
# The surroundings of a running script

A script runs on a store, under limits, with or without an http object. Its time is over when the
timer cuts it off, which can happen where the run waits for an answer or gives way to others, or
when a step finds that the deadline has passed. A run has a step meter, which also keeps the time of
the waits and what the script did so far that can be seen from outside.
-/

namespace Relay.Script

/-- How important a log line is. -/
inductive Level where
  | debug
  | info
  | warn
  | error
deriving DecidableEq, Repr

/-- A request that a script makes. -/
structure HttpCall where
  method : String
  url : String
  body : Option Json

/-- The answer to a request: how many milliseconds it takes, and a value or the reason why there is
none. -/
structure HttpReply where
  delay : Nat
  result : Except String Json

/-- What can be seen of a run. -/
inductive Event where
  | log (level : Level) (message : String)
  | http (call : HttpCall)
  | timedOut (ms : Nat)

/-- What answers the requests of a run: all that was seen of the run before, the last event first,
may have a part in an answer. -/
abbrev HttpServer := List (Nat × Event) → HttpCall → HttpReply

/-- The number of steps after which the deadline is looked at again. -/
def deadlineStride : Nat := 64

/-- The number of steps after which a run gives way to others. -/
def yieldStride : Nat := 4096

/-- The count of steps, the time and the events so far, the last event first. Time is that of the
waits. -/
structure Meter where
  steps : Nat := 0
  now : Nat := 0
  events : List (Nat × Event) := []
  /-- The count of steps from which on the run gives way again. -/
  nextYield : Nat := yieldStride

/-- How a run takes time when it does not wait, and what its steps see of it. -/
inductive Clock where
  /-- Steps take no time, and none of them looks at the time. -/
  | stopped
  /-- Steps take no time, and look at the time of the waits. -/
  | waiting
  /-- Steps take time of their own, so each look at the clock may find it used up. -/
  | running (usedUp : Meter → Bool)

/-- What stays the same during a run. -/
structure Setting where
  limits : Limits
  /-- How requests are answered, if the script may make any. -/
  http : Option HttpServer
  /-- The time at which the timer cuts a run off that waits or gives way. -/
  cutoff : Option Nat
  clock : Clock

/-- A local variable of a run and the values it may take are held beside the sizes that were
recorded when they were written; so are the entries of the store that the run has written. -/
structure Scope where
  store : Store
  locals : Dict Value := Dict.empty
  constants : List String := []
  localSizes : Dict Nat := Dict.empty
  storeSizes : Dict Nat := Dict.empty

/-- A computation that counts steps, passes time and may fail. -/
abbrev Metered := ExceptT ScriptError (StateM Meter)

namespace Setting

/-- The time of the waits has come to the cutoff. -/
def expired (setting : Setting) (now : Nat) : Bool :=
  setting.cutoff.any (· ≤ now)

/-- Steps may find the deadline passed. -/
def overdue (setting : Setting) : Bool :=
  match setting.clock with
  | .stopped => false
  | _ => true

/-- A step at the given time may find the deadline passed. -/
def Passed (setting : Setting) (now : Nat) : Prop :=
  match setting.clock with
  | .stopped => False
  | .waiting => setting.expired now
  | .running _ => True

instance (setting : Setting) (now : Nat) : Decidable (setting.Passed now) := by
  unfold Passed
  split <;> infer_instance

/-- Steps have used up the time that the waits have left. -/
def spent (setting : Setting) (m : Meter) : Bool :=
  match setting.clock with
  | .running usedUp => usedUp m
  | _ => false

/-- A step finds the deadline passed. -/
def late (setting : Setting) (m : Meter) : Bool :=
  match setting.clock with
  | .stopped => false
  | .waiting => setting.expired m.now
  | .running usedUp => usedUp m

/-- The timer cuts off a run that gives way. -/
def cutsOff (setting : Setting) (m : Meter) : Bool :=
  setting.expired m.now || setting.cutoff.isSome && setting.spent m

end Setting

/-- Count one step. -/
def tick (setting : Setting) : Metered Unit := do
  modify fun m => { m with steps := m.steps + 1 }
  let m ← get
  if setting.late m ∧ m.steps % deadlineStride = 0 then
    throw (.timeout setting.limits.timeoutMs)

/-- Give way to others, if that is due. The timer finds a run there that has used up its time. -/
def giveWay (setting : Setting) : Metered Unit := do
  if (← get).nextYield ≤ (← get).steps then
    modify fun m => { m with nextYield := m.steps + yieldStride }
    if setting.cutsOff (← get) then
      throw (.timeout setting.limits.timeoutMs)

/-- Note an event at the present time. -/
def note (e : Event) : Metered Unit :=
  modify fun m => { m with events := (m.now, e) :: m.events }

/-- Let time pass. A wait for which there is not enough time ends at the cutoff, and with it the
run. -/
def pass (setting : Setting) (delay : Nat) : Metered Unit := do
  let m ← get
  let due := m.now + delay
  match setting.cutoff with
  | some cutoff =>
    if cutoff < due ∨ setting.spent m then
      modify fun m => { m with now := cutoff }
      throw (.timeout setting.limits.timeoutMs)
    else modify fun m => { m with now := due }
  | none => modify fun m => { m with now := due }

namespace Scope

/-- The size of all that the run holds: its locals and the entries that it has written. -/
def heldBytes (scope : Scope) : Nat :=
  (scope.localSizes.entries.map (·.2)).foldr (· + ·) 0 +
    (scope.storeSizes.entries.map (·.2)).foldr (· + ·) 0

/-- The scope, if what it holds stays within the limit. -/
def accept (limits : Limits) (scope : Scope) : Except ScriptError Scope :=
  if limits.maxValueBytes < scope.heldBytes then
    .error (.fault (.holdsTooMuch scope.heldBytes limits.maxValueBytes))
  else .ok scope

/-- Write a local and record its size. -/
def writeLocal (limits : Limits) (scope : Scope) (name : String) (v : Value) :
    Except ScriptError Scope := do
  let bytes ← limits.measure v
  accept limits { scope with
    locals := scope.locals.insert name v
    localSizes := scope.localSizes.insert name bytes }

/-- Write an entry of the store and record its size. -/
def writeStore (limits : Limits) (scope : Scope) (key : String) (v : Value) :
    Except ScriptError Scope := do
  let bytes ← limits.measure v
  accept limits { scope with
    store := scope.store.insert key v.toJson
    storeSizes := scope.storeSizes.insert key bytes }

/-- An entry of the store as a value, null if there is none. -/
def entry (scope : Scope) (key : String) : Value :=
  match scope.store.get? key with
  | some j => .ofJson j
  | none => .null

/-- The value of a name: a local, or the whole store. -/
def lookup (scope : Scope) (name : String) : Except ScriptError Value :=
  match scope.locals.get? name with
  | some v => .ok v
  | none =>
    if isStoreName name then .ok (.ofJson scope.store.toJson)
    else .error (.undefinedVariable name)

end Scope

end Relay.Script
