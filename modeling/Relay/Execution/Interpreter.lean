import Relay.Execution.Trace
import Relay.Store.Template

/-!
# Running lists of actions

Actions run in order on one store. A waiting action blocks the list; any other one becomes a task,
which runs on a copy of the store and cannot be felt by the list that launched it. Since tasks share
nothing, each is run to its end when it is launched and recorded with the times at which things
happen in it.
-/

namespace Relay

/-- How a node runs actions. -/
structure ExecutionConfig where
  /-- How deep groups may nest; a flat list has depth one. -/
  maxDepth : Nat := 32
  /-- The time of a wait that has none of its own, in milliseconds. -/
  defaultWaitMs : UInt64 := 1000
deriving DecidableEq

namespace ExecutionConfig

/-- The fields in the order in which a positional record lists them. -/
def fieldNames : List String := ["max_depth", "default_wait_ms"]

/-- Read a configuration; every field has a default. -/
def ofJson? (j : Json) : Option ExecutionConfig := do
  let r ← Record.ofJson? fieldNames j
  let maxDepth ← r.withDefault "max_depth" 32 Json.asCount?
  let defaultWaitMs ← r.withDefault "default_wait_ms" 1000 Json.asUInt64?
  return { maxDepth, defaultWaitMs }

/-- A configuration as JSON. -/
def toJson (config : ExecutionConfig) : Json :=
  Json.ofFields [("max_depth", Json.ofNat config.maxDepth),
    ("default_wait_ms", Json.ofUInt64 config.defaultWaitMs)]

end ExecutionConfig

/-- What answers requests: the request alone determines the answer, its delay and its effects. -/
abbrev Dispatcher := Request → Reply (Except DispatchError Json)

/-- What a list of actions runs in. -/
structure Interpreter where
  config : ExecutionConfig := {}
  scripts : Script.Hook
  dispatch : Dispatcher

/-- How far an execution has come. Events and tasks are held last first. -/
structure ExecutionState where
  store : Store
  now : Nat := 0
  events : Events := []
  tasks : List Task := []

/-- A computation that changes the store, passes time, is seen and may fail. -/
abbrev Executing := ExceptT ExecutionError (StateM ExecutionState)

namespace Executing

/-- Note an event at the present time. -/
def note (event : Event) : Executing Unit :=
  modify fun st => { st with events := (st.now, event) :: st.events }

/-- Let time pass. -/
def pass (ms : Nat) : Executing Unit :=
  modify fun st => { st with now := st.now + ms }

/-- Write an entry of the store. -/
def keep (key : String) (value : Json) : Executing Unit :=
  modify fun st => { st with store := st.store.insert key value }

/-- Place a part of the computation at the present time. -/
def absorb (effects : Effects) : Executing Unit :=
  modify fun st => { st with
    now := st.now + effects.elapsed
    events := (effects.events.shift st.now).reverseAux st.events
    tasks := (effects.tasks.map (Task.shift st.now)).reverseAux st.tasks }

/-- The value of a computation that cannot be seen, or its failure. -/
def ofExcept {ε α : Type} (wrap : ε → ExecutionError) : Except ε α → Executing α
  | .ok value => return value
  | .error e => throw (wrap e)

/-- Launch one repetition of an action as a task. -/
def launch (action : Action) (depth : Nat) (once : Executing Flow) : Executing Unit :=
  modify fun st =>
    let (result, ended) := once { store := st.store, now := st.now }
    let task : Task := {
      action, depth, result
      snapshot := st.store
      launched := st.now
      store := ended.store
      ended := ended.now
      events := ended.events.reverse ++ Task.failureEvents action.kind ended.now result }
    { st with tasks := ended.tasks ++ task :: st.tasks }

/-- Do something a number of times, or until it returns. -/
def repeated (once : Executing Flow) : Nat → Executing (Option Json)
  | 0 => return none
  | n + 1 => do
    match ← once with
    | .ret value => return some value
    | .next _ => repeated once n

/-- Do something a number of times. -/
def times (once : Executing Unit) : Nat → Executing Unit
  | 0 => return ()
  | n + 1 => do
    once
    times once n

end Executing

namespace Interpreter

open Executing

/-- Run a script on the store. What it wrote stays written, even if it fails. -/
def runScript (i : Interpreter) (source : String) : Executing Json := do
  note (.scriptRun source)
  let ended := i.scripts source (← get).store
  modify fun st => { st with store := ended.store }
  absorb {
    elapsed := ended.elapsed
    events := ended.events.map fun event => (event.1, .script event.2) }
  ofExcept .script ended.result

/-- Run a step. -/
def performStep (i : Interpreter) : Step → Executing Flow
  | .log message => do
    let message := message.getD Action.defaultLogMessage
    note (.logged message)
    return .next (Ack.logged message).toJson
  | .wait duration => do
    let duration := duration.getD i.config.defaultWaitMs
    pass duration.toNat
    return .next (Ack.waited duration).toJson
  | .set key value => do
    keep key value
    return .next (Ack.set key value).toJson
  | .code source => return .next (← i.runScript source)
  | .ret data => return .ret ((← get).store.resolve data)
  | .unknown kind => do
    note (.unknownKind kind)
    return .next (unknownKind kind)

/-- Send a request and wait for the answer. -/
def send (i : Interpreter) (request : Request) : Executing Json := do
  note (.sent request)
  let reply := i.dispatch request
  absorb reply.effects
  ofExcept .dispatch reply.result

/-- Make a call. A response that counts as nothing is not stored. -/
def performCall (i : Interpreter) (call : Call) (shipped : List Action) : Executing Flow := do
  let request ← ofExcept .dispatch (Request.ofCall call shipped)
  let response ← i.send request
  if let some key := call.saveTo then
    if response.truthy then keep key response
    else note (.emptyResponse call.label key)
  return .next response

/-- Refuse a list that is nested too deep. -/
def checkDepth (i : Interpreter) (depth : Nat) : Executing Unit :=
  if i.config.maxDepth < depth then throw (.tooDeep depth i.config.maxDepth) else return ()

mutual

/-- Run one repetition of an action of a list at the given depth. -/
def perform (i : Interpreter) (depth : Nat) : Action → Executing Flow
  | .step _ s => i.performStep s
  | .call _ call shipped => i.performCall call shipped
  | .group _ members => do
    i.checkDepth (depth + 1)
    i.performAll (depth + 1) members

/-- Run the actions of a list at the given depth in order. A list that ends without a return has the
empty array for a value. -/
def performAll (i : Interpreter) (depth : Nat) : List Action → Executing Flow
  | [] => return .next (.array [])
  | a :: rest => do
    if a.mode.verbose then note (.processing a.kind a.mode)
    if a.mode.wait then
      match ← repeated (i.perform depth a) a.repetitions with
      | some value => return .ret value
      | none => i.performAll depth rest
    else
      times (launch a depth (i.perform depth a)) a.repetitions
      i.performAll depth rest

end

/-- How an execution ends. -/
structure Ended where
  result : Except ExecutionError Flow
  store : Store
  effects : Effects

/-- Run a list of actions on a store. -/
def execute (i : Interpreter) (actions : List Action) (store : Store) : Ended :=
  let whole : Executing Flow := do
    i.checkDepth 1
    i.performAll 1 actions
  let (result, st) := whole { store }
  ⟨result, st.store, ⟨st.now, st.events.reverse, st.tasks.reverse⟩⟩

/-- Run a list of actions as one invocation, on an empty store. The answer is the value of the
return that ended it, the empty array if there was none, or a failure value. -/
def run (i : Interpreter) (actions : List Action) : Reply Json :=
  let ended := i.execute actions Dict.empty
  match ended.result with
  | .ok (.ret value) => ⟨value, ended.effects⟩
  | .ok (.next _) => ⟨.array [], ended.effects⟩
  | .error e =>
    let events := ended.effects.events ++ [(ended.effects.elapsed, .failed e)]
    ⟨failureValue e.message e.code, { ended.effects with events }⟩

end Interpreter

end Relay
