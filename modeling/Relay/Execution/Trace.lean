import Relay.Execution.Request
import Relay.Action.Outcome
import Relay.Script.Sandbox

/-!
# What can be seen of an execution

An execution takes time, logs, sends requests and launches tasks. Times count from the start of the
computation that they belong to; a part of a computation is placed in the whole by shifting it.
-/

namespace Relay

/-- How an action or a list of actions ends, if it does not fail: with its own value, or with the
value of a return that ends everything around it. -/
inductive Flow where
  | next (value : Json)
  | ret (value : Json)

/-- The value of a flow. -/
def Flow.value : Flow → Json
  | next value => value
  | ret value => value

/-- Why a list of actions fails. -/
inductive ExecutionError where
  | script (cause : Script.ScriptError)
  | dispatch (cause : DispatchError)
  /-- Groups nest deeper than the node allows. -/
  | tooDeep (depth limit : Nat)

namespace ExecutionError

/-- The error in words. -/
def message : ExecutionError → String
  | script cause => cause.message
  | dispatch cause => cause.message
  | tooDeep depth limit =>
    "action nesting depth " ++ toString depth ++ " exceeds limit " ++ toString limit

/-- The code of the error in failure values. -/
def code : ExecutionError → String
  | script cause => cause.code
  | dispatch cause => cause.code
  | tooDeep _ _ => "DEPTH_EXCEEDED"

end ExecutionError

/-- What is logged or sent in the course of an execution. The lines of the runtime itself that serve
for debugging only are left out: that a detached action is launched or that its return is discarded,
that a request is dispatched and how a server answered it, and that a script has finished. -/
inductive Event where
  /-- A verbose action is about to run. -/
  | processing (kind : String) (mode : Mode)
  | logged (message : String)
  | unknownKind (kind : String)
  /-- A response that counts as nothing was not stored. -/
  | emptyResponse (call key : String)
  /-- An invocation ends with an error. -/
  | failed (error : ExecutionError)
  /-- A task ends with an error. -/
  | taskFailed (kind : String) (error : ExecutionError)
  | sent (request : Request)
  | scriptRun (source : String)
  | script (event : Script.Event)

/-- Events with the times at which they happen, in order. -/
abbrev Events := List (Nat × Event)

/-- One repetition of an action that runs beside the list that launched it, on a copy of the store
as it was then. -/
structure Task where
  action : Action
  snapshot : Store
  /-- The nesting depth of the list that launched it. -/
  depth : Nat
  launched : Nat
  result : Except ExecutionError Flow
  /-- The store that the task ends with. -/
  store : Store
  ended : Nat
  events : Events

/-- What a computation does besides giving a result. -/
structure Effects where
  elapsed : Nat := 0
  events : Events := []
  /-- The tasks that it launched, and those that these launched in turn. -/
  tasks : List Task := []

/-- A result and what was done for it. -/
structure Reply (α : Type) where
  result : α
  effects : Effects := {}

/-- Events of a part that starts at the given time. -/
def Events.shift (start : Nat) (events : Events) : Events :=
  events.map fun event => (start + event.1, event.2)

/-- A task of a part that starts at the given time. -/
def Task.shift (start : Nat) (task : Task) : Task :=
  { task with
    launched := start + task.launched
    ended := start + task.ended
    events := task.events.shift start }

/-- Effects of a part that starts after some time. -/
def Effects.after (delay : Nat) (effects : Effects) : Effects where
  elapsed := delay + effects.elapsed
  events := effects.events.shift delay
  tasks := effects.tasks.map (Task.shift delay)

/-- Effects of two computations that run beside each other. -/
def Effects.beside (a b : Effects) : Effects where
  elapsed := max a.elapsed b.elapsed
  events := List.merge a.events b.events fun x y => x.1 ≤ y.1
  tasks := a.tasks ++ b.tasks

/-- A note of a task's failure, if it fails. -/
def Task.failureEvents (kind : String) (ended : Nat) : Except ExecutionError Flow → Events
  | .ok _ => []
  | .error e => [(ended, .taskFailed kind e)]

end Relay
