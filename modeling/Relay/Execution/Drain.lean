import Relay.Execution.Trace

/-!
# Waiting for tasks

A node that stops waits for the tasks that its executions left running, but not for ever. What a
task does at the very moment at which the waiting ends comes too late.
-/

namespace Relay

/-- What waiting for tasks came to. -/
structure Drained where
  /-- The tasks that were still running. -/
  remaining : List Task
  /-- What each task was seen to do. -/
  traces : List Events

namespace Task

/-- Whether a task has been launched but is still running when the waiting that began at one time
ends at another. -/
def pendingAt (task : Task) (began deadline : Nat) : Bool :=
  (task.launched < deadline || task.launched ≤ began) && deadline ≤ task.ended

/-- What a task is seen to do before the deadline. -/
def seenBefore (task : Task) (deadline : Nat) : Events :=
  task.events.filter fun event => event.1 < deadline

end Task

/-- Wait some milliseconds for the tasks of a computation, from its end on. -/
def Effects.drain (effects : Effects) (patience : Nat) : Drained :=
  let deadline := effects.elapsed + patience
  ⟨effects.tasks.filter (·.pendingAt effects.elapsed deadline),
    effects.tasks.map (·.seenBefore deadline)⟩

end Relay
