import Relay.Node.Identity

/-!
# Actions

A request to a node carries a list of actions, which the node runs in order. An action is a step of
its own, a call that ships further actions to another node, or a group of actions. Calls and groups
nest, so an action is a tree.
-/

namespace Relay

/-- How often and how an action runs. -/
structure Mode where
  /-- The number of repetitions; zero counts as one. -/
  repeats : UInt32 := 1
  /-- A waiting action blocks the list; any other one is launched beside it. -/
  wait : Bool := true
  /-- Whether the start of the action is logged. -/
  verbose : Bool := false
deriving DecidableEq

/-- A step without nested actions. -/
inductive Step where
  | log (message : Option String)
  /-- Wait for some milliseconds, or for the default time. -/
  | wait (duration : Option UInt64)
  | set (key : String) (value : Json)
  /-- Run a script on the store. -/
  | code (source : String)
  /-- End the list with a value. -/
  | ret (data : Json)
  /-- A kind of action that no node knows. -/
  | unknown (kind : String)

/-- A call to another node, without the actions that it ships. -/
structure Call where
  name : Option String := none
  description : Option String := none
  /-- Scheme, host and port of the receiver. -/
  origin : Option String := none
  /-- The name of the receiver; an origin takes precedence. -/
  node : Option String := none
  path : String := ""
  method : String := "GET"
  headers : Dict String := Dict.empty
  body : Option Json := none
  /-- The key under which the caller keeps the response. -/
  saveTo : Option String := none
  /-- How long a root request waits before it is sent, in seconds. -/
  startDelay : Float := 0

/-- One action of a list. -/
inductive Action where
  | step (mode : Mode) (step : Step)
  | call (mode : Mode) (call : Call) (shipped : List Action)
  | group (mode : Mode) (members : List Action)

namespace Step

/-- The kind as it is written in JSON. -/
def kind : Step → String
  | log _ => "log"
  | wait _ => "wait"
  | set _ _ => "set"
  | code _ => "code"
  | ret _ => "return"
  | unknown kind => kind

end Step

namespace Call

/-- Where the call goes; nowhere if it has neither an origin nor a node. -/
def target? (call : Call) : Option Target :=
  match call.origin with
  | some origin => some (.url (origin ++ call.path))
  | none => call.node.map fun name => .node name call.path

/-- How the call is named in messages. -/
def label (call : Call) : String :=
  match call.name with
  | some name => name
  | none =>
    match call.target? with
    | some target => target.text
    | none => "<no target>"

end Call

namespace Action

/-- How the action runs. -/
def mode : Action → Mode
  | step mode _ => mode
  | call mode _ _ => mode
  | group mode _ => mode

/-- The same action run in another way. -/
def withMode (mode : Mode) : Action → Action
  | step _ s => step mode s
  | call _ c shipped => call mode c shipped
  | group _ members => group mode members

/-- The kind as it is written in JSON. -/
def kind : Action → String
  | step _ s => s.kind
  | call _ _ _ => "http"
  | group _ _ => "multi"

/-- The nested actions. -/
def children : Action → List Action
  | step _ _ => []
  | call _ _ shipped => shipped
  | group _ members => members

/-- How often the action runs: at least once. -/
def repetitions (a : Action) : Nat :=
  max a.mode.repeats.toNat 1

mutual

/-- The number of actions on the longest path from this one down to a leaf. -/
def depth : Action → Nat
  | step _ _ => 1
  | call _ _ shipped => 1 + depthList shipped
  | group _ members => 1 + depthList members

/-- The greatest depth of the actions, zero if there are none. -/
def depthList : List Action → Nat
  | [] => 0
  | a :: rest => max a.depth (depthList rest)

end

/-- The message of a log step that has none of its own. -/
def defaultLogMessage : String := "No message provided"

end Action

end Relay
