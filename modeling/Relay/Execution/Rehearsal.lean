import Relay.Execution.Interpreter

/-!
# Rehearsals

A rehearsal runs actions without a network. Some targets have canned answers; every other call is
answered at once by running the actions that it ships, just as the called node would, with the
interpreter of the caller and on a store of their own.
-/

namespace Relay

/-- A canned answer. -/
inductive CannedAnswer where
  | value (value : Json)
  | transport (reason : String)
  | undecodable (reason : String)

/-- A rule that answers requests. -/
structure Stub where
  /-- The text of the target that it answers for; none stands for every target. -/
  target : Option String := none
  delay : Nat := 0
  answer : CannedAnswer

namespace Stub

/-- Whether the rule answers a request. -/
def fits (stub : Stub) (request : Request) : Bool :=
  match stub.target with
  | some text => text = request.target.text
  | none => true

/-- The answer to a request. -/
def reply (stub : Stub) (request : Request) : Reply (Except DispatchError Json) where
  result :=
    match stub.answer with
    | .value value => .ok value
    | .transport reason => .error (.transport reason)
    | .undecodable reason => .error (.undecodable request.target.text reason)
  effects := { elapsed := stub.delay }

end Stub

/-- The surroundings of a rehearsal. -/
structure Rehearsal where
  config : ExecutionConfig := {}
  scripts : Script.Hook
  stubs : List Stub := []
  /-- The names of the nodes that can be called. -/
  nodes : List String := []
  limits : PayloadLimits := {}

namespace Rehearsal

/-- The node that a target names, if there is no such node. -/
def stranger? (r : Rehearsal) : Target → Option String
  | .url _ => none
  | .node name _ => if name ∈ r.nodes then none else some name

/-- Ship actions and read them as the called node does. -/
def receive (r : Rehearsal) (actions : List Action) : Except DispatchError (List Action) :=
  match Payload.decode r.limits (Payload.encode actions) with
  | .ok actions => .ok actions
  | .error flaw => .error (.payload (.malformed flaw))

/-- Answer requests for a number of hops. Shipped actions are less deep than the list that ships
them, so as many hops as a list is deep are enough for it. -/
def dispatch (r : Rehearsal) : Nat → Dispatcher
  | 0 => fun _ => ⟨.error (.transport "no hops left"), {}⟩
  | hops + 1 => fun request =>
    match r.stubs.find? (·.fits request) with
    | some stub => stub.reply request
    | none =>
      match r.stranger? request.target with
      | some name => ⟨.error (.unknownNode name), {}⟩
      | none =>
        match r.receive request.actions with
        | .error e => ⟨.error e, {}⟩
        | .ok actions =>
          let reply := Interpreter.run ⟨r.config, r.scripts, dispatch r hops⟩ actions
          ⟨.ok reply.result, reply.effects⟩

/-- The interpreter that runs the given actions. -/
def interpreter (r : Rehearsal) (actions : List Action) : Interpreter :=
  ⟨r.config, r.scripts, r.dispatch (Action.depthList actions)⟩

end Rehearsal

end Relay
