import Relay.Simulation.Error
import Relay.Json.Outline

/-!
# Scenarios

A scenario lists nodes and root requests. The requests are calls from outside, each of which ships
actions to a node; the nodes that are called by name anywhere in them have to be defined.
-/

namespace Relay

/-- A call from outside the simulated nodes. -/
structure RootRequest where
  call : Call
  actions : List Action

/-- The nodes of a simulation and the requests that drive it. -/
structure Scenario where
  nodes : List NodeIdentity := []
  requests : List RootRequest := []

/-- The method of root requests that do not name one. -/
def rootMethod : String := "POST"

namespace RootRequest

/-- Read a request as it stands. -/
def ofJson? (j : Json) : Option RootRequest := do
  let r ← Record.ofJson? Call.fieldNames j
  let actions ← r.withDefault "actions" [] fun j => (Action.ofJsonList j).toOption
  let call ← Call.ofRecord? r
  return { call, actions }

/-- A request object with the default method written out. -/
def withMethod : Json → Json
  | .object fields =>
    if (fields.lookup "method").isSome then .object fields
    else .object (Fields.insert "method" (.string rootMethod) fields)
  | j => j

/-- A request as JSON. -/
def toJson (r : RootRequest) : Json :=
  Json.ofFields (r.call.toFields (.array (Action.toJsonList r.actions)))

end RootRequest

/-- What a walk over calls has found: the names of nodes, each once and the last one first, and the
set of them. -/
structure Visited where
  names : List String := []
  seen : List String := []

namespace Visited

/-- Note a name, unless it is known. -/
def note (visited : Visited) (name : String) : Visited :=
  if name ∈ visited.seen then visited
  else { names := name :: visited.names, seen := name :: visited.seen }

/-- Note the node that a call addresses by name. A call with an origin addresses none. -/
def call (visited : Visited) (c : Call) : Visited :=
  match c.origin, c.node with
  | none, some node => visited.note node
  | _, _ => visited

end Visited

mutual

/-- Visit an action, a call before the actions that it ships. -/
def Action.visit (visited : Visited) : Action → Visited
  | .step _ _ => visited
  | .call _ c shipped => visitActions (visited.call c) shipped
  | .group _ members => visitActions visited members

/-- Visit actions in order. -/
def visitActions (visited : Visited) : List Action → Visited
  | [] => visited
  | a :: rest => visitActions (a.visit visited) rest

end

/-- Visit the call of a root request and then the actions that it ships. -/
def RootRequest.visit (visited : Visited) (r : RootRequest) : Visited :=
  visitActions (visited.call r.call) r.actions

/-- The names of the nodes that requests call, in the order in which a walk over them finds them. -/
def collectNodes (requests : List RootRequest) : List String :=
  (requests.foldl RootRequest.visit {}).names.reverse

/-- The first item of a list that occurs earlier in it. -/
def firstRepeated? (seen : List String) : List String → Option String
  | [] => none
  | item :: rest => if item ∈ seen then some item else firstRepeated? (item :: seen) rest

namespace Scenario

/-- The fields in the order in which a positional record lists them. -/
def fieldNames : List String := ["nodes", "requests"]

/-- Read a scenario. -/
def ofJson? (j : Json) : Option Scenario := do
  let r ← Record.ofJson? fieldNames j
  let nodes ← r.withDefault "nodes" [] (Json.asList? NodeIdentity.ofJson?)
  let requests ← r.withDefault "requests" []
    (Json.asList? fun j => RootRequest.ofJson? (RootRequest.withMethod j))
  return { nodes, requests }

/-- Whether the text of an object names one of the given fields twice. -/
def repeatsField (names : List String) (text : List Char) : Bool :=
  match Json.fieldTexts? text with
  | some fields => (firstRepeated? [] ((fields.map (·.1)).filter names.contains)).isSome
  | none => false

/-- Whether the text of a scenario names a field of the scenario, or of one of its nodes, twice. -/
def repeatsFields (text : List Char) : Bool :=
  repeatsField fieldNames text ||
    match (Json.fieldTexts? text).bind (·.lookup "nodes") with
    | some nodes =>
      ((Json.itemTexts? nodes).getD []).any (repeatsField NodeIdentity.fieldNames)
    | none => false

/-- Read a scenario from its text. A field may be given once. -/
def parse (text : String) : Except SimulationError Scenario :=
  match Json.parse? text with
  | none => .error (.scenario "invalid JSON")
  | some j =>
    if repeatsFields text.toList then .error (.scenario "duplicate field")
    else
      match ofJson? j with
      | some scenario => .ok scenario
      | none => .error (.scenario "invalid scenario")

/-- A scenario as JSON. -/
def toJson (s : Scenario) : Json :=
  Json.ofFields [("nodes", .array (s.nodes.map NodeIdentity.toJson)),
    ("requests", .array (s.requests.map RootRequest.toJson))]

/-- Check that the nodes have names of their own and that every root request has a target. -/
def validate (s : Scenario) : Except SimulationError Unit :=
  match firstRepeated? [] (s.nodes.map (·.name)) with
  | some name => .error (.setup (.duplicateNode name))
  | none =>
    match s.requests.find? fun r => r.call.target?.isNone with
    | some r => .error (.setup (.noTarget r.call.label))
    | none => .ok ()

/-- The node of a name. -/
def node (s : Scenario) (name : String) : Except SimulationError NodeIdentity :=
  match s.nodes.find? (·.name = name) with
  | some node => .ok node
  | none => .error (.nodeNotFound name)

/-- The nodes that the requests call by name, in order of their first occurrence. -/
def referencedNodes (s : Scenario) : Except SimulationError (List NodeIdentity) :=
  (collectNodes s.requests).mapM s.node

end Scenario

end Relay
