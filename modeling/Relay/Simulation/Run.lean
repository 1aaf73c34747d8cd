import Relay.Simulation.Scenario
import Relay.Simulation.Report
import Relay.Simulation.Ports
import Relay.Simulation.Network

/-!
# Running scenarios

Every node that the requests call by name is started on a port of its own, and all of them share one
directory. Then each root request is sent after its start delay, beside the others. Requests share
nothing but the nodes, and nodes keep nothing from one invocation to the next.
-/

namespace Relay

/-- A scenario whose nodes are running. -/
structure Simulation where
  scenario : Scenario
  /-- The settings of each node, with the port that it listens on. -/
  nodes : List NodeConfig
  directory : Directory
  ports : PortAllocator
  /-- How long root requests wait for answers. -/
  patienceMs : Nat

namespace Simulation

/-- The settings of a node: the common ones with the node's own identity. -/
def nodeConfig (base : NodeConfig) (identity : NodeIdentity) : NodeConfig :=
  { base with
    name := identity.name
    host := identity.host
    port := identity.port
    logLevel := identity.logLevel
    features := identity.features }

/-- Bind a port for each node in order; the nodes that have theirs are held last first. -/
def bindAll (answers : PortAnswers) (ports : PortAllocator) (machine : Machine)
    (bound : List NodeIdentity) :
    List NodeIdentity → Except SimulationError (List NodeIdentity × PortAllocator)
  | [] => .ok (bound.reverse, ports)
  | identity :: rest => do
    let (port, ports) ← ports.bind (answers machine identity.host) identity.port
    bindAll answers ports (machine.occupy port identity.host) ({ identity with port } :: bound) rest

/-- The settings of a node, if a node can start with them. -/
def checkedConfig (base : NodeConfig) (identity : NodeIdentity) :
    Except SimulationError NodeConfig :=
  let config := nodeConfig base identity
  match config.fault? with
  | some fault => .error (.node (.config fault))
  | none => .ok config

/-- Start the nodes that a scenario needs, where ports are bound as the answers say. -/
def start (scenario : Scenario) (base : NodeConfig) (answers : PortAnswers) :
    Except SimulationError Simulation := do
  scenario.validate
  let (identities, ports) ← bindAll answers {} {} [] (← scenario.referencedNodes)
  let nodes ← identities.mapM (checkedConfig base)
  return {
    scenario, nodes, ports
    directory := Directory.ofList identities
    patienceMs := base.patienceMs }

/-- The network of the nodes. -/
def network (sim : Simulation) (routing : Routing) : Network :=
  Network.ofNodes sim.directory routing

/-- The client of a node. -/
def client (sim : Simulation) (net : Transport) (name : String) :
    Except SimulationError NodeClient :=
  match sim.nodes.find? (·.name = name) with
  | some node => .ok (NodeClient.ofAddress node.identity.baseUrl net)
  | none => .error (.nodeNotFound name)

/-- Send a root request at once. The request itself is the first hop; each nested call is one more.
-/
def send (sim : Simulation) (net : Network) (r : RootRequest) :
    Reply (Except SimulationError Json) :=
  match Request.ofCall r.call r.actions with
  | .error e => ⟨.error (.dispatch e), {}⟩
  | .ok request =>
    let sender : Sender :=
      ⟨sim.directory, sim.patienceMs, net (Action.depthList r.actions + 1)⟩
    let reply := sender.dispatch request
    ⟨reply.result.mapError .dispatch, reply.effects⟩

/-- The start delay of a call in milliseconds. A delay that is negative, not a number or far too
long is none. -/
def delayMs (seconds : Float) : Nat :=
  if 0 ≤ seconds ∧ seconds < 18446744073709551616.0 then
    let whole := seconds.floor
    let nanoseconds := ((seconds - whole) * 1000000000.0).round.toUInt64.toNat
    whole.toUInt64.toNat * 1000 + (nanoseconds + 999999) / 1000000
  else 0

/-- The entry of a request in the report. -/
def entry (r : RootRequest) (result : Except SimulationError Json) : RequestReport :=
  match result with
  | .ok response => { request := r.call.label, response := some response }
  | .error e => { request := r.call.label, error := some e.message }

/-- Send a root request after its start delay. -/
def fire (sim : Simulation) (net : Network) (r : RootRequest) : Reply RequestReport :=
  let reply := sim.send net r
  ⟨entry r reply.result, reply.effects.after (delayMs r.call.startDelay)⟩

/-- Send all root requests beside each other. -/
def run (sim : Simulation) (net : Network) : Reply Report :=
  let replies := sim.scenario.requests.map (sim.fire net)
  ⟨⟨replies.map (·.result)⟩, replies.foldl (fun effects reply => effects.beside reply.effects) {}⟩

/-- Stop the nodes: their ports are free again. -/
def stop (sim : Simulation) : PortAllocator :=
  sim.nodes.foldl (fun ports node => ports.release node.port) sim.ports

end Simulation

/-- Start a scenario, run it on the network of its nodes and report. -/
def runScenario (scenario : Scenario) (base : NodeConfig) (answers : PortAnswers)
    (outside : Transport) : Except SimulationError Report := do
  let sim ← Simulation.start scenario base answers
  return (sim.run (sim.network (.direct sim.nodes outside))).result

end Relay
