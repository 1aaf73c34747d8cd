import Relay.Node.Service
import Relay.Client.ScriptHttp

/-!
# Starting a node

The settings of a node, the directory of the nodes that it can call and a transport make a service.
-/

namespace Relay

namespace NodeConfig

/-- How long the node waits for answers. -/
def patienceMs (config : NodeConfig) : Nat :=
  config.dispatchSeconds * 1000

/-- The interpreter of the node. -/
def interpreter (config : NodeConfig) (directory : Directory) (net : Transport) : Interpreter where
  config := config.executor
  scripts := Script.Sandbox.run ⟨config.script, some (scriptHttp config.patienceMs net)⟩
  dispatch := Sender.dispatch ⟨directory, config.patienceMs, net⟩

/-- The running node. -/
def service (config : NodeConfig) (directory : Directory) (net : Transport) : Service where
  name := config.name
  interpreter := config.interpreter directory net
  limits := config.payload

end NodeConfig

end Relay
