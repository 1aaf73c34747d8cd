import Relay.Client.NodeClient
import Relay.Node.Service

/-!
# What goes wrong in a simulation
-/

namespace Relay

/-- A scenario or a topology that cannot be set up. -/
inductive SetupFlaw where
  | duplicateNode (name : String)
  /-- A root request with neither an origin nor a node. -/
  | noTarget (label : String)
  | portTaken (port : UInt16)
deriving DecidableEq

/-- Why a simulation cannot start, or a request of it fails. -/
inductive SimulationError where
  | setup (flaw : SetupFlaw)
  | scenario (reason : String)
  | portsExhausted
  | nodeNotFound (name : String)
  | io (reason : String)
  | node (cause : NodeError)
  | nodeFailed (name reason : String)
  | dispatch (cause : DispatchError)
  | client (cause : ClientError)

/-- The flaw in words. -/
def SetupFlaw.message : SetupFlaw → String
  | duplicateNode name => "node " ++ name ++ " is defined more than once"
  | noTarget label => "root request " ++ label ++ " has neither origin nor node"
  | portTaken port => "port " ++ toString port.toNat ++ " is assigned to more than one node"

/-- The error in words. -/
def SimulationError.message : SimulationError → String
  | setup flaw => "configuration error: " ++ flaw.message
  | scenario reason => "invalid scenario: " ++ reason
  | portsExhausted => "no ports available for allocation"
  | nodeNotFound name => "node not found: " ++ name
  | io reason => "io error: " ++ reason
  | node cause => "node error: " ++ cause.message
  | nodeFailed name reason => "node " ++ name ++ " failed: " ++ reason
  | dispatch cause => "dispatch error: " ++ cause.message
  | client cause => "client error: " ++ cause.message

end Relay
