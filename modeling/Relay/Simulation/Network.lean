import Relay.Node.Start

/-!
# Networks

A network carries requests that may lead to further requests, which it carries as well. For each
number of hops there is a transport: the nodes that it reaches answer with the transport of one hop
less.
-/

namespace Relay

/-- The transport for each number of hops. -/
abbrev Network := Nat → Transport

namespace Network

/-- The network on which no connection is made. -/
def refusing : Network := fun _ _ => ⟨.error "connection refused", {}⟩

/-- Servers that are not simulated, as a network. -/
def ofServers (servers : Transport) : Network := fun _ => servers

end Network

/-- Where requests end up: the node that a URL leads to, with the place there that is asked for, and
what answers the requests that lead to no node. A node may be reached by several spellings of its
address, or by none. -/
structure Routing where
  node? : String → Option (NodeConfig × String)
  outside : Transport

/-- Whether a node is reached by its address as it stands. With a colon in its host the address is
no URL. -/
def NodeConfig.isAt (node : NodeConfig) (origin : String) : Bool :=
  node.identity.baseUrl = origin && !node.host.toList.contains ':'

/-- Nodes that are reached by their addresses as they stand. -/
def Routing.direct (nodes : List NodeConfig) (outside : Transport) : Routing where
  node? url :=
    let (origin, rest) := Http.splitOrigin url
    (nodes.find? (·.isAt origin)).map (·, String.ofList rest)
  outside := outside

/-- The network of nodes that share a directory. -/
def Network.ofNodes (directory : Directory) (routing : Routing) : Network
  | 0 => fun _ => ⟨.error "no hops left", {}⟩
  | hops + 1 => fun r =>
    match routing.node? r.url with
    | none => routing.outside r
    | some (node, place) =>
      let service := node.service directory (ofNodes directory routing hops)
      let reply := service.handle { r with url := place }
      ⟨.ok reply.result, reply.effects⟩

end Relay
