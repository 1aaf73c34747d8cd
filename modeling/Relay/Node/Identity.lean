import Relay.Json.Record

/-!
# Service nodes and their addresses

A node is known by its name; its identity adds where it listens, how much it logs and which
features are switched on or off. Calls go to a URL or to a node by name, and a directory turns the
second kind into the first.
-/

namespace Relay

/-- Who a node is and where it listens. -/
structure NodeIdentity where
  name : String
  host : String := "127.0.0.1"
  /-- Zero asks for any free port. -/
  port : UInt16 := 0
  logLevel : String := "info"
  features : Dict Bool := Dict.empty
deriving DecidableEq

namespace NodeIdentity

/-- The fields in the order in which a positional record lists them. -/
def fieldNames : List String := ["name", "host", "port", "log_level", "features"]

/-- Read an identity; only the name is needed. -/
def ofJson? (j : Json) : Option NodeIdentity := do
  let r ← Record.ofJson? fieldNames j
  let name ← r.required "name" Json.asString?
  let host ← r.withDefault "host" "127.0.0.1" Json.asString?
  let port ← r.withDefault "port" 0 Json.asUInt16?
  let logLevel ← r.withDefault "log_level" "info" Json.asString?
  let features ← r.withDefault "features" Dict.empty (Json.asDict? Json.asBool?)
  return { name, host, port, logLevel, features }

/-- An identity as JSON; an empty set of features is left out. -/
def toJson (node : NodeIdentity) : Json :=
  let features :=
    if node.features.entries.isEmpty then []
    else [("features", Json.object (node.features.map Json.bool).entries)]
  Json.ofFields <|
    [("name", .string node.name), ("host", .string node.host),
      ("port", Json.ofNat node.port.toNat), ("log_level", .string node.logLevel)] ++ features

/-- A feature is on unless it is listed as off. -/
def featureEnabled (node : NodeIdentity) (feature : String) : Bool :=
  (node.features.get? feature).getD true

/-- The address of the node. -/
def baseUrl (node : NodeIdentity) : String :=
  "http://" ++ node.host ++ ":" ++ toString node.port.toNat

end NodeIdentity

/-- Where a call goes. -/
inductive Target where
  /-- A complete URL. -/
  | url (address : String)
  /-- A path on a node known by name. -/
  | node (name path : String)
deriving DecidableEq

/-- A target in messages. -/
def Target.text : Target → String
  | .url address => address
  | .node name path => "node://" ++ name ++ path

/-- The nodes of a simulation by name. -/
structure Directory where
  nodes : Dict NodeIdentity := Dict.empty

namespace Directory

/-- Register a node; it replaces one of the same name. -/
def insert (directory : Directory) (node : NodeIdentity) : Directory :=
  ⟨directory.nodes.insert node.name node⟩

/-- Register nodes in order. -/
def ofList (nodes : List NodeIdentity) : Directory :=
  nodes.foldl insert {}

/-- The node of a name. -/
def get? (directory : Directory) (name : String) : Option NodeIdentity :=
  directory.nodes.get? name

/-- The URL of a target, unless it names a node that is not registered. -/
def resolve (directory : Directory) : Target → Option String
  | .url address => some address
  | .node name path => (directory.get? name).map fun node => node.baseUrl ++ path

end Directory

end Relay
