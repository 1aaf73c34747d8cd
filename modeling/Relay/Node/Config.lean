import Relay.Execution.Interpreter
import Relay.Node.Identity
import Relay.Toml.Parser

/-!
# Settings of a node

A node is set up by a document with a section for each of its parts, every field of which has a
default. Settings can be overridden one by one, and are checked before a node starts.
-/

namespace Relay

/-- The feature that telemetry depends on. -/
def telemetryFeature : String := "telemetry"

/-- The protocol by which telemetry is exported. -/
inductive ExportProtocol where
  | grpc
  | http
deriving DecidableEq, Repr

namespace ExportProtocol

/-- The name of a protocol. -/
def text : ExportProtocol → String
  | grpc => "grpc"
  | http => "http"

/-- The protocol of a name. -/
def ofName? : String → Option ExportProtocol
  | "grpc" => some grpc
  | "http" => some http
  | _ => none

/-- Read a protocol: its name, alone or with nothing attached to it. -/
def ofJson? : Json → Option ExportProtocol
  | .string name => ofName? name
  | .object [(name, .null)] => ofName? name
  | _ => none

end ExportProtocol

/-- Where and how much telemetry is exported. -/
structure TelemetryConfig where
  enabled : Bool := false
  endpoint : String := "http://localhost:4317"
  serviceName : Option String := none
  sampleRatio : Float := 1
  protocol : ExportProtocol := .grpc
  timeoutSeconds : Nat := 10
  resourceAttributes : Dict String := Dict.empty

/-- The settings of a node. -/
structure NodeConfig where
  name : String := "node"
  logLevel : String := "info"
  features : Dict Bool := Dict.empty
  host : String := "127.0.0.1"
  port : UInt16 := 3000
  /-- How long a node that stops waits for its tasks. -/
  shutdownSeconds : Nat := 30
  script : Script.Limits := {}
  executor : ExecutionConfig := {}
  /-- How long a node waits for answers to its requests. -/
  dispatchSeconds : Nat := 30
  payload : PayloadLimits := {}
  telemetry : TelemetryConfig := {}
  /-- The other nodes that are known by name. -/
  peers : List NodeIdentity := []

/-- Settings with which no node starts. -/
inductive ConfigFault where
  | emptyName
  | script (flaw : Script.ConfigFlaw)
  | noDepth
  | noPayload
  | noDispatchTime
  | sampleRatio (got : Float)
  | noEndpoint
  /-- A fault that was found elsewhere and is known by its description. -/
  | described (reason : String)

/-- Settings that take precedence over those of a document. -/
structure Overrides where
  name : Option String := none
  host : Option String := none
  port : Option UInt16 := none
  logLevel : Option String := none
  noTelemetry : Bool := false

/-- The fault in words. -/
def ConfigFault.message : ConfigFault → String
  | emptyName => "node.name must not be empty"
  | script flaw => (Script.ScriptError.invalidConfig flaw).message
  | noDepth => "executor.max_depth must be at least 1"
  | noPayload => "payload.max_depth and payload.max_bytes must be at least 1"
  | noDispatchTime => "dispatch.timeout_seconds must be at least 1"
  | sampleRatio got =>
    "telemetry.sample_ratio must be within 0.0..=1.0, got " ++ Decimal.plain got
  | noEndpoint => "telemetry.endpoint must be set when telemetry is enabled"
  | described reason => reason

/-- Read a section of a document; a section that is absent is read as an empty one. -/
def readSection (r : Record) (name : String) (fieldNames : List String) : Option Record :=
  r.withDefault name ⟨[]⟩ (Record.ofJson? fieldNames)

namespace TelemetryConfig

/-- The fields in the order in which a positional record lists them. -/
def fieldNames : List String :=
  ["enabled", "endpoint", "service_name", "sample_ratio", "protocol", "timeout_seconds",
    "resource_attributes"]

/-- Read the section about telemetry. -/
def ofRecord? (r : Record) : Option TelemetryConfig := do
  let enabled ← r.withDefault "enabled" false Json.asBool?
  let endpoint ← r.withDefault "endpoint" "http://localhost:4317" Json.asString?
  let serviceName ← r.optional "service_name" Json.asString?
  let sampleRatio ← r.withDefault "sample_ratio" 1 Json.asFloat?
  let protocol ← r.withDefault "protocol" .grpc ExportProtocol.ofJson?
  let timeoutSeconds ← r.withDefault "timeout_seconds" 10 Json.asCount?
  let resourceAttributes ←
    r.withDefault "resource_attributes" Dict.empty (Json.asDict? Json.asString?)
  return {
    enabled, endpoint, serviceName, sampleRatio, protocol, timeoutSeconds, resourceAttributes }

/-- Check the section about telemetry. -/
def fault? (t : TelemetryConfig) : Option ConfigFault :=
  if ¬(0 ≤ t.sampleRatio ∧ t.sampleRatio ≤ 1) then some (.sampleRatio t.sampleRatio)
  else if t.enabled ∧ (Text.trim t.endpoint).isEmpty then some .noEndpoint
  else none

end TelemetryConfig

namespace NodeConfig

/-- The sections in the order in which a positional document lists them. -/
def sectionNames : List String :=
  ["node", "server", "script", "executor", "dispatch", "payload", "telemetry", "topology"]

/-- Read settings. -/
def ofJson? (j : Json) : Option NodeConfig := do
  let r ← Record.ofJson? sectionNames j
  let node ← readSection r "node" ["name", "log_level", "features"]
  let name ← node.withDefault "name" "node" Json.asString?
  let logLevel ← node.withDefault "log_level" "info" Json.asString?
  let features ← node.withDefault "features" Dict.empty (Json.asDict? Json.asBool?)
  let server ← readSection r "server" ["host", "port", "shutdown_timeout_seconds"]
  let host ← server.withDefault "host" "127.0.0.1" Json.asString?
  let port ← server.withDefault "port" 3000 Json.asUInt16?
  let shutdownSeconds ← server.withDefault "shutdown_timeout_seconds" 30 Json.asCount?
  let script ← r.withDefault "script" {} Script.Limits.ofJson?
  let executor ← r.withDefault "executor" {} ExecutionConfig.ofJson?
  let dispatch ← readSection r "dispatch" ["timeout_seconds"]
  let dispatchSeconds ← dispatch.withDefault "timeout_seconds" 30 Json.asCount?
  let payload ← r.withDefault "payload" {} PayloadLimits.ofJson?
  let telemetry ← TelemetryConfig.ofRecord? (← readSection r "telemetry" TelemetryConfig.fieldNames)
  let topology ← readSection r "topology" ["nodes"]
  let peers ← topology.withDefault "nodes" [] (Json.asList? NodeIdentity.ofJson?)
  return {
    name, logLevel, features, host, port, shutdownSeconds, script, executor, dispatchSeconds,
    payload, telemetry, peers }

/-- Read settings from the text of a document. -/
def ofToml? (text : String) : Option NodeConfig :=
  (Toml.parse? text).bind ofJson?

/-- The settings with some of them overridden. -/
def override (config : NodeConfig) (o : Overrides) : NodeConfig :=
  { config with
    name := o.name.getD config.name
    host := o.host.getD config.host
    port := o.port.getD config.port
    logLevel := o.logLevel.getD config.logLevel
    features :=
      if o.noTelemetry then config.features.insert telemetryFeature false else config.features }

/-- The first fault of the settings, if they have one. -/
def fault? (config : NodeConfig) : Option ConfigFault :=
  if (Text.trim config.name).isEmpty then some .emptyName
  else
    match config.script.flaw? with
    | some flaw => some (.script flaw)
    | none =>
      if config.executor.maxDepth = 0 then some .noDepth
      else if config.payload.maxDepth = 0 ∨ config.payload.maxBytes = 0 then some .noPayload
      else if config.dispatchSeconds = 0 then some .noDispatchTime
      else config.telemetry.fault?

/-- How the node presents itself. -/
def identity (config : NodeConfig) : NodeIdentity where
  name := config.name
  host := config.host
  port := config.port
  logLevel := config.logLevel
  features := config.features

/-- The nodes that the node knows: its peers and itself, which goes first before a peer of its name.
-/
def directory (config : NodeConfig) : Directory :=
  (Directory.ofList config.peers).insert config.identity

/-- Whether telemetry is exported: it is enabled and the feature is not off. -/
def telemetryActive (config : NodeConfig) : Bool :=
  config.telemetry.enabled && config.identity.featureEnabled telemetryFeature

/-- The name of the service in telemetry. -/
def serviceName (config : NodeConfig) : String :=
  config.telemetry.serviceName.getD config.name

end NodeConfig

end Relay
