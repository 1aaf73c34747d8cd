import Relay.Simulation.Run

/-!
# The command line

Runs a scenario from a file on a network that has no servers but the simulated nodes, and prints the
report. The exit code tells whether every root request succeeded.
-/

namespace Relay

/-- What the command line asks for. -/
structure CommandLine where
  scenario : String
  config : Option String := none

namespace CommandLine

/-- How the command is used. -/
def usage : String := "usage: relay [--config FILE] SCENARIO"

/-- Read arguments after those that were read before: the file of the scenario, and an option with
the file of the settings of every node. Each is given at most once. -/
def readArgs (scenario config : Option String) : List String → Option CommandLine
  | [] => scenario.map fun scenario => { scenario, config }
  | "--config" :: file :: rest => if config.isSome then none else readArgs scenario (some file) rest
  | "-c" :: file :: rest => if config.isSome then none else readArgs scenario (some file) rest
  | file :: rest =>
    if file.startsWith "-" ∨ scenario.isSome then none else readArgs (some file) config rest

/-- What arguments ask for, if they are well formed. -/
def ofArgs? (args : List String) : Option CommandLine :=
  readArgs none none args

end CommandLine

/-- Read the settings of every node. Without a file, and with a file that does not exist, they are
the defaults. -/
def loadConfig (path : Option String) : IO (Except SimulationError NodeConfig) := do
  match path with
  | none => return .ok {}
  | some path =>
    match ← (IO.FS.readFile path).toBaseIO with
    | .error (.noFileOrDirectory _ _ _) => return .ok {}
    | .error e => return .error (.io (toString e))
    | .ok text =>
      match NodeConfig.ofToml? text with
      | some config => return .ok config
      | none => return .error (.node (.config (.described ("invalid settings in " ++ path))))

/-- Read a scenario. -/
def loadScenario (path : String) : IO (Except SimulationError Scenario) := do
  match ← (IO.FS.readFile path).toBaseIO with
  | .error e => return .error (.scenario ("cannot read " ++ path ++ ": " ++ toString e))
  | .ok text => return Scenario.parse text

/-- Run a scenario and print the report. -/
def runCommand (line : CommandLine) : IO UInt32 := do
  let base ← loadConfig line.config
  let scenario ← loadScenario line.scenario
  let outcome := do runScenario (← scenario) (← base) Machine.source (Network.refusing 0)
  match outcome with
  | .error e =>
    IO.eprintln e.message
    return 1
  | .ok report =>
    IO.println report.toJson.pretty
    return if report.failed = 0 then 0 else 1

end Relay

def main (args : List String) : IO UInt32 := do
  match Relay.CommandLine.ofArgs? args with
  | some line => Relay.runCommand line
  | none =>
    IO.eprintln Relay.CommandLine.usage
    return 2
