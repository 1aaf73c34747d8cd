import Relay.Script.Exec

/-!
# The sandbox

A sandbox takes the text of a script, checks its length and its nesting, runs it on a store within
the time limit and answers with the value that the script returned, as JSON.
-/

namespace Relay.Script

/-- The result of a program as JSON; a program that just ends results in null. -/
def Control.toJson : Control → Json
  | next => .null
  | ret v => v.toJson

/-- A sandbox runs scripts under limits. -/
structure Sandbox where
  limits : Limits := {}
  http : Option (HttpCall → HttpReply) := none

/-- What runs the scripts of a node: the text of a script and a store determine the outcome. -/
abbrev Hook := String → Store → Outcome Json

/-- What a script that runs has around it. -/
structure Host where
  http : Option HttpServer := none
  clock : Clock := .stopped

/-- A run under limits is cut off at the time limit. -/
def Host.setting (host : Host) (limits : Limits) : Setting :=
  ⟨limits, host.http, some limits.timeoutMs, host.clock⟩

/-- Run a script under limits on a store. A run that takes too long is noted. -/
def Host.run (host : Host) (limits : Limits) : Hook := fun source store =>
  if limits.maxSourceBytes < source.utf8ByteSize then
    { result := .error (.fault (.sourceTooLong source.utf8ByteSize limits.maxSourceBytes)), store }
  else
    match parseProgram limits.maxNesting source with
    | .error cause => { result := .error (.parse cause), store }
    | .ok program =>
      let ended := runProgram (host.setting limits) program store
      let events :=
        match ended.result with
        | .error (.timeout ms) => ended.events ++ [(ended.elapsed, .timedOut ms)]
        | _ => ended.events
      { ended with result := ended.result.map Control.toJson, events }

/-- Run a script on a store. The answers to its requests depend on the requests alone, and only the
timer ends a run: no step takes time, and none looks at the clock of the waits. -/
def Sandbox.run (sandbox : Sandbox) : Hook :=
  Host.run { http := sandbox.http.map fun answer _ => answer } sandbox.limits

end Relay.Script
