import Relay.Json.Basic

/-!
# Reports

A report has one entry for each root request, in the order of the scenario: the request's label and
either the response or the error.
-/

namespace Relay

/-- What became of one root request. -/
structure RequestReport where
  request : String
  response : Option Json := none
  error : Option String := none

/-- What became of the root requests. -/
structure Report where
  requests : List RequestReport := []

namespace RequestReport

/-- Whether the request succeeded. -/
def isOk (r : RequestReport) : Bool :=
  r.error.isNone

/-- An entry as JSON; a missing response or error is left out. -/
def toJson (r : RequestReport) : Json :=
  let response :=
    match r.response with
    | some response => [("response", response)]
    | none => []
  let error :=
    match r.error with
    | some error => [("error", Json.string error)]
    | none => []
  Json.ofFields (("request", .string r.request) :: response ++ error)

end RequestReport

namespace Report

/-- The number of requests that succeeded. -/
def succeeded (report : Report) : Nat :=
  (report.requests.filter (·.isOk)).length

/-- The number of requests that failed. -/
def failed (report : Report) : Nat :=
  report.requests.length - report.succeeded

/-- The first entry for a label. -/
def get? (report : Report) (request : String) : Option RequestReport :=
  report.requests.find? (·.request = request)

/-- A report as JSON. -/
def toJson (report : Report) : Json :=
  Json.ofFields [("requests", .array (report.requests.map RequestReport.toJson))]

end Report

end Relay
