import Relay.Action.Basic
import Relay.Action.Codec
import Relay.Action.Outcome
import Relay.Base64
import Relay.Client.NodeClient
import Relay.Client.ScriptHttp
import Relay.Client.Sender
import Relay.Decimal.Layout
import Relay.Decimal.Literal
import Relay.Decimal.Reading
import Relay.Decimal.Shortest
import Relay.Dict
import Relay.Execution.Drain
import Relay.Execution.Interpreter
import Relay.Execution.Rehearsal
import Relay.Execution.Request
import Relay.Execution.Trace
import Relay.Http.Address
import Relay.Http.Message
import Relay.Json.Basic
import Relay.Json.Outline
import Relay.Json.Parser
import Relay.Json.Printer
import Relay.Json.Record
import Relay.Main
import Relay.Node.Config
import Relay.Node.Identity
import Relay.Node.Service
import Relay.Node.Start
import Relay.Payload
import Relay.Script.Builtin
import Relay.Script.Error
import Relay.Script.Eval
import Relay.Script.Exec
import Relay.Script.Grammar
import Relay.Script.Limits
import Relay.Script.Operator
import Relay.Script.Parser
import Relay.Script.Path
import Relay.Script.Run
import Relay.Script.Sandbox
import Relay.Script.Syntax
import Relay.Script.Token
import Relay.Script.Value
import Relay.Simulation.Error
import Relay.Simulation.Network
import Relay.Simulation.Ports
import Relay.Simulation.Report
import Relay.Simulation.Run
import Relay.Simulation.Scenario
import Relay.Store.Basic
import Relay.Store.Template
import Relay.Text.Alphanumeric
import Relay.Text.Blank
import Relay.Text.Case
import Relay.Text.CodeRange
import Relay.Text.Printable
import Relay.Text.Quoted
import Relay.Text.Scan
import Relay.Text.Search
import Relay.Text.Utf8
import Relay.Toml.Parser
import Relay.Toml.Scalar
import Relay.Toml.Table
import Relay.Proofs.Dict
import Relay.Proofs.Json.Text
import Relay.Proofs.Decimal.Text
import Relay.Proofs.Json.RoundTrip
import Relay.Proofs.Json.Reading
import Relay.Proofs.Base64
import Relay.Proofs.Text.Bytes
import Relay.Proofs.Action.Tree
import Relay.Proofs.Action.RoundTrip
import Relay.Proofs.Action.Written
import Relay.Proofs.Payload.Limits
import Relay.Proofs.Payload.RoundTrip
import Relay.Proofs.Action.Received
import Relay.Proofs.Payload.Onward
import Relay.Proofs.Execution.Rules
import Relay.Proofs.Execution.Policy
import Relay.Proofs.Execution.Depth
import Relay.Proofs.Script.Rules
import Relay.Proofs.Script.Height
import Relay.Proofs.Script.Nesting
import Relay.Proofs.Script.Comments
import Relay.Proofs.Script.Equations
import Relay.Proofs.Script.Deepest
import Relay.Proofs.Execution.Plan
import Relay.Proofs.Execution.Sequence
import Relay.Proofs.Execution.Pool
import Relay.Proofs.Execution.Ends
import Relay.Proofs.Execution.Continuation
import Relay.Proofs.Execution.Blocking
import Relay.Proofs.Execution.Detached
import Relay.Proofs.Script.Footprint
import Relay.Proofs.Script.Points
import Relay.Proofs.Script.Accounting
import Relay.Proofs.Hop.Headers
import Relay.Proofs.Hop.Result
import Relay.Proofs.Hop.Dispatch
import Relay.Proofs.Execution.Tracking
import Relay.Proofs.Execution.Unrolling
import Relay.Proofs.Json.Leaves
import Relay.Proofs.Script.Conversion
import Relay.Proofs.Script.Places
import Relay.Proofs.Script.Frame
import Relay.Proofs.Script.Lens
import Relay.Proofs.Json.Levels
import Relay.Proofs.Script.Rereading
import Relay.Proofs.Store.Placeholder
import Relay.Proofs.Script.Cutoff
import Relay.Proofs.Script.NestingLimit
import Relay.Proofs.Script.Printing
import Relay.Proofs.Script.Settling
import Relay.Proofs.Script.PrintedReading
import Relay.Proofs.Text.Trimming
import Relay.Proofs.Script.Precedence
import Relay.Proofs.Script.Taking
import Relay.Proofs.Script.Marks
import Relay.Proofs.Script.Spelling
import Relay.Proofs.Script.CommentFree
import Relay.Proofs.Json.Echo
import Relay.Proofs.Payload.Called
import Relay.Proofs.Hop.Found
import Relay.Proofs.Simulation.Collected
import Relay.Proofs.Simulation.Found
import Relay.Proofs.Script.Paying
import Relay.Proofs.Script.Charges
import Relay.Proofs.Script.Targets
import Relay.Proofs.Script.Metering
import Relay.Proofs.Script.Steps
import Relay.Proofs.Script.Deadline
import Relay.Proofs.Script.InPlace
import Relay.Proofs.Script.Completed
import Relay.Proofs.Script.Returned
import Relay.Proofs.Simulation.Ports
import Relay.Proofs.Simulation.Arrival
import Relay.Proofs.Simulation.Workers
import Relay.Proofs.Simulation.Independence
import Relay.Proofs.Script.Atomic
import Relay.Proofs.Script.Constants
import Relay.Proofs.Script.ReadBack
import Relay.Proofs.Script.Arithmetic
import Relay.Proofs.Script.Compound
import Relay.Proofs.Store.Interpolation
import Relay.Proofs.Simulation.References
import Relay.Proofs.Execution.Writes
import Relay.Proofs.Script.Equality
import Relay.Proofs.Script.Splitting
import Relay.Proofs.Payload.Chains
