import AgentHost.Api.Build
import AgentHost.Api.Decode
import AgentHost.Api.Logging
import AgentHost.Api.Problem
import AgentHost.Api.Router
import AgentHost.Api.Service
import AgentHost.Api.Wire
import AgentHost.CommandLine
import AgentHost.CommandLine.Parse
import AgentHost.CommandLine.Refusal
import AgentHost.CommandLine.Similar
import AgentHost.Config
import AgentHost.Config.Load
import AgentHost.Config.Outline
import AgentHost.Config.Reading
import AgentHost.Deadline.Body
import AgentHost.Deadline.Handler
import AgentHost.Duration
import AgentHost.Files
import AgentHost.Http.Request
import AgentHost.Http.Response
import AgentHost.Http.Status
import AgentHost.Http.Target
import AgentHost.Http.Token
import AgentHost.IoError
import AgentHost.Json.Cursor
import AgentHost.Json.Decode
import AgentHost.Json.Payload
import AgentHost.Json.Plain
import AgentHost.Json.Token
import AgentHost.Json.Value
import AgentHost.Log.Entry
import AgentHost.Log.Filter
import AgentHost.Main
import AgentHost.Network
import AgentHost.Number.Binary
import AgentHost.Number.Numeral
import AgentHost.Number.Shortest
import AgentHost.Path
import AgentHost.Program
import AgentHost.Program.World
import AgentHost.Proofs.Api.AllOrNothing
import AgentHost.Proofs.Api.Failures
import AgentHost.Proofs.Api.Problem
import AgentHost.Proofs.Api.RoundTrip
import AgentHost.Proofs.Api.Routing
import AgentHost.Proofs.CommandLine.Accepted
import AgentHost.Proofs.CommandLine.Spelling
import AgentHost.Proofs.Config.Defaults
import AgentHost.Proofs.Config.Parsing
import AgentHost.Proofs.Config.Sections
import AgentHost.Proofs.Config.Shape
import AgentHost.Proofs.Except
import AgentHost.Proofs.Json.Emitted
import AgentHost.Proofs.Json.Faults
import AgentHost.Proofs.Json.Lengths
import AgentHost.Proofs.Json.Lists
import AgentHost.Proofs.Json.Numbers
import AgentHost.Proofs.Json.Parts
import AgentHost.Proofs.Json.Quoted
import AgentHost.Proofs.Json.Readers
import AgentHost.Proofs.Json.Records
import AgentHost.Proofs.Json.Skips
import AgentHost.Proofs.Json.Spelling
import AgentHost.Proofs.Json.Strings
import AgentHost.Proofs.Json.Taken
import AgentHost.Proofs.Json.Word
import AgentHost.Proofs.Json.Written
import AgentHost.Proofs.Number.Digits
import AgentHost.Proofs.Program.Ending
import AgentHost.Proofs.Program.Layers
import AgentHost.Proofs.Program.Stages
import AgentHost.Proofs.Serving.Outcome
import AgentHost.Proofs.Serving.Requests
import AgentHost.Proofs.Serving.Stopping
import AgentHost.Proofs.Shutdown.Consistent
import AgentHost.Proofs.Shutdown.Given
import AgentHost.Proofs.Shutdown.Ledger
import AgentHost.Proofs.Text.Utf8
import AgentHost.Proofs.Yaml.Numerals
import AgentHost.Proofs.Yaml.Tree
import AgentHost.Proofs.Yaml.Whole
import AgentHost.Server
import AgentHost.Server.Error
import AgentHost.Server.Lifecycle
import AgentHost.Serving.Handoff
import AgentHost.Serving.Timeline
import AgentHost.Shutdown.Run
import AgentHost.Shutdown.Signal
import AgentHost.Text.Blank
import AgentHost.Text.Hidden
import AgentHost.Text.Outline
import AgentHost.Text.Quoted
import AgentHost.Text.Utf8
import AgentHost.Yaml.Cursor
import AgentHost.Yaml.Fault
import AgentHost.Yaml.Node
import AgentHost.Yaml.Node.Build
import AgentHost.Yaml.Scalar
import AgentHost.Yaml.Token
import AgentHost.Yaml.Token.Block
import AgentHost.Yaml.Token.Directive
import AgentHost.Yaml.Token.Plain
import AgentHost.Yaml.Token.Quoted
import AgentHost.Yaml.Token.Stream
import AgentHost.Yaml.Token.Tag
import AgentHost.Proofs.Deadline.Delivery
import AgentHost.Proofs.Deadline.Script
import AgentHost.Proofs.Api.Deadlines
import AgentHost.Proofs.Yaml.Scalars
import AgentHost.Proofs.Yaml.Lines
import AgentHost.Proofs.Yaml.Blocks
import AgentHost.Proofs.Config.Document
import AgentHost.Proofs.Path.Components
import AgentHost.Proofs.Config.Sameness
import AgentHost.Proofs.Config.Overrides
import AgentHost.Proofs.Json.Members
import AgentHost.Proofs.Json.Entries
import AgentHost.Proofs.Api.Decoding
import AgentHost.Proofs.Api.Listing
import AgentHost.Proofs.CommandLine.Ports
import AgentHost.Proofs.CommandLine.Normal
import AgentHost.Proofs.CommandLine.Grammar
import AgentHost.Proofs.CommandLine.Items
import AgentHost.Proofs.Config.Independent
import AgentHost.Proofs.Config.Integers
import AgentHost.Proofs.Text.Lines
import AgentHost.Proofs.Config.Messages
import AgentHost.Proofs.Program.Reports
import AgentHost.Serving.Signalled
import AgentHost.Proofs.Serving.Signalled
import AgentHost.Proofs.Server.Lifecycle
import AgentHost.Proofs.Program.Clients
