import StepFlow.Authoring.Registry
import StepFlow.Authoring.Warning
import StepFlow.Canvas.Generated
import StepFlow.Canvas.Grid
import StepFlow.Compose.Basic
import StepFlow.Compose.Fragment
import StepFlow.Decimal.Notation
import StepFlow.Decimal.Shortest
import StepFlow.Diagnostic
import StepFlow.Event.Bus
import StepFlow.Event.Event
import StepFlow.Event.Notice
import StepFlow.Event.Outlets
import StepFlow.Event.Setup
import StepFlow.Flow.Edge
import StepFlow.Flow.Graph
import StepFlow.Flow.Kind
import StepFlow.Flow.Node
import StepFlow.Flow.Position
import StepFlow.Flow.Step
import StepFlow.Json.Cursor
import StepFlow.Json.Decode
import StepFlow.Json.DecodeError
import StepFlow.Json.Merge
import StepFlow.Json.Number
import StepFlow.Json.Printer
import StepFlow.Json.Reader
import StepFlow.Json.Skip
import StepFlow.Json.Value
import StepFlow.Keyed
import StepFlow.Layout.GapMode
import StepFlow.Layout.Order
import StepFlow.Layout.Synthesis
import StepFlow.Plan.Basic
import StepFlow.Plan.Linearize
import StepFlow.Plan.Resolve
import StepFlow.Proofs.Plan.Resolve
import StepFlow.Proofs.Plan.Rounds
import StepFlow.Proofs.Plan.Walk
import StepFlow.Run.Basic
import StepFlow.Run.Command
import StepFlow.Run.Exchange
import StepFlow.Run.InMemory
import StepFlow.Run.Settings
import StepFlow.Run.State
import StepFlow.Storage.Flow
import StepFlow.Storage.Repository
import StepFlow.Storage.Source
import StepFlow.Store.Basic
import StepFlow.Store.Command
import StepFlow.Store.Context
import StepFlow.Text.Blank
import StepFlow.Text.Printable
import StepFlow.Text.Quoted
import StepFlow.Time.Rfc3339
import StepFlow.Time.Timestamp
import StepFlow.Wire.Event
import StepFlow.Wire.Exchange
import StepFlow.Wire.Graph
import StepFlow.Wire.ResponseText
import StepFlow.Wire.Storage
import StepFlow.Wire.Store
import StepFlow.Proofs.Plan.Preorder
import StepFlow.Proofs.Plan.Reachable
import StepFlow.Proofs.Plan.Acyclic
import StepFlow.Proofs.Run.Approve
import StepFlow.Proofs.Run.Calls
import StepFlow.Proofs.Run.Exchanges
import StepFlow.Proofs.Plan.Navigation
import StepFlow.Proofs.Run.Retry
import StepFlow.Proofs.Store.Edits
import StepFlow.Proofs.Run.Standing
import StepFlow.Proofs.Plan.FirstTarget
import StepFlow.Proofs.Run.Candidate
import StepFlow.Proofs.Compose.Namespace
import StepFlow.Proofs.Compose.Outcome
import StepFlow.Proofs.Plan.Part
import StepFlow.Proofs.Compose.Undo
import StepFlow.Proofs.Compose.Plan
import StepFlow.Proofs.Compose.Orphans
import StepFlow.Proofs.Layout.Chain
import StepFlow.Proofs.Layout.Roots
import StepFlow.Proofs.Run.Open
import StepFlow.Proofs.Layout.Filled
import StepFlow.Proofs.Layout.Order
import StepFlow.Proofs.Layout.Unjoined
import StepFlow.Proofs.Compose.Pending
import StepFlow.Proofs.Store.Revision
import StepFlow.Proofs.Store.Uniqueness
import StepFlow.Proofs.Store.Closed
import StepFlow.Proofs.Json.Finite
import StepFlow.Proofs.Json.Records
import StepFlow.Proofs.Wire.Graph
import StepFlow.Proofs.Wire.Stable
import StepFlow.Proofs.Canvas.RoundTrip
import StepFlow.Proofs.Canvas.Guards
import StepFlow.Proofs.Run.InMemory
import StepFlow.Proofs.Run.Saving
import StepFlow.Proofs.Run.Reopening
import StepFlow.Proofs.Layout.Merged
import StepFlow.Storage.Command
import StepFlow.Event.Command
import StepFlow.Event.Handles
import StepFlow.Proofs.Storage.LastWrite
import StepFlow.Proofs.Event.Buffers
import StepFlow.Proofs.Event.Receivers
import StepFlow.Proofs.Event.Clones
import StepFlow.Proofs.Event.Delivery
import StepFlow.Proofs.Layout.Forward
import StepFlow.Proofs.Run.Suggestion
import StepFlow.Proofs.Run.Snapshot
import StepFlow.Proofs.Run.StepBack
import StepFlow.Proofs.Compose.Atomic
import StepFlow.Proofs.Compose.Copy
import StepFlow.Proofs.Plan.Unplaced
import StepFlow.Proofs.Json.Merge
import StepFlow.Proofs.Json.Pointwise
import StepFlow.Proofs.Json.Repeated
import StepFlow.Proofs.Store.Settings
import StepFlow.Proofs.Authoring.Signature
import StepFlow.Proofs.Authoring.Report
import StepFlow.Proofs.Store.Recorded
import StepFlow.Proofs.Canvas.Generated
import StepFlow.Proofs.Layout.Rearranged
import StepFlow.Proofs.Run.Wired
import StepFlow.Proofs.Plan.Places
import StepFlow.Proofs.Plan.Resolved
