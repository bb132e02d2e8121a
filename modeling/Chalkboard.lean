import Chalkboard.Bridge.Basic
import Chalkboard.Bridge.Correlation
import Chalkboard.Bridge.Error
import Chalkboard.Bridge.Message
import Chalkboard.Bridge.Step
import Chalkboard.Canvas.Basic
import Chalkboard.Command.Basic
import Chalkboard.Command.Wire
import Chalkboard.Config.Basic
import Chalkboard.Config.Check
import Chalkboard.Config.Format
import Chalkboard.Config.Json
import Chalkboard.Config.Schema
import Chalkboard.Config.Template
import Chalkboard.Config.Toml
import Chalkboard.Config.Yaml
import Chalkboard.Decimal.Layout
import Chalkboard.Decimal.Literal
import Chalkboard.Decimal.Rounded
import Chalkboard.Decimal.Shortest
import Chalkboard.Element.Basic
import Chalkboard.Element.Wire
import Chalkboard.Engine.Computer
import Chalkboard.Engine.Worker
import Chalkboard.Gesture.Basic
import Chalkboard.Gesture.Step
import Chalkboard.Json.Basic
import Chalkboard.Json.Decode
import Chalkboard.Json.Printer
import Chalkboard.Json.Tree
import Chalkboard.Live.Basic
import Chalkboard.Live.Reconcile
import Chalkboard.Prompt.Client
import Chalkboard.Prompt.Message
import Chalkboard.Prompt.Target
import Chalkboard.Proofs.Bridge.Connection
import Chalkboard.Proofs.Bridge.Correlation
import Chalkboard.Proofs.Bridge.Crash
import Chalkboard.Proofs.Bridge.Hosts
import Chalkboard.Proofs.Bridge.Ledger
import Chalkboard.Proofs.Bridge.Life
import Chalkboard.Proofs.Bridge.Outstanding
import Chalkboard.Proofs.Bridge.Pairing
import Chalkboard.Proofs.Bridge.Purpose
import Chalkboard.Proofs.Bridge.Replacement
import Chalkboard.Proofs.Bridge.Shutdown
import Chalkboard.Proofs.Bridge.Table
import Chalkboard.Proofs.Canvas.Objects
import Chalkboard.Proofs.Command.Check
import Chalkboard.Proofs.Command.Codec
import Chalkboard.Proofs.Config.Ranges
import Chalkboard.Proofs.Element.Codec
import Chalkboard.Proofs.Element.Parents
import Chalkboard.Proofs.Engine.Answers
import Chalkboard.Proofs.Engine.Calls
import Chalkboard.Proofs.Engine.Commands
import Chalkboard.Proofs.Engine.Completion
import Chalkboard.Proofs.Engine.Execution
import Chalkboard.Proofs.Engine.Link
import Chalkboard.Proofs.Engine.Progress
import Chalkboard.Proofs.Engine.Sound
import Chalkboard.Proofs.Engine.Source
import Chalkboard.Proofs.Engine.Turn
import Chalkboard.Proofs.Engine.Worker
import Chalkboard.Proofs.Gesture.Handle
import Chalkboard.Proofs.Gesture.Zoom
import Chalkboard.Proofs.Json.Holder
import Chalkboard.Proofs.Json.Read
import Chalkboard.Proofs.Json.Record
import Chalkboard.Proofs.Json.Text
import Chalkboard.Proofs.Json.Token
import Chalkboard.Proofs.Live.Complete
import Chalkboard.Proofs.Live.Convergence
import Chalkboard.Proofs.Live.Count
import Chalkboard.Proofs.Live.Drawing
import Chalkboard.Proofs.Live.Idempotence
import Chalkboard.Proofs.Live.Link
import Chalkboard.Proofs.Live.Outcome
import Chalkboard.Proofs.Live.Quiet
import Chalkboard.Proofs.Live.Removal
import Chalkboard.Proofs.Live.Report
import Chalkboard.Proofs.Live.Retain
import Chalkboard.Proofs.Live.Sweep
import Chalkboard.Proofs.Live.Teardown
import Chalkboard.Proofs.Live.Visibility
import Chalkboard.Proofs.Live.Visit
import Chalkboard.Proofs.Live.Visited
import Chalkboard.Proofs.Number.Equal
import Chalkboard.Proofs.Number.Order
import Chalkboard.Proofs.Prompt.Fence
import Chalkboard.Proofs.Prompt.Recover
import Chalkboard.Proofs.Result.Codec
import Chalkboard.Proofs.Result.Plot
import Chalkboard.Proofs.Scene.Cascade
import Chalkboard.Proofs.Scene.Changes
import Chalkboard.Proofs.Scene.Closure
import Chalkboard.Proofs.Scene.Edit
import Chalkboard.Proofs.Scene.Index
import Chalkboard.Proofs.Scene.Order
import Chalkboard.Proofs.Session.Calls
import Chalkboard.Proofs.Session.Hold
import Chalkboard.Proofs.Session.Reimport
import Chalkboard.Proofs.Session.Release
import Chalkboard.Proofs.Session.Results
import Chalkboard.Proofs.Session.UpToDate
import Chalkboard.Proofs.Text.Digits
import Chalkboard.Proofs.Text.Split
import Chalkboard.Proofs.View.Exact
import Chalkboard.Report.UserError
import Chalkboard.Result.Basic
import Chalkboard.Result.Plot
import Chalkboard.Result.Wire
import Chalkboard.Scene.Basic
import Chalkboard.Scene.Defaults
import Chalkboard.Session.Basic
import Chalkboard.Session.Diagram
import Chalkboard.Session.Error
import Chalkboard.Status.Basic
import Chalkboard.Status.Board
import Chalkboard.Text.Blank
import Chalkboard.Text.Digits
import Chalkboard.Text.Printable
import Chalkboard.Text.Quoted
import Chalkboard.Text.Scan
import Chalkboard.Text.SipHash
import Chalkboard.Toml.Literal
import Chalkboard.Toml.Reader
import Chalkboard.Toml.Value
import Chalkboard.Toml.Writer
import Chalkboard.View.Matrix
import Chalkboard.View.Scalar
import Chalkboard.View.Viewport
import Chalkboard.Yaml.Node
import Chalkboard.Yaml.Plain
import Chalkboard.Yaml.Reader
import Chalkboard.Yaml.Scalar
import Chalkboard.Yaml.Writer
import Chalkboard.Proofs.Config.Dialect
import Chalkboard.Proofs.Config.Json
import Chalkboard.Proofs.Config.Toml
import Chalkboard.Proofs.Config.Yaml
import Chalkboard.Proofs.Config.Reload
import Chalkboard.Proofs.Gesture.Exclusive
import Chalkboard.Proofs.Gesture.Grab
import Chalkboard.Proofs.Gesture.Press
import Chalkboard.Proofs.Bridge.Ids
import Chalkboard.Proofs.Bridge.Reports
import Chalkboard.Proofs.Config.Template
import Chalkboard.Proofs.Engine.Frames
import Chalkboard.Proofs.Prompt.Conversation
