import DiagnosticRelay.Check
import DiagnosticRelay.CommandLine
import DiagnosticRelay.Decimal.Shortest
import DiagnosticRelay.Diagnostic.Basic
import DiagnosticRelay.Diagnostic.Link
import DiagnosticRelay.Diagnostic.Published
import DiagnosticRelay.Glob.Basic
import DiagnosticRelay.Glob.Reading
import DiagnosticRelay.Host.FileTree
import DiagnosticRelay.Json.Document
import DiagnosticRelay.Json.Fault
import DiagnosticRelay.Json.Misfit
import DiagnosticRelay.Json.Number
import DiagnosticRelay.Json.Printer
import DiagnosticRelay.Json.Quoted
import DiagnosticRelay.Json.Shape
import DiagnosticRelay.Json.Syntax
import DiagnosticRelay.Json.Value
import DiagnosticRelay.Main
import DiagnosticRelay.Path.Basic
import DiagnosticRelay.Proofs.Check.LineNumber
import DiagnosticRelay.Proofs.Check.Overflow
import DiagnosticRelay.Proofs.Check.Printout
import DiagnosticRelay.Proofs.Diagnostic.Line
import DiagnosticRelay.Proofs.Diagnostic.Link
import DiagnosticRelay.Proofs.Diagnostic.Place
import DiagnosticRelay.Proofs.Except.Ok
import DiagnosticRelay.Proofs.Glob.Names
import DiagnosticRelay.Proofs.Json.Document
import DiagnosticRelay.Proofs.Json.Number
import DiagnosticRelay.Proofs.List.Last
import DiagnosticRelay.Proofs.Path.LastName
import DiagnosticRelay.Proofs.Path.NormalForm
import DiagnosticRelay.Proofs.Path.NormalText
import DiagnosticRelay.Proofs.Path.Order
import DiagnosticRelay.Proofs.Path.Reading
import DiagnosticRelay.Proofs.Path.Relative
import DiagnosticRelay.Proofs.Report.Order
import DiagnosticRelay.Proofs.Report.Record
import DiagnosticRelay.Proofs.Report.Schema
import DiagnosticRelay.Proofs.Run.Coverage
import DiagnosticRelay.Proofs.Run.Dropping
import DiagnosticRelay.Proofs.Run.Failure
import DiagnosticRelay.Proofs.Run.History
import DiagnosticRelay.Proofs.Run.Independence
import DiagnosticRelay.Proofs.Run.Key
import DiagnosticRelay.Proofs.Run.Operand
import DiagnosticRelay.Proofs.Run.Overlap
import DiagnosticRelay.Proofs.Run.Queue
import DiagnosticRelay.Proofs.Run.Remapping
import DiagnosticRelay.Proofs.Run.Schedule
import DiagnosticRelay.Proofs.Run.Sequence
import DiagnosticRelay.Proofs.Run.Snapshot
import DiagnosticRelay.Proofs.Run.Straddling
import DiagnosticRelay.Proofs.Run.Touched
import DiagnosticRelay.Proofs.Run.Turns
import DiagnosticRelay.Proofs.Server.Calls
import DiagnosticRelay.Proofs.Server.Configuration
import DiagnosticRelay.Proofs.Server.ConfigurationFiles
import DiagnosticRelay.Proofs.Server.Course
import DiagnosticRelay.Proofs.Server.EditorView
import DiagnosticRelay.Proofs.Server.Lifetime
import DiagnosticRelay.Proofs.Server.Pass
import DiagnosticRelay.Proofs.Server.Progress
import DiagnosticRelay.Proofs.Server.SettingsLayers
import DiagnosticRelay.Proofs.Server.Watching
import DiagnosticRelay.Proofs.Settings.Channel
import DiagnosticRelay.Proofs.Settings.Overlay
import DiagnosticRelay.Proofs.Shell.Literal
import DiagnosticRelay.Proofs.Shell.Quoting
import DiagnosticRelay.Proofs.Store.Listing
import DiagnosticRelay.Proofs.Store.LocalPath
import DiagnosticRelay.Proofs.Store.Lookup
import DiagnosticRelay.Proofs.Store.Operations
import DiagnosticRelay.Proofs.Store.Overwriting
import DiagnosticRelay.Proofs.Store.Sorted
import DiagnosticRelay.Proofs.Store.Update
import DiagnosticRelay.Proofs.Text.Ascii
import DiagnosticRelay.Proofs.Text.Lossless
import DiagnosticRelay.Proofs.Text.Trim
import DiagnosticRelay.Proofs.Text.Utf16
import DiagnosticRelay.Proofs.Text.Utf8Order
import DiagnosticRelay.Proofs.Url.Encoding
import DiagnosticRelay.Proofs.Url.FilePath
import DiagnosticRelay.Proofs.Url.Reading
import DiagnosticRelay.Report.Basic
import DiagnosticRelay.Report.Reading
import DiagnosticRelay.Report.Schema
import DiagnosticRelay.Run.Command
import DiagnosticRelay.Run.Guard
import DiagnosticRelay.Run.Machine
import DiagnosticRelay.Run.Outcome
import DiagnosticRelay.Run.Pass
import DiagnosticRelay.Server.Call
import DiagnosticRelay.Server.Dialogue
import DiagnosticRelay.Server.Envelope
import DiagnosticRelay.Server.Framing
import DiagnosticRelay.Server.Lifecycle
import DiagnosticRelay.Server.Message
import DiagnosticRelay.Server.Params
import DiagnosticRelay.Server.Session
import DiagnosticRelay.Settings.Basic
import DiagnosticRelay.Settings.Channel
import DiagnosticRelay.Settings.File
import DiagnosticRelay.Settings.Overlay
import DiagnosticRelay.Settings.Workspace
import DiagnosticRelay.Shell.Arithmetic
import DiagnosticRelay.Shell.Builtin
import DiagnosticRelay.Shell.Command
import DiagnosticRelay.Shell.Condition
import DiagnosticRelay.Shell.Effect
import DiagnosticRelay.Shell.Pattern
import DiagnosticRelay.Shell.Printing
import DiagnosticRelay.Shell.Reading
import DiagnosticRelay.Shell.Running
import DiagnosticRelay.Shell.State
import DiagnosticRelay.Shell.Utility
import DiagnosticRelay.Store.Basic
import DiagnosticRelay.Store.Update
import DiagnosticRelay.Text.Blank
import DiagnosticRelay.Text.Quoted
import DiagnosticRelay.Text.Units
import DiagnosticRelay.Text.Unprintable
import DiagnosticRelay.Text.Utf8
import DiagnosticRelay.Trigger
import DiagnosticRelay.Url.Basic
import DiagnosticRelay.Url.Encoding
import DiagnosticRelay.Url.Fault
import DiagnosticRelay.Url.FilePath
import DiagnosticRelay.Url.Host
import DiagnosticRelay.Url.Reading
import DiagnosticRelay.Url.Segments
import DiagnosticRelay.Yaml.Cursor
import DiagnosticRelay.Yaml.Document
import DiagnosticRelay.Yaml.Node
import DiagnosticRelay.Yaml.Scalar
import DiagnosticRelay.Yaml.Token
