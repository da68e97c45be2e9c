import ApiSurvey.Command.Arguments
import ApiSurvey.Command.Discover
import ApiSurvey.Disk.Basic
import ApiSurvey.Disk.Update
import ApiSurvey.Dump.Basic
import ApiSurvey.Dump.Collector
import ApiSurvey.Dump.Complaint
import ApiSurvey.Dump.Listing
import ApiSurvey.Dump.Schema
import ApiSurvey.Dump.Source
import ApiSurvey.Fault
import ApiSurvey.FileTree.Basic
import ApiSurvey.FileTree.Update
import ApiSurvey.Host
import ApiSurvey.Json.Number
import ApiSurvey.Json.Reader
import ApiSurvey.Json.Token
import ApiSurvey.Json.Value
import ApiSurvey.Json.Writer
import ApiSurvey.Keyed
import ApiSurvey.Location
import ApiSurvey.Main
import ApiSurvey.MarkerList
import ApiSurvey.MarkerList.Delimiter
import ApiSurvey.MarkerList.Items
import ApiSurvey.MarkerList.Marker
import ApiSurvey.MarkerList.Problem
import ApiSurvey.Number.Binary64
import ApiSurvey.Number.DigitLimit
import ApiSurvey.Number.Reader
import ApiSurvey.Number.Shortest
import ApiSurvey.Number.Spelling
import ApiSurvey.Proofs.Command.Arguments
import ApiSurvey.Proofs.Command.Discover
import ApiSurvey.Proofs.Dump.Collector
import ApiSurvey.Proofs.Dump.Encoding
import ApiSurvey.Proofs.Dump.Naming
import ApiSurvey.Proofs.Dump.Schema
import ApiSurvey.Proofs.Dump.Shape
import ApiSurvey.Proofs.Disk.Read
import ApiSurvey.Proofs.Disk.Write
import ApiSurvey.Proofs.FileTree.Update
import ApiSurvey.Proofs.Json.RoundTrip
import ApiSurvey.Proofs.MarkerList.Grammar
import ApiSurvey.Proofs.MarkerList.Group
import ApiSurvey.Proofs.MarkerList.Path
import ApiSurvey.Proofs.Sequence
import ApiSurvey.Proofs.Source.Name
import ApiSurvey.Proofs.Survey.FirstFault
import ApiSurvey.Proofs.Survey.Listing
import ApiSurvey.Proofs.Survey.Origin
import ApiSurvey.Proofs.Survey.Placement
import ApiSurvey.Proofs.Survey.Roots
import ApiSurvey.Refusal
import ApiSurvey.Settings.Calendar
import ApiSurvey.Settings.Display
import ApiSurvey.Settings.Fault
import ApiSurvey.Settings.File
import ApiSurvey.Settings.Markers
import ApiSurvey.Settings.Roots
import ApiSurvey.Settings.Value
import ApiSurvey.Source.Attribute
import ApiSurvey.Source.Declaration
import ApiSurvey.Source.Name
import ApiSurvey.Survey.Collector
import ApiSurvey.Survey.FileScope
import ApiSurvey.Survey.Finding
import ApiSurvey.Survey.Reference
import ApiSurvey.Survey.Registry
import ApiSurvey.Survey.Report
import ApiSurvey.Text.Blank
import ApiSurvey.Text.CodeRange
import ApiSurvey.Text.ControlSequence
import ApiSurvey.Text.DecimalDigit
import ApiSurvey.Text.Digits
import ApiSurvey.Text.Lines
import ApiSurvey.Text.Pieces
import ApiSurvey.Text.Printable
import ApiSurvey.Text.Quoted
import ApiSurvey.Text.Utf8
import ApiSurvey.Text.Word
import ApiSurvey.Toml.Document
import ApiSurvey.Toml.Failure
import ApiSurvey.Toml.Lexeme
import ApiSurvey.Toml.Number
import ApiSurvey.Toml.Time
import ApiSurvey.Toml.Value
import ApiSurvey.Proofs.Survey.Independence
import ApiSurvey.Proofs.Dump.Relevance
import ApiSurvey.Proofs.Dump.RootName
import ApiSurvey.Proofs.Survey.Relocation
import ApiSurvey.Proofs.Source.Arguments
import ApiSurvey.Proofs.Location.Spelling
import ApiSurvey.Proofs.Survey.Session
import ApiSurvey.Proofs.Command.Roots
import ApiSurvey.Proofs.Dump.Directory
import ApiSurvey.Proofs.Source.Segments
import ApiSurvey.Proofs.Source.Callable
import ApiSurvey.Proofs.MarkerList.Unbalanced
import ApiSurvey.Proofs.Survey.Merging
import ApiSurvey.Proofs.MarkerList.FirstProblem
import ApiSurvey.Proofs.MarkerList.Splitting
import ApiSurvey.Proofs.Survey.FileScope
import ApiSurvey.Proofs.Settings.RootList
import ApiSurvey.Proofs.Dump.Order
import ApiSurvey.Proofs.Survey.Exclusion
import ApiSurvey.Proofs.MarkerList.Depth
import ApiSurvey.Proofs.Settings.File
import ApiSurvey.Proofs.Settings.Markers
import ApiSurvey.Proofs.Source.Pieces
import ApiSurvey.Proofs.Settings.Layers
