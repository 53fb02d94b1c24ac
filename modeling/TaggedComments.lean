import TaggedComments.Aggregate
import TaggedComments.Command.AssociationOption
import TaggedComments.Command.Basic
import TaggedComments.Command.Help
import TaggedComments.Command.Invocation
import TaggedComments.Command.Option
import TaggedComments.Comment
import TaggedComments.Config.Basic
import TaggedComments.Config.File
import TaggedComments.Data.Access
import TaggedComments.Data.Basic
import TaggedComments.Data.Literal
import TaggedComments.Data.Scalar
import TaggedComments.Data.Stamp
import TaggedComments.Distinct
import TaggedComments.Extract.Block
import TaggedComments.Extract.Body
import TaggedComments.Extract.Finding
import TaggedComments.Extract.Line
import TaggedComments.Failure
import TaggedComments.Files.Glob
import TaggedComments.Files.IgnoreRule
import TaggedComments.Files.NamePattern
import TaggedComments.Files.Path
import TaggedComments.Files.Tree
import TaggedComments.Files.Wildcard
import TaggedComments.Grammar.Basic
import TaggedComments.Grammar.Builtin
import TaggedComments.Json.Printer
import TaggedComments.Json.Reader
import TaggedComments.Log
import TaggedComments.Main
import TaggedComments.Number.Binary64
import TaggedComments.Number.Decimal
import TaggedComments.Number.Integer
import TaggedComments.Number.Shortest
import TaggedComments.Parser.Basic
import TaggedComments.Parser.Recipe
import TaggedComments.Pattern
import TaggedComments.Registry.Basic
import TaggedComments.Registry.Builtin
import TaggedComments.Registry.Entry
import TaggedComments.Report.Basic
import TaggedComments.Report.Group
import TaggedComments.Report.Markdown
import TaggedComments.Report.Raw
import TaggedComments.Report.Table
import TaggedComments.Report.Xml
import TaggedComments.Request
import TaggedComments.Scan.Basic
import TaggedComments.Scan.Discovery
import TaggedComments.Scan.Walk
import TaggedComments.Session
import TaggedComments.Tag
import TaggedComments.Text.Base64
import TaggedComments.Text.Blank
import TaggedComments.Text.CaseFold
import TaggedComments.Text.Digit
import TaggedComments.Text.Lines
import TaggedComments.Text.Lower
import TaggedComments.Text.Printable
import TaggedComments.Text.Quoted
import TaggedComments.Text.Ranges
import TaggedComments.Text.Split
import TaggedComments.Text.Stream
import TaggedComments.Text.Upper
import TaggedComments.Text.Utf8
import TaggedComments.Text.Word
import TaggedComments.Yaml.BlockScalar
import TaggedComments.Yaml.Cell
import TaggedComments.Yaml.Document
import TaggedComments.Yaml.Graph
import TaggedComments.Yaml.Kind
import TaggedComments.Yaml.Layout
import TaggedComments.Yaml.Merge
import TaggedComments.Yaml.Number
import TaggedComments.Yaml.PlainScalar
import TaggedComments.Yaml.QuotedScalar
import TaggedComments.Yaml.Scalar
import TaggedComments.Yaml.Source
import TaggedComments.Yaml.Stamp
import TaggedComments.Yaml.Token
import TaggedComments.Yaml.Value
import TaggedComments.Proofs.Extract.Body
import TaggedComments.Proofs.Extract.Reading
import TaggedComments.Proofs.Extract.LinePass
import TaggedComments.Proofs.Extract.BlockPass
import TaggedComments.Proofs.Extract.Soundness
import TaggedComments.Proofs.Steps
import TaggedComments.Proofs.Aggregate.LineOrder
import TaggedComments.Proofs.Aggregate.NormalForm
import TaggedComments.Proofs.Aggregate.Stages
import TaggedComments.Proofs.Aggregate.Run
import TaggedComments.Proofs.Data.Writable
import TaggedComments.Proofs.Registry.Entry
import TaggedComments.Proofs.Registry.Table
import TaggedComments.Proofs.Request.Check
import TaggedComments.Proofs.Registry.Merge
import TaggedComments.Proofs.Registry.History
import TaggedComments.Proofs.Registry.Resolution
import TaggedComments.Proofs.Registry.Refusal
import TaggedComments.Proofs.Request.Answer
import TaggedComments.Proofs.Request.Failure
import TaggedComments.Proofs.Extract.Marker
import TaggedComments.Proofs.Registry.Isolation
import TaggedComments.Proofs.Extract.RoundTrip
import TaggedComments.Proofs.Text.Utf8
import TaggedComments.Proofs.Json.Leaves
import TaggedComments.Proofs.Json.RoundTrip
import TaggedComments.Proofs.Json.Written
import TaggedComments.Proofs.Report.Json
import TaggedComments.Proofs.Report.Refusal
import TaggedComments.Proofs.Command.ReportLine
import TaggedComments.Proofs.Command.HandOver
import TaggedComments.Jobs
import TaggedComments.Aggregate.Workers
import TaggedComments.Proofs.Jobs
import TaggedComments.Proofs.Aggregate.Workers
import TaggedComments.Proofs.Text.LetterCase
import TaggedComments.Proofs.Extract.TagCase
import TaggedComments.Proofs.Extract.LineStart
import TaggedComments.Proofs.Extract.Position
import TaggedComments.Proofs.Extract.LongestTag
import TaggedComments.Proofs.Extract.TagList
import TaggedComments.Proofs.Registry.OneLevel
import TaggedComments.Proofs.Log
import TaggedComments.Scan.Workers
import TaggedComments.Proofs.Scan.Files
import TaggedComments.Proofs.Config.Load
import TaggedComments.Proofs.Command.Call
import TaggedComments.Proofs.Command.Settings
import TaggedComments.Proofs.Command.ScanCall
import TaggedComments.Proofs.Report.Refusal
import TaggedComments.Proofs.Command.CommentList
import TaggedComments.Proofs.Command.Setting
import TaggedComments.Proofs.Command.ReportCall
import TaggedComments.Proofs.Files.Path
import TaggedComments.Proofs.Files.Listing
import TaggedComments.Proofs.Scan.Walk
import TaggedComments.Proofs.Files.IgnoreRule
import TaggedComments.Proofs.Scan.Pruning
import TaggedComments.Proofs.Files.Glob
import TaggedComments.Proofs.Scan.Discovery
import TaggedComments.Proofs.Report.Xml
import TaggedComments.Proofs.Scan.LineEnds
import TaggedComments.Proofs.Files.Written
import TaggedComments.Proofs.Files.Match
import TaggedComments.Proofs.Files.Place
import TaggedComments.Proofs.Scan.Skipped
import TaggedComments.Proofs.Scan.Places
import TaggedComments.Proofs.Report.Grouping
import TaggedComments.Proofs.Report.Regrouping
import TaggedComments.Proofs.Report.Cells
import TaggedComments.Proofs.Config.RoundTrip
import TaggedComments.Proofs.Registry.Export
import TaggedComments.Proofs.Command.Association
import TaggedComments.Proofs.Extract.TrailingReference
