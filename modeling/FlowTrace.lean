import FlowTrace.Braced.Source
import FlowTrace.Command.Analyze
import FlowTrace.Command.Dispatch
import FlowTrace.Command.Machine
import FlowTrace.Command.Options
import FlowTrace.Config.Basic
import FlowTrace.Config.Load
import FlowTrace.Config.Reader
import FlowTrace.Config.Rule
import FlowTrace.Cpp.Estimate
import FlowTrace.Cpp.Flow
import FlowTrace.Cpp.Program
import FlowTrace.Duration
import FlowTrace.Engine
import FlowTrace.Environment
import FlowTrace.Event.Basic
import FlowTrace.Event.Bus
import FlowTrace.Export.Exporter
import FlowTrace.Failure
import FlowTrace.Flowchart.Basic
import FlowTrace.Flowchart.Flow
import FlowTrace.Flowchart.Layout
import FlowTrace.Flowchart.Svg
import FlowTrace.IpAddress
import FlowTrace.Java.Declarator
import FlowTrace.Java.Estimate
import FlowTrace.Java.Flow
import FlowTrace.Java.Program
import FlowTrace.Java.Token
import FlowTrace.Json.Basic
import FlowTrace.Json.Number
import FlowTrace.Json.Reader
import FlowTrace.Json.Writes
import FlowTrace.Language
import FlowTrace.Main
import FlowTrace.Moment
import FlowTrace.Pattern.Basic
import FlowTrace.Pattern.Reader
import FlowTrace.Pattern.Search
import FlowTrace.Playback.Highlight
import FlowTrace.Playback.Narration
import FlowTrace.Power
import FlowTrace.Proofs.Attempt
import FlowTrace.Proofs.Braced.Comments
import FlowTrace.Proofs.Braced.Extent
import FlowTrace.Proofs.Braced.Rewording
import FlowTrace.Proofs.Cpp.Chain
import FlowTrace.Proofs.Cpp.Extent
import FlowTrace.Proofs.Cpp.LoopEnds
import FlowTrace.Proofs.Cpp.LoopNesting
import FlowTrace.Proofs.Cpp.Rewording
import FlowTrace.Proofs.Engine.Drawing
import FlowTrace.Proofs.Engine.Rewording
import FlowTrace.Proofs.Engine.Safety
import FlowTrace.Proofs.Engine.Variables
import FlowTrace.Proofs.Event.Delivery
import FlowTrace.Proofs.Export.Directories
import FlowTrace.Proofs.Export.Histories
import FlowTrace.Proofs.Export.Labels
import FlowTrace.Proofs.Flowchart.Course
import FlowTrace.Proofs.Flowchart.Growth
import FlowTrace.Proofs.Flowchart.Markup
import FlowTrace.Proofs.Flowchart.Outline
import FlowTrace.Proofs.Flowchart.Placement
import FlowTrace.Proofs.Flowchart.Programs
import FlowTrace.Proofs.Flowchart.Walk
import FlowTrace.Proofs.Java.Blocks
import FlowTrace.Proofs.Java.Course
import FlowTrace.Proofs.Java.Enough
import FlowTrace.Proofs.Java.Header
import FlowTrace.Proofs.Java.Initializer
import FlowTrace.Proofs.Java.Order
import FlowTrace.Proofs.Java.Partner
import FlowTrace.Proofs.Java.Passage
import FlowTrace.Proofs.Java.Placing
import FlowTrace.Proofs.Java.Positions
import FlowTrace.Proofs.Java.Progress
import FlowTrace.Proofs.Java.Scanners
import FlowTrace.Proofs.Java.Tokens
import FlowTrace.Proofs.Json.Normal
import FlowTrace.Proofs.Json.Quote
import FlowTrace.Proofs.Json.RoundTrip
import FlowTrace.Proofs.Pattern.Extent
import FlowTrace.Proofs.Pattern.Groups
import FlowTrace.Proofs.Pattern.Inert
import FlowTrace.Proofs.Pattern.Level
import FlowTrace.Proofs.Pattern.Reach
import FlowTrace.Proofs.Pattern.Reading
import FlowTrace.Proofs.Python.Akin
import FlowTrace.Proofs.Python.Clauses
import FlowTrace.Proofs.Python.Course
import FlowTrace.Proofs.Python.Guard
import FlowTrace.Proofs.Python.Inventory
import FlowTrace.Proofs.Python.Layout
import FlowTrace.Proofs.Python.Levels
import FlowTrace.Proofs.Python.Literals
import FlowTrace.Proofs.Python.Loop
import FlowTrace.Proofs.Python.Names
import FlowTrace.Proofs.Python.Nesting
import FlowTrace.Proofs.Python.Order
import FlowTrace.Proofs.Python.Peers
import FlowTrace.Proofs.Python.Pieces
import FlowTrace.Proofs.Python.Placing
import FlowTrace.Proofs.Python.Reading
import FlowTrace.Proofs.Python.Rewording
import FlowTrace.Proofs.Python.Rows
import FlowTrace.Proofs.Python.Scan
import FlowTrace.Proofs.Python.Suites
import FlowTrace.Proofs.Report.Balance
import FlowTrace.Proofs.Report.Exactness
import FlowTrace.Proofs.Report.Keeping
import FlowTrace.Proofs.Report.RoundTrip
import FlowTrace.Proofs.Server.Calls
import FlowTrace.Proofs.Server.Counting
import FlowTrace.Proofs.Server.Honesty
import FlowTrace.Proofs.Server.Routing
import FlowTrace.Proofs.Server.Transparency
import FlowTrace.Proofs.Service.Agreement
import FlowTrace.Proofs.Service.Causes
import FlowTrace.Proofs.Session.Autoplay
import FlowTrace.Proofs.Session.Broadcast
import FlowTrace.Proofs.Session.Cover
import FlowTrace.Proofs.Session.CursorRange
import FlowTrace.Proofs.Session.Custody
import FlowTrace.Proofs.Session.DueHighlight
import FlowTrace.Proofs.Session.Failures
import FlowTrace.Proofs.Session.Fate
import FlowTrace.Proofs.Session.HighlightAgreement
import FlowTrace.Proofs.Session.Outdated
import FlowTrace.Proofs.Session.Ownership
import FlowTrace.Proofs.Session.Record
import FlowTrace.Proofs.Session.Replay
import FlowTrace.Proofs.Session.Sequential
import FlowTrace.Proofs.Session.Slots
import FlowTrace.Proofs.Session.Status
import FlowTrace.Proofs.Session.Supersession
import FlowTrace.Proofs.Session.Tickers
import FlowTrace.Proofs.Session.Transition
import FlowTrace.Proofs.Session.Weave
import FlowTrace.Proofs.Storage.Confinement
import FlowTrace.Proofs.Storage.Globs
import FlowTrace.Proofs.Storage.Jail
import FlowTrace.Proofs.Storage.Listing
import FlowTrace.Proofs.Storage.Paths
import FlowTrace.Proofs.Storage.Trees
import FlowTrace.Proofs.Text.Glyphs
import FlowTrace.Proofs.Text.Lines
import FlowTrace.Proofs.Text.Numeral
import FlowTrace.Proofs.Text.Repair
import FlowTrace.Proofs.Text.Rewording
import FlowTrace.Proofs.Text.Utf8
import FlowTrace.Proofs.Traversal
import FlowTrace.Python.Estimate
import FlowTrace.Python.Flow
import FlowTrace.Python.Line
import FlowTrace.Python.LogicalLine
import FlowTrace.Python.Module
import FlowTrace.Python.Statement
import FlowTrace.Report.Basic
import FlowTrace.Report.Ledger
import FlowTrace.Report.Merge
import FlowTrace.Report.Wire
import FlowTrace.Server.Handler
import FlowTrace.Server.Memory
import FlowTrace.Service.Basic
import FlowTrace.Service.Canned
import FlowTrace.Service.Local
import FlowTrace.Service.Remote
import FlowTrace.Session.Basic
import FlowTrace.Session.Stage
import FlowTrace.Session.Submit
import FlowTrace.Storage.FileTree
import FlowTrace.Storage.Glob
import FlowTrace.Storage.Path
import FlowTrace.Storage.Store
import FlowTrace.SyntaxError
import FlowTrace.Text.Base64
import FlowTrace.Text.Basic
import FlowTrace.Text.Binary64
import FlowTrace.Text.Blank
import FlowTrace.Text.Category
import FlowTrace.Text.Decimal
import FlowTrace.Text.Intervals
import FlowTrace.Text.LetterCase
import FlowTrace.Text.Markup
import FlowTrace.Text.Quoted
import FlowTrace.Text.Rune
import FlowTrace.Text.Script
import FlowTrace.Text.Sha256
import FlowTrace.Tools
import FlowTrace.Url
import FlowTrace.Yaml.Decoding
import FlowTrace.Yaml.Node
import FlowTrace.Yaml.Scalar
import FlowTrace.Yaml.Token
import FlowTrace.Yaml.Token.Cursor
import FlowTrace.Yaml.Token.Lexer
import FlowTrace.Yaml.Token.Scalar
import FlowTrace.Yaml.Writer
