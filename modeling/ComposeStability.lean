import ComposeStability.Cache.Disk
import ComposeStability.Cache.Entry
import ComposeStability.Cache.Key
import ComposeStability.Cache.MessagePack
import ComposeStability.Cache.Sha256
import ComposeStability.Command.Analysis
import ComposeStability.Command.Flag
import ComposeStability.Command.Help
import ComposeStability.Command.Run
import ComposeStability.Command.Setup
import ComposeStability.Command.Syntax
import ComposeStability.Composable.Analysis
import ComposeStability.Config.Basic
import ComposeStability.Config.Load
import ComposeStability.Directive
import ComposeStability.FileSystem.Ascent
import ComposeStability.FileSystem.Basic
import ComposeStability.FileSystem.Path
import ComposeStability.Flags
import ComposeStability.Instrument.File
import ComposeStability.Instrument.Function
import ComposeStability.Instrument.Overlay
import ComposeStability.Instrument.Package
import ComposeStability.Instrument.Print
import ComposeStability.Instrument.Symbols
import ComposeStability.Linter.Arguments
import ComposeStability.Linter.Diagnostic
import ComposeStability.Linter.Options
import ComposeStability.Linter.ReportLevel
import ComposeStability.Linter.Run
import ComposeStability.Linter.Settings
import ComposeStability.Log.Record
import ComposeStability.Main
import ComposeStability.Program.Build
import ComposeStability.Program.Function
import ComposeStability.Program.Identity
import ComposeStability.Program.MethodSet
import ComposeStability.Program.Package
import ComposeStability.Program.StructTag
import ComposeStability.Program.Type
import ComposeStability.Program.TypeView
import ComposeStability.Proofs.Cache.Disk
import ComposeStability.Proofs.Cache.Entry
import ComposeStability.Proofs.Cache.History
import ComposeStability.Proofs.Cache.Key
import ComposeStability.Proofs.Cache.MessagePack
import ComposeStability.Proofs.Composable.Classifier
import ComposeStability.Proofs.Composable.Isolation
import ComposeStability.Proofs.Composable.Monotone
import ComposeStability.Proofs.Composable.Summaries
import ComposeStability.Proofs.Config.Search
import ComposeStability.Proofs.Config.Settings
import ComposeStability.Proofs.Directive.Effect
import ComposeStability.Proofs.Directive.Exactness
import ComposeStability.Proofs.Directive.Grammar
import ComposeStability.Proofs.Directive.QuotedTag
import ComposeStability.Proofs.Directive.Reading
import ComposeStability.Proofs.FileSystem.Below
import ComposeStability.Proofs.FileSystem.Directories
import ComposeStability.Proofs.FileSystem.Path
import ComposeStability.Proofs.FileSystem.Places
import ComposeStability.Proofs.FileSystem.Replacement
import ComposeStability.Proofs.Instrument.FreshNames
import ComposeStability.Proofs.Instrument.Functions
import ComposeStability.Proofs.Instrument.Hygiene
import ComposeStability.Proofs.Instrument.Imports
import ComposeStability.Proofs.Instrument.Injection
import ComposeStability.Proofs.Instrument.PackageScope
import ComposeStability.Proofs.Instrument.Parameters
import ComposeStability.Proofs.Linter.Agreement
import ComposeStability.Proofs.Linter.Directives
import ComposeStability.Proofs.Linter.Remarks
import ComposeStability.Proofs.Linter.StableTypes
import ComposeStability.Proofs.Outcome
import ComposeStability.Proofs.Program.Aliases
import ComposeStability.Proofs.Program.Answers
import ComposeStability.Proofs.Program.FreshReport
import ComposeStability.Proofs.Program.Legible
import ComposeStability.Proofs.Program.Nested
import ComposeStability.Proofs.Program.Parts
import ComposeStability.Proofs.Program.Readable
import ComposeStability.Proofs.Program.Receivers
import ComposeStability.Proofs.Program.SameType
import ComposeStability.Proofs.Program.Survey
import ComposeStability.Proofs.Program.Transparency
import ComposeStability.Proofs.Program.TypeKeys
import ComposeStability.Proofs.Program.TypeText
import ComposeStability.Proofs.Program.Visible
import ComposeStability.Proofs.Report.Accepted
import ComposeStability.Proofs.Report.Clean
import ComposeStability.Proofs.Report.Differences
import ComposeStability.Proofs.Report.Grammar
import ComposeStability.Proofs.Report.ReceiverName
import ComposeStability.Proofs.Report.Regression
import ComposeStability.Proofs.Report.Rewrite
import ComposeStability.Proofs.Report.RoundTrip
import ComposeStability.Proofs.Report.Selection
import ComposeStability.Proofs.Report.Signature
import ComposeStability.Proofs.Session.Accounting
import ComposeStability.Proofs.Session.Discovery
import ComposeStability.Proofs.Session.EditedKeys
import ComposeStability.Proofs.Session.Interleaving
import ComposeStability.Proofs.Session.Keys
import ComposeStability.Proofs.Session.Memory
import ComposeStability.Proofs.Session.Requests
import ComposeStability.Proofs.Session.StoredResults
import ComposeStability.Proofs.Session.Stores
import ComposeStability.Proofs.Session.TypeKeys
import ComposeStability.Proofs.Source.Silencing
import ComposeStability.Proofs.Stability.Combine
import ComposeStability.Proofs.Stability.Regrouping
import ComposeStability.Proofs.Stability.Ties
import ComposeStability.Proofs.Text.Fresh
import ComposeStability.Proofs.Text.Identifier
import ComposeStability.Proofs.Text.Literal
import ComposeStability.Proofs.Text.Occurrence
import ComposeStability.Proofs.Text.ReadBack
import ComposeStability.Proofs.Text.Separated
import ComposeStability.Proofs.Text.SortedNames
import ComposeStability.Proofs.Text.Utf8
import ComposeStability.Proofs.Text.Words
import ComposeStability.Proofs.Tracing.History
import ComposeStability.Proofs.Tracing.Interleaving
import ComposeStability.Proofs.TypeGraph.Bisimulation
import ComposeStability.Proofs.TypeGraph.Chart
import ComposeStability.Proofs.TypeGraph.Extension
import ComposeStability.Proofs.TypeGraph.Leaf
import ComposeStability.Proofs.TypeGraph.Look
import ComposeStability.Proofs.TypeGraph.MarkerSearch
import ComposeStability.Proofs.TypeGraph.PlainRecursion
import ComposeStability.Proofs.TypeGraph.Reachability
import ComposeStability.Proofs.TypeGraph.Reasons
import ComposeStability.Proofs.TypeGraph.Role
import ComposeStability.Proofs.TypeGraph.Termination
import ComposeStability.Report.Change
import ComposeStability.Report.Parse
import ComposeStability.Report.Selection
import ComposeStability.Report.Store
import ComposeStability.Report.Tree
import ComposeStability.Report.Write
import ComposeStability.Session.Interleaving
import ComposeStability.Session.Packages
import ComposeStability.Session.Recency
import ComposeStability.Session.Unit
import ComposeStability.Source.Comment
import ComposeStability.Source.File
import ComposeStability.Source.Statement
import ComposeStability.Stability.Summary
import ComposeStability.Stability.Value
import ComposeStability.Stability.Verdict
import ComposeStability.Text.Binary64
import ComposeStability.Text.Blank
import ComposeStability.Text.Bytes
import ComposeStability.Text.Colour
import ComposeStability.Text.Cut
import ComposeStability.Text.Fold
import ComposeStability.Text.Fresh
import ComposeStability.Text.Json
import ComposeStability.Text.Letter
import ComposeStability.Text.LowerCase
import ComposeStability.Text.Number
import ComposeStability.Text.Printable
import ComposeStability.Text.Quoted
import ComposeStability.Toml.Document
import ComposeStability.Toml.Scalar
import ComposeStability.Toml.Statement
import ComposeStability.Tracing.Event
import ComposeStability.Tracing.Interleaving
import ComposeStability.Tracing.Recorder
import ComposeStability.Tracing.Tracker
import ComposeStability.Tracing.Value
import ComposeStability.TypeGraph.Basic
import ComposeStability.TypeGraph.Classify
import ComposeStability.TypeGraph.Marker
import ComposeStability.TypeGraph.Pattern
import ComposeStability.TypeGraph.Table
import ComposeStability.Proofs.Instrument.Overlay
