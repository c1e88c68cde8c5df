import Population.CommandLine.Exit
import Population.CommandLine.Flag
import Population.CommandLine.Verb
import Population.Compile.Build
import Population.Compile.Check
import Population.Compile.Extract
import Population.Compile.Walker
import Population.Duration
import Population.Fault
import Population.Files.Expand
import Population.Files.Glob.Basic
import Population.Files.Glob.Name
import Population.Files.Glob.Search
import Population.Files.Path
import Population.Files.Tree
import Population.Grammar.Capture
import Population.Grammar.Pattern
import Population.Grammar.Section
import Population.Grammar.Statement
import Population.Job.Actions
import Population.Job.Basic
import Population.Job.Console
import Population.Json.Basic
import Population.Json.Reader
import Population.Log
import Population.Main
import Population.Metrics
import Population.Model.Analyzer
import Population.Model.Closing
import Population.Model.Graph
import Population.Model.Identifier
import Population.Model.Target
import Population.Number.Arithmetic
import Population.Number.Basic
import Population.Number.Double
import Population.Number.Magnitude
import Population.Number.Reader
import Population.Number.Shortest
import Population.Number.Writer
import Population.Proofs.Compile.Abandonment
import Population.Proofs.Compile.Acceptance
import Population.Proofs.Compile.Admission
import Population.Proofs.Compile.Alongside
import Population.Proofs.Compile.Closing
import Population.Proofs.Compile.Completion
import Population.Proofs.Compile.Conservation
import Population.Proofs.Compile.Context
import Population.Proofs.Compile.Diagnosis
import Population.Proofs.Compile.Effect
import Population.Proofs.Compile.Following
import Population.Proofs.Compile.Halting
import Population.Proofs.Compile.Independence
import Population.Proofs.Compile.Integrity
import Population.Proofs.Compile.Joining
import Population.Proofs.Compile.Layout
import Population.Proofs.Compile.Lines
import Population.Proofs.Compile.Location
import Population.Proofs.Compile.Modelling
import Population.Proofs.Compile.Phases
import Population.Proofs.Compile.Placement
import Population.Proofs.Compile.Reading
import Population.Proofs.Compile.Referential
import Population.Proofs.Compile.Report
import Population.Proofs.Compile.Standing
import Population.Proofs.Compile.Step
import Population.Proofs.Compile.Streaming
import Population.Proofs.Compile.Survey
import Population.Proofs.Compile.Trace
import Population.Proofs.Compile.Typing
import Population.Proofs.Compile.Vacancy
import Population.Proofs.Compile.Valuation
import Population.Proofs.Files.Expand
import Population.Proofs.Files.Path
import Population.Proofs.Grammar.Captures
import Population.Proofs.Grammar.Choosing
import Population.Proofs.Grammar.Fields
import Population.Proofs.Grammar.Language
import Population.Proofs.Grammar.Parsing
import Population.Proofs.Grammar.Phrases
import Population.Proofs.Grammar.Printing
import Population.Proofs.Grammar.Section
import Population.Proofs.Grammar.Sequence
import Population.Proofs.Job.Atomicity
import Population.Proofs.Model.Analysis
import Population.Proofs.Model.Closing
import Population.Proofs.Model.Consistency
import Population.Proofs.Model.Cycles
import Population.Proofs.Model.Edges
import Population.Proofs.Model.Graph
import Population.Proofs.Model.Identifier
import Population.Proofs.Model.Refusal
import Population.Proofs.Model.Renumbering
import Population.Proofs.Model.Tables
import Population.Proofs.Model.Tagging
import Population.Proofs.Model.Target
import Population.Proofs.Model.TargetList
import Population.Proofs.Number.Digits
import Population.Proofs.Number.Double
import Population.Proofs.Number.Readback
import Population.Proofs.Number.Rounding
import Population.Proofs.Number.Shortest
import Population.Proofs.Outcome
import Population.Proofs.Pairing
import Population.Proofs.Schema.Fit
import Population.Proofs.Schema.Loading
import Population.Proofs.Schema.Readback
import Population.Proofs.Schema.Record
import Population.Proofs.Schema.Sheet
import Population.Proofs.Schema.Standard
import Population.Proofs.Script.Appending
import Population.Proofs.Script.Batches
import Population.Proofs.Script.Blocks
import Population.Proofs.Script.Derived
import Population.Proofs.Script.Integrity
import Population.Proofs.Script.Lifetime
import Population.Proofs.Script.Listing
import Population.Proofs.Script.Scope
import Population.Proofs.Script.Values
import Population.Proofs.Source.Content
import Population.Proofs.Source.Layout
import Population.Proofs.Source.Numbering
import Population.Proofs.Source.Offset
import Population.Proofs.Source.Sectioned
import Population.Proofs.Splitting
import Population.Proofs.Store.Delivery
import Population.Proofs.Store.Execution
import Population.Proofs.Store.Isolation
import Population.Proofs.Store.Memory
import Population.Proofs.Store.Protocol
import Population.Proofs.Text.Blank
import Population.Proofs.Text.Characters
import Population.Proofs.Text.Cutting
import Population.Proofs.Text.Decimal
import Population.Proofs.Text.Ends
import Population.Proofs.Text.Joining
import Population.Proofs.Text.Order
import Population.Proofs.Text.Quoting
import Population.Proofs.Value.Elements
import Population.Proofs.Value.Formatting
import Population.Proofs.Value.Integer
import Population.Proofs.Value.Literal
import Population.Proofs.Value.Native
import Population.Report
import Population.Schema.Basic
import Population.Schema.Default
import Population.Schema.Reader
import Population.Script.Arguments
import Population.Script.Basic
import Population.Script.Command
import Population.Script.Dump
import Population.Script.Scope
import Population.Settings.Basic
import Population.Settings.Body
import Population.Settings.Datum
import Population.Settings.Expression.Basic
import Population.Settings.Expression.Evaluate
import Population.Settings.Expression.Outcome
import Population.Settings.Expression.Reader
import Population.Settings.File
import Population.Settings.Kind
import Population.Settings.Token
import Population.Source.Line
import Population.Source.Sectioned
import Population.Store.Address
import Population.Store.Basic
import Population.Store.Connection
import Population.Store.IpAddress
import Population.Store.Memory
import Population.Store.Remote
import Population.Store.Sql
import Population.Text.Basic
import Population.Text.Blank
import Population.Text.Lower
import Population.Text.Naming
import Population.Text.Printable
import Population.Text.Quoted
import Population.Text.Symbol
import Population.Value.Basic
import Population.Value.Convert
import Population.Value.Native
import Population.Yaml.Character
import Population.Yaml.Node
import Population.Yaml.Pen
import Population.Yaml.Plain
import Population.Yaml.Reader
import Population.Yaml.Scalar
import Population.Yaml.Style
import Population.Yaml.Timestamp
import Population.Yaml.Token.Basic
import Population.Yaml.Token.Block
import Population.Yaml.Token.Inline
import Population.Yaml.Token.Stream
import Population.Yaml.Token.Tag
