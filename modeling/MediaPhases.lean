import MediaPhases.Command.Fault
import MediaPhases.Command.Step
import MediaPhases.Command.Template
import MediaPhases.Command.Tool
import MediaPhases.CommandLine.Arguments
import MediaPhases.CommandLine.Session
import MediaPhases.Condition.Predicate
import MediaPhases.Condition.RunIf
import MediaPhases.Condition.Skip
import MediaPhases.Condition.SkipDocument
import MediaPhases.Document.Fault
import MediaPhases.Document.Format
import MediaPhases.Document.Json
import MediaPhases.Document.Json.Number
import MediaPhases.Document.Json.Print
import MediaPhases.Document.Json.Scan
import MediaPhases.Document.Reader
import MediaPhases.Document.Toml
import MediaPhases.Document.Toml.Scalar
import MediaPhases.Document.Toml.Scan
import MediaPhases.Document.Toml.Text
import MediaPhases.Document.Toml.Tree
import MediaPhases.Document.Value
import MediaPhases.Engine.Batch
import MediaPhases.Engine.BuiltIn
import MediaPhases.Engine.Executor
import MediaPhases.Engine.Runner
import MediaPhases.Engine.Schedule
import MediaPhases.Failure
import MediaPhases.Files.Fault
import MediaPhases.Files.Path
import MediaPhases.Files.Tree
import MediaPhases.Graph.Basic
import MediaPhases.Graph.Search
import MediaPhases.Identity.Instant
import MediaPhases.Identity.Uuid
import MediaPhases.JobFault
import MediaPhases.Main
import MediaPhases.Media.Codec
import MediaPhases.Media.Container
import MediaPhases.Media.Document
import MediaPhases.Media.Resolution
import MediaPhases.Media.Sidecar
import MediaPhases.Media.Snapshot
import MediaPhases.Number.Binary
import MediaPhases.Number.Decimal
import MediaPhases.Number.Hexadecimal
import MediaPhases.Number.Notation
import MediaPhases.Number.Places
import MediaPhases.Number.Shortest
import MediaPhases.Outcome.Basic
import MediaPhases.Outcome.Batch
import MediaPhases.Outcome.Document
import MediaPhases.Outcome.Tracker
import MediaPhases.Policy.Basic
import MediaPhases.Policy.Defect
import MediaPhases.Policy.Document
import MediaPhases.Policy.ErrorMode
import MediaPhases.Policy.Operations
import MediaPhases.Policy.Phase
import MediaPhases.Policy.Validated
import MediaPhases.Programs.Adjustment
import MediaPhases.Programs.Arithmetic
import MediaPhases.Programs.Basic
import MediaPhases.Programs.BuiltIn
import MediaPhases.Programs.Checks
import MediaPhases.Programs.Display
import MediaPhases.Programs.Fields
import MediaPhases.Programs.Format
import MediaPhases.Programs.Grammar
import MediaPhases.Programs.Home
import MediaPhases.Programs.Interpreter
import MediaPhases.Programs.Launch
import MediaPhases.Programs.Mask
import MediaPhases.Programs.Options
import MediaPhases.Programs.Pattern
import MediaPhases.Programs.QuotedName
import MediaPhases.Programs.Script
import MediaPhases.Programs.Search
import MediaPhases.Programs.Shell
import MediaPhases.Programs.Signals
import MediaPhases.Programs.Streams
import MediaPhases.Programs.Variables
import MediaPhases.Proofs.Command.StepDocument
import MediaPhases.Proofs.Command.Steps
import MediaPhases.Proofs.Command.Template
import MediaPhases.Proofs.CommandLine.ExitCodes
import MediaPhases.Proofs.Condition.Predicate
import MediaPhases.Proofs.Condition.Repetition
import MediaPhases.Proofs.Condition.Skip
import MediaPhases.Proofs.Condition.SkipDocument
import MediaPhases.Proofs.Condition.Spelling
import MediaPhases.Proofs.Document.Acceptance
import MediaPhases.Proofs.Document.Canonical
import MediaPhases.Proofs.Document.Json.Number
import MediaPhases.Proofs.Document.Json.RoundTrip
import MediaPhases.Proofs.Document.Json.Text
import MediaPhases.Proofs.Document.Record
import MediaPhases.Proofs.Document.Reordering
import MediaPhases.Proofs.Document.Value
import MediaPhases.Proofs.Engine.Batches
import MediaPhases.Proofs.Engine.Courses
import MediaPhases.Proofs.Engine.FullRuns
import MediaPhases.Proofs.Engine.Gates
import MediaPhases.Proofs.Engine.Halting
import MediaPhases.Proofs.Engine.Independence
import MediaPhases.Proofs.Engine.Modifications
import MediaPhases.Proofs.Engine.Reasons
import MediaPhases.Proofs.Engine.Records
import MediaPhases.Proofs.Engine.Restriction
import MediaPhases.Proofs.Engine.SelectedNames
import MediaPhases.Proofs.Engine.Selection
import MediaPhases.Proofs.Engine.Turns
import MediaPhases.Proofs.Engine.Warnings
import MediaPhases.Proofs.Graph.Answers
import MediaPhases.Proofs.Graph.Build
import MediaPhases.Proofs.Graph.Cycle
import MediaPhases.Proofs.Graph.Defects
import MediaPhases.Proofs.Graph.Entries
import MediaPhases.Proofs.Graph.Filling
import MediaPhases.Proofs.Graph.Prerequisites
import MediaPhases.Proofs.Graph.Search
import MediaPhases.Proofs.Graph.Stages
import MediaPhases.Proofs.Graph.Tables
import MediaPhases.Proofs.Graph.Visits
import MediaPhases.Proofs.Media.Codec
import MediaPhases.Proofs.Media.Container
import MediaPhases.Proofs.Number.Decimal
import MediaPhases.Proofs.Number.Digits
import MediaPhases.Proofs.Number.Nearest
import MediaPhases.Proofs.Number.Rounding
import MediaPhases.Proofs.Number.Shortest
import MediaPhases.Proofs.Outcome.Document
import MediaPhases.Proofs.Outcome.History
import MediaPhases.Proofs.Outcome.Summary
import MediaPhases.Proofs.Outcome.Tracker
import MediaPhases.Proofs.Policy.Document
import MediaPhases.Proofs.Policy.Keys
import MediaPhases.Proofs.Policy.Names
import MediaPhases.Proofs.Policy.Reordering
import MediaPhases.Proofs.Policy.RoundTrip
import MediaPhases.Proofs.Policy.Soundness
import MediaPhases.Proofs.Text.Blank
import MediaPhases.Proofs.Text.CaseTable
import MediaPhases.Proofs.Text.Lowercase
import MediaPhases.Proofs.Threshold.Amount
import MediaPhases.Proofs.Threshold.ByteSize
import MediaPhases.Proofs.Threshold.Compound
import MediaPhases.Proofs.Threshold.Fraction
import MediaPhases.Proofs.Threshold.ReadBack
import MediaPhases.Proofs.Threshold.SizeLiteral
import MediaPhases.Proofs.Threshold.SpanLiteral
import MediaPhases.Proofs.Threshold.Timespan
import MediaPhases.Report
import MediaPhases.Settings.Basic
import MediaPhases.Settings.File
import MediaPhases.Text.Blank
import MediaPhases.Text.CaseTable
import MediaPhases.Text.Lowercase
import MediaPhases.Text.NameMap
import MediaPhases.Text.PrintableTable
import MediaPhases.Text.Quoted
import MediaPhases.Text.Utf8
import MediaPhases.Threshold.Amount
import MediaPhases.Threshold.ByteSize
import MediaPhases.Threshold.Timespan
