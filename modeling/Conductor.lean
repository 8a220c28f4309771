import Conductor.Behavior
import Conductor.Catalog.Basic
import Conductor.Catalog.File
import Conductor.Catalog.Reader
import Conductor.Child.Engine
import Conductor.Child.Transcript
import Conductor.Command.Attribute
import Conductor.Command.Basic
import Conductor.Command.Placeholder
import Conductor.Command.Words
import Conductor.CommandLine.Options
import Conductor.CommandLine.Perform
import Conductor.CommandLine.Reads
import Conductor.CommandLine.Request
import Conductor.Cursor
import Conductor.Fault
import Conductor.Json.Basic
import Conductor.Json.Members
import Conductor.Json.Printer
import Conductor.Json.Reader
import Conductor.Json.Shown
import Conductor.Log.Layout
import Conductor.Log.Message
import Conductor.Log.Record
import Conductor.Main
import Conductor.Number.Binary64
import Conductor.Number.Places
import Conductor.Number.Shortest
import Conductor.Output.Meaning
import Conductor.Output.Normal
import Conductor.Output.Tail
import Conductor.Path
import Conductor.Prompt
import Conductor.Report
import Conductor.Run.Call
import Conductor.Run.Engine
import Conductor.Run.Rehearsal
import Conductor.Run.Script
import Conductor.Run.Stage
import Conductor.Run.Workflow
import Conductor.Schema.Issue
import Conductor.Schema.Moment
import Conductor.Schema.Record
import Conductor.Schema.Scalar
import Conductor.Script.Plan
import Conductor.Script.Reader
import Conductor.Script.Segments
import Conductor.Session
import Conductor.Settings.Basic
import Conductor.Settings.DotEnv
import Conductor.Settings.Reader
import Conductor.Shell.Builtin
import Conductor.Shell.Condition
import Conductor.Shell.Expansion
import Conductor.Shell.Expression
import Conductor.Shell.Fields
import Conductor.Shell.Flow
import Conductor.Shell.Grammar
import Conductor.Shell.Invocation
import Conductor.Shell.Jobs
import Conductor.Shell.Numeral
import Conductor.Shell.Offspring
import Conductor.Shell.Pattern
import Conductor.Shell.Printf
import Conductor.Shell.Process
import Conductor.Shell.Redirection
import Conductor.Shell.Run
import Conductor.Shell.Search
import Conductor.Shell.Settings
import Conductor.Shell.Signals
import Conductor.Shell.Source
import Conductor.Shell.Spawn
import Conductor.Shell.Syntax
import Conductor.Shell.Utility
import Conductor.Shell.Word
import Conductor.Signal
import Conductor.State.Mailbox
import Conductor.State.Progress
import Conductor.State.Registry
import Conductor.State.SignalFile
import Conductor.State.World
import Conductor.Step
import Conductor.Store.Basic
import Conductor.Store.Changes
import Conductor.Store.Listing
import Conductor.Store.Text
import Conductor.Template.Basic
import Conductor.Template.File
import Conductor.Template.Resolution
import Conductor.Text.Blank
import Conductor.Text.Case
import Conductor.Text.CaseTable
import Conductor.Text.Digit
import Conductor.Text.Lines
import Conductor.Text.LoneHalf
import Conductor.Text.Octets
import Conductor.Text.Order
import Conductor.Text.PrintableTable
import Conductor.Text.Quoted
import Conductor.Text.Replace
import Conductor.Text.Utf8
import Conductor.Time
import Conductor.Proofs.Action
import Conductor.Proofs.Workflow.Turn
import Conductor.Proofs.State.Progress
import Conductor.Proofs.Workflow.Trail
import Conductor.Proofs.Cursor
import Conductor.Proofs.State.Signals
import Conductor.Proofs.Verdict
import Conductor.Proofs.Workflow.Attribution
import Conductor.Proofs.Workflow.HotLoop
import Conductor.Proofs.Workflow.Rounds
import Conductor.Proofs.Json.RoundTrip
import Conductor.Proofs.Run.Call
import Conductor.Proofs.State.Record
import Conductor.Proofs.Workflow.Ledger
import Conductor.Proofs.Workflow.Heads
import Conductor.Proofs.State.SignalFile
import Conductor.Proofs.Workflow.Walk
import Conductor.Proofs.Workflow.Hearing
import Conductor.Proofs.Run.Failure
import Conductor.Proofs.Workflow.Failure
import Conductor.Proofs.Workflow.Marks
import Conductor.Proofs.Workflow.History
import Conductor.Proofs.Workflow.OnceOnly
import Conductor.Proofs.Workflow.Onward
import Conductor.Proofs.Workflow.Fallback
import Conductor.Proofs.Workflow.Checkpoint
import Conductor.Proofs.Workflow.Trigger
import Conductor.Proofs.Entries
import Conductor.Proofs.Text.Pieces
import Conductor.Proofs.Script.Grammar
import Conductor.Proofs.Script.Writing
import Conductor.Proofs.Run.Starts
import Conductor.Proofs.Script.Course
import Conductor.Proofs.Run.Cancellation
import Conductor.Proofs.State.Registry
import Conductor.Proofs.Script.Task
import Conductor.Proofs.Script.Stage
import Conductor.Proofs.Script.Independence
import Conductor.Proofs.Store
import Conductor.Proofs.State.Room
import Conductor.Proofs.State.Holding
import Conductor.Proofs.State.RegistryHistory
import Conductor.Proofs.Json.Digits
import Conductor.Proofs.State.ProgressChange
import Conductor.Proofs.State.ProgressHistory
import Conductor.Proofs.Run.Books
import Conductor.Proofs.Workflow.Sittings
import Conductor.Proofs.Workflow.Books
import Conductor.Proofs.Script.Moving
import Conductor.Proofs.Script.Books
import Conductor.Proofs.Run.ProperTexts
import Conductor.Proofs.Run.OnRecord
import Conductor.Proofs.State.ProgressReading
import Conductor.Proofs.Run.Faults
import Conductor.Proofs.Session.Refusal
import Conductor.Proofs.Settings.Reading
import Conductor.Proofs.Session.Documents
import Conductor.Proofs.CommandLine.Defects
import Conductor.Proofs.State.Veil
import Conductor.Proofs.Workflow.Blindness
import Conductor.Proofs.Session.FreshRun
import Conductor.Proofs.Output.Decoration
import Conductor.Proofs.Script.PromptOption
import Conductor.Proofs.Workflow.Budget
import Conductor.Proofs.Workflow.Undisturbed
import Conductor.Proofs.Workflow.Laps
import Conductor.Proofs.Output.Normal
import Conductor.Proofs.Script.Tail
import Conductor.Proofs.Template.Resolution
import Conductor.Proofs.State.SignalHistory
import Conductor.Proofs.Catalog
import Conductor.Proofs.Script.FaultPosition
import Conductor.Proofs.Child.Streams
import Conductor.Proofs.Script.Asking
import Conductor.Proofs.Command.Filling
import Conductor.Proofs.Script.WellFormed
import Conductor.Proofs.DecisionTable
import Conductor.Proofs.Workflow.Messages
import Conductor.Proofs.Signal
