import VirtualInstrument.Attempt
import VirtualInstrument.Decimal.Dyadic
import VirtualInstrument.Decimal.Numeral
import VirtualInstrument.Decimal.Shortest
import VirtualInstrument.Decimal.Style
import VirtualInstrument.Dispatch.Entry
import VirtualInstrument.Dispatch.Key
import VirtualInstrument.Dispatch.Table
import VirtualInstrument.Dispatch.Template
import VirtualInstrument.Document.Basic
import VirtualInstrument.Document.Fields
import VirtualInstrument.Document.Overlay
import VirtualInstrument.Document.Reader
import VirtualInstrument.Document.Writer
import VirtualInstrument.Equipment
import VirtualInstrument.Event
import VirtualInstrument.Expression.Arithmetic
import VirtualInstrument.Expression.Call
import VirtualInstrument.Expression.Evaluation
import VirtualInstrument.Expression.Failure
import VirtualInstrument.Expression.Fault
import VirtualInstrument.Expression.Function
import VirtualInstrument.Expression.Reader
import VirtualInstrument.Expression.Token
import VirtualInstrument.Expression.Tree
import VirtualInstrument.Expression.Value
import VirtualInstrument.Files.Disk
import VirtualInstrument.Files.Path
import VirtualInstrument.Instrument
import VirtualInstrument.Pattern.Matcher
import VirtualInstrument.Pattern.Reader
import VirtualInstrument.Pattern.Token
import VirtualInstrument.Pattern.Tree
import VirtualInstrument.Profile.Basic
import VirtualInstrument.Profile.Fault
import VirtualInstrument.Profile.File
import VirtualInstrument.Profile.Location
import VirtualInstrument.Profile.Packaged
import VirtualInstrument.Profile.Schema
import VirtualInstrument.Proofs.Conversation
import VirtualInstrument.Proofs.Decimal.Difference
import VirtualInstrument.Proofs.Decimal.Nearest
import VirtualInstrument.Proofs.Decimal.Whole
import VirtualInstrument.Proofs.Decimal.Written
import VirtualInstrument.Proofs.Dispatch.Additions
import VirtualInstrument.Proofs.Dispatch.Anchoring
import VirtualInstrument.Proofs.Dispatch.Declared
import VirtualInstrument.Proofs.Dispatch.Filling
import VirtualInstrument.Proofs.Dispatch.FullMatch
import VirtualInstrument.Proofs.Dispatch.Glob
import VirtualInstrument.Proofs.Dispatch.GlobMatch
import VirtualInstrument.Proofs.Dispatch.GlobReading
import VirtualInstrument.Proofs.Dispatch.LetterCase
import VirtualInstrument.Proofs.Dispatch.Loading
import VirtualInstrument.Proofs.Dispatch.Priority
import VirtualInstrument.Proofs.Dispatch.Redefinition
import VirtualInstrument.Proofs.Document.Alike
import VirtualInstrument.Proofs.Document.Overlay
import VirtualInstrument.Proofs.Document.Reading
import VirtualInstrument.Proofs.Document.Spelling
import VirtualInstrument.Proofs.Expression.Blanks
import VirtualInstrument.Proofs.Expression.Chains
import VirtualInstrument.Proofs.Expression.Cursor
import VirtualInstrument.Proofs.Expression.Depth
import VirtualInstrument.Proofs.Expression.Equality
import VirtualInstrument.Proofs.Expression.Lexemes
import VirtualInstrument.Proofs.Expression.Lexing
import VirtualInstrument.Proofs.Expression.Nesting
import VirtualInstrument.Proofs.Expression.Provenance
import VirtualInstrument.Proofs.Expression.RoundTrip
import VirtualInstrument.Proofs.Expression.Steady
import VirtualInstrument.Proofs.Files.Calls
import VirtualInstrument.Proofs.Files.Disk
import VirtualInstrument.Proofs.Files.Growth
import VirtualInstrument.Proofs.Files.Path
import VirtualInstrument.Proofs.Files.Rooted
import VirtualInstrument.Proofs.Outcomes
import VirtualInstrument.Proofs.Pattern.Brackets
import VirtualInstrument.Proofs.Pattern.Span
import VirtualInstrument.Proofs.Pattern.Tail
import VirtualInstrument.Proofs.Profile.Location
import VirtualInstrument.Proofs.Profile.NormalForm
import VirtualInstrument.Proofs.Recorder.Fidelity
import VirtualInstrument.Proofs.Recorder.Saving
import VirtualInstrument.Proofs.Replay.Strict
import VirtualInstrument.Proofs.Schema.Acceptance
import VirtualInstrument.Proofs.Schema.NormalForm
import VirtualInstrument.Proofs.Serial.Course
import VirtualInstrument.Proofs.Serial.Delivery
import VirtualInstrument.Proofs.Serial.Openness
import VirtualInstrument.Proofs.Serial.Progress
import VirtualInstrument.Proofs.Serial.Release
import VirtualInstrument.Proofs.Serial.Sections
import VirtualInstrument.Proofs.Serial.Traffic
import VirtualInstrument.Proofs.Serial.Turns
import VirtualInstrument.Proofs.Session.Failures
import VirtualInstrument.Proofs.Session.Saving
import VirtualInstrument.Proofs.Simulator.Atomicity
import VirtualInstrument.Proofs.Simulator.Endless
import VirtualInstrument.Proofs.Simulator.Handover
import VirtualInstrument.Proofs.Simulator.Literals
import VirtualInstrument.Proofs.Simulator.Naming
import VirtualInstrument.Proofs.Simulator.Observers
import VirtualInstrument.Proofs.Simulator.Queueing
import VirtualInstrument.Proofs.Simulator.Reseeding
import VirtualInstrument.Proofs.Simulator.Separation
import VirtualInstrument.Proofs.Simulator.Soundness
import VirtualInstrument.Proofs.Simulator.Suspension
import VirtualInstrument.Proofs.Simulator.Templates
import VirtualInstrument.Proofs.State.Changes
import VirtualInstrument.Proofs.State.Faults
import VirtualInstrument.Proofs.State.Heap
import VirtualInstrument.Proofs.State.Independence
import VirtualInstrument.Proofs.State.Loops
import VirtualInstrument.Proofs.State.Memory
import VirtualInstrument.Proofs.State.Names
import VirtualInstrument.Proofs.State.Overlay
import VirtualInstrument.Proofs.State.ReadBack
import VirtualInstrument.Proofs.State.Refusal
import VirtualInstrument.Proofs.State.Region
import VirtualInstrument.Proofs.State.Setting
import VirtualInstrument.Proofs.State.Sharing
import VirtualInstrument.Proofs.State.Trees
import VirtualInstrument.Proofs.Text.Digits
import VirtualInstrument.Proofs.Text.Upper
import VirtualInstrument.Recorder
import VirtualInstrument.Replay
import VirtualInstrument.Schema.Verdict
import VirtualInstrument.Scpi.ErrorQueue
import VirtualInstrument.Scpi.Number
import VirtualInstrument.Serial.Bench
import VirtualInstrument.Serial.Link
import VirtualInstrument.Serial.Listing
import VirtualInstrument.Session.Basic
import VirtualInstrument.Session.File
import VirtualInstrument.Session.Form
import VirtualInstrument.Settings
import VirtualInstrument.Simulator.Basic
import VirtualInstrument.Simulator.Creation
import VirtualInstrument.Simulator.Fault
import VirtualInstrument.Simulator.Mutation
import VirtualInstrument.State.Heap
import VirtualInstrument.State.Store
import VirtualInstrument.Station
import VirtualInstrument.Text.Blank
import VirtualInstrument.Text.Identifier
import VirtualInstrument.Text.Units
import VirtualInstrument.Text.Upper
import VirtualInstrument.Text.UpperTable
import VirtualInstrument.Text.Utf8
import VirtualInstrument.Time.Calendar
import VirtualInstrument.Time.Feed
