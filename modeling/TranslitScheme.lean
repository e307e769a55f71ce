import TranslitScheme.CommandLine.Arguments
import TranslitScheme.CommandLine.Layout
import TranslitScheme.CommandLine.Run
import TranslitScheme.Derivation.Compound
import TranslitScheme.Derivation.Template
import TranslitScheme.Diagnostic.Basic
import TranslitScheme.Diagnostic.Journal
import TranslitScheme.Fault
import TranslitScheme.Files.Disk
import TranslitScheme.Files.Path
import TranslitScheme.Files.System
import TranslitScheme.Files.Tree
import TranslitScheme.Json.Basic
import TranslitScheme.Json.Printer
import TranslitScheme.Json.Reader
import TranslitScheme.Json.Record
import TranslitScheme.Main
import TranslitScheme.NamedLists
import TranslitScheme.Program.Basic
import TranslitScheme.Program.Compile
import TranslitScheme.Program.Document
import TranslitScheme.Program.Run
import TranslitScheme.Proofs.Derivation.Merging
import TranslitScheme.Proofs.Repetition.Operation
import TranslitScheme.Proofs.Repetition.Program
import TranslitScheme.Proofs.Repetition.Sequence
import TranslitScheme.Proofs.Repetition.Session
import TranslitScheme.Proofs.Repetition.Step
import TranslitScheme.Proofs.Repetition.Store
import TranslitScheme.Proofs.Repetition.Template
import TranslitScheme.Proofs.Store.Admission
import TranslitScheme.Proofs.Store.Invariant
import TranslitScheme.Proofs.Store.Operation
import TranslitScheme.Proofs.Value.Reading
import TranslitScheme.Report.Basic
import TranslitScheme.Report.Document
import TranslitScheme.Report.Markdown
import TranslitScheme.Session.Basic
import TranslitScheme.Session.Building
import TranslitScheme.Session.Finish
import TranslitScheme.Session.Query
import TranslitScheme.Session.Scope
import TranslitScheme.Session.Stemming
import TranslitScheme.Settings.Basic
import TranslitScheme.Settings.Document
import TranslitScheme.Table.Basic
import TranslitScheme.Table.Document
import TranslitScheme.Table.File
import TranslitScheme.Table.Sink
import TranslitScheme.Table.Store
import TranslitScheme.Text.Blank
import TranslitScheme.Text.Digits
import TranslitScheme.Text.Replacement
import TranslitScheme.Token.Basic
import TranslitScheme.Token.Category
import TranslitScheme.Token.Option
import TranslitScheme.Toml.Basic
import TranslitScheme.Toml.Draft
import TranslitScheme.Toml.Printer
import TranslitScheme.Toml.Reader
import TranslitScheme.Toml.Record
import TranslitScheme.Toml.Scalar
import TranslitScheme.Toml.SpelledDate
import TranslitScheme.Toml.Text
import TranslitScheme.Value.Basic
import TranslitScheme.Value.Pattern
import TranslitScheme.Value.Setting
import TranslitScheme.Value.Shape
import TranslitScheme.Proofs.Session.Move
import TranslitScheme.Proofs.Session.Operation
import TranslitScheme.Proofs.Session.Remembered
import TranslitScheme.Proofs.Derivation.Filling
import TranslitScheme.Proofs.Session.Rebuilding
import TranslitScheme.Proofs.Session.Observation
import TranslitScheme.Proofs.Program.Export
import TranslitScheme.Proofs.Program.Abort
import TranslitScheme.Proofs.CommandLine.Action
import TranslitScheme.Proofs.CommandLine.ExitCode
import TranslitScheme.Proofs.Derivation.InherentVowel
import TranslitScheme.Proofs.Store.DeadForms
import TranslitScheme.Proofs.Session.Lockstep
import TranslitScheme.Proofs.Program.Lockstep
import TranslitScheme.Proofs.Program.Scoping
import TranslitScheme.Proofs.Session.InherentVowel
import TranslitScheme.Proofs.Program.Severity
import TranslitScheme.Proofs.NamedLists.Places
import TranslitScheme.Proofs.NamedLists.History
import TranslitScheme.Proofs.Json.Scalar
import TranslitScheme.Proofs.Json.RoundTrip
import TranslitScheme.Proofs.Json.Record
import TranslitScheme.Proofs.Report.Storing
import TranslitScheme.Proofs.Session.Defaults
import TranslitScheme.Proofs.Program.Defaults
import TranslitScheme.Proofs.Files.Landing
import TranslitScheme.Proofs.Files.Writing
import TranslitScheme.Proofs.Files.Search
import TranslitScheme.Proofs.CommandLine.Footprint
import TranslitScheme.Proofs.CommandLine.Tables
import TranslitScheme.Proofs.Store.Footprint
import TranslitScheme.Proofs.Store.Flushing
import TranslitScheme.Proofs.Program.Chapters
import TranslitScheme.Proofs.Session.Independence
import TranslitScheme.Proofs.Store.Tags
import TranslitScheme.Proofs.Session.Tags
import TranslitScheme.Proofs.Program.Tags
import TranslitScheme.Proofs.Value.Grammar
import TranslitScheme.Proofs.Store.Exporting
import TranslitScheme.Proofs.Derivation.Placeholders
import TranslitScheme.Proofs.Session.Submission
import TranslitScheme.Proofs.Session.Compounds
import TranslitScheme.Proofs.Session.Redeclaring
import TranslitScheme.Proofs.Session.Aborting
import TranslitScheme.Proofs.Store.Provenance
import TranslitScheme.Proofs.Report.Merging
import TranslitScheme.Proofs.CommandLine.Batch
import TranslitScheme.Proofs.Session.Remarks
import TranslitScheme.Proofs.Session.Stemming
import TranslitScheme.Proofs.Session.Quoting
import TranslitScheme.Proofs.Program.Quoting
import TranslitScheme.Proofs.Derivation.Nesting
import TranslitScheme.Proofs.Derivation.Options
import TranslitScheme.Proofs.Session.Options
import TranslitScheme.Proofs.Program.Options
import TranslitScheme.Proofs.Toml.Strings
import TranslitScheme.Proofs.Toml.Statements
import TranslitScheme.Proofs.Toml.Tables
import TranslitScheme.Proofs.Settings.Saving
