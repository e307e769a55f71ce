import TranslitScheme.CommandLine.Arguments
import TranslitScheme.CommandLine.Layout
import TranslitScheme.Files.Path
import TranslitScheme.Program.Compile
import TranslitScheme.Report.Document
import TranslitScheme.Report.Markdown
import TranslitScheme.Settings.Document
import TranslitScheme.Table.File
import TranslitScheme.Table.Store

/-!
# Commands

What the program does with its arguments, in any monad that has files. Compiling writes one
table for each scheme that is not aborted, next to the scheme or into one directory for all,
and then the reports that were asked for. The exit code tells whether there was an error.

Everything printed is collected, so that a run is its exit code, its two outputs, and what it
did to the files.
-/

namespace TranslitScheme.CommandLine

/-- What a run has printed. -/
structure Terminal where
  out : String := ""
  err : String := ""
  deriving DecidableEq, Repr, Inhabited

/-- A run that may fail. -/
abbrev Action (m : Type → Type) := ExceptT Failure (StateT Terminal m)

/-- How a run ends. -/
structure Outcome where
  exitCode : Nat
  terminal : Terminal
  deriving DecidableEq, Repr, Inhabited

/-- The file that settings are taken from when no other is named. -/
def settingsFile : String := "vstc.toml"

/-- How the names of scheme files end. -/
def schemeSuffix : String := ".scheme.toml"

/-- How the names of table files end. -/
def tableSuffix : String := ".vst.json"

/-- A name without an ending that it has. -/
def withoutSuffix? (suffix name : String) : Option String :=
  if Text.endsWith name suffix then
    some (String.ofList (name.toList.take (name.length - suffix.length)))
  else none

/-- Where the table of a scheme goes: next to it, or into a given directory. -/
def tablePath (source : String) (outputDir : Option String) : String :=
  let name := (Path.fileName? source).getD ""
  let stem :=
    ((withoutSuffix? schemeSuffix name).orElse fun _ => Path.fileStem? source).getD "scheme"
  let directory := outputDir.getD ((Path.parent? source).getD "")
  Path.join directory (stem ++ tableSuffix)

variable {m : Type → Type} [Monad m]

/-- Print lines. -/
def say (texts : List String) : Action m Unit :=
  modify fun terminal => { terminal with out := terminal.out ++ lines texts }

/-- Print lines where errors go. -/
def warn (texts : List String) : Action m Unit :=
  modify fun terminal => { terminal with err := terminal.err ++ lines texts }

/-- Print a line where errors go, if much is to be told. -/
def note (verbose : Bool) (text : String) : Action m Unit :=
  if verbose then warn [text] else pure ()

/-- The value of an operation, whose failure has causes in a given order. -/
def orFail {α ε : Type} (result : Except ε α) (message : String) (causes : ε → List String) :
    Action m α :=
  match result with
  | .ok value => pure value
  | .error failure => throw { message, causes := causes failure }

/-- The cause of a failure with a file. -/
def fileCauses (failure : FileError) : List String := [failure.message]

/-- The causes of a failure with a table file. -/
def tableCauses (failure : TableError) : List String := [failure.message, failure.reason]

variable [FileSystem m]

instance : FileSystem (Action m) where
  isFile path := ExceptT.lift (StateT.lift (FileSystem.isFile path))
  isDirectory path := ExceptT.lift (StateT.lift (FileSystem.isDirectory path))
  filesBelow path := ExceptT.lift (StateT.lift (FileSystem.filesBelow path))
  readText path := ExceptT.lift (StateT.lift (FileSystem.readText path))
  writeText path text := ExceptT.lift (StateT.lift (FileSystem.writeText path text))
  createDirectory path := ExceptT.lift (StateT.lift (FileSystem.createDirectory path))

/-- Load settings from a file that was named, from the usual file, or take the defaults. -/
def loadSettings (config : Option String) (verbose : Bool) : Action m Settings := do
  let named : Option String ← match config with
    | some path => pure (some path)
    | none =>
      if (← FileSystem.isFile settingsFile) || (← FileSystem.isDirectory settingsFile) then
        pure (some settingsFile)
      else pure none
  match named with
  | some path =>
    orFail (Settings.ofFile path (← FileSystem.readText path)) ("Failed to load config " ++ path)
      fun failure => [failure.message]
  | none =>
    note verbose "No config file found, using defaults"
    return { }

/-- The file that a path leads to, or all files below it whose names end in a suffix. -/
def findFiles (path suffix : String) : Action m (List String) := do
  if ← FileSystem.isFile path then return [path]
  else if ← FileSystem.isDirectory path then
    let files ← FileSystem.filesBelow path
    return files.filter fun file => Text.endsWith ((Path.fileName? file).getD "") suffix
  else throw { message := path ++ " does not exist" }

/-- Write the table of a compilation, making the directory that it goes to. -/
def writeTable (target : String) (table : Table) : Action m Unit := do
  let directory := (Path.parent? target).getD ""
  if directory ≠ "" then
    orFail (← FileSystem.createDirectories directory) ("Failed to create " ++ directory) fileCauses
  orFail ((← FileSystem.writeText target table.text).mapError TableError.io)
    ("Failed to write table " ++ target) tableCauses

/-- Compile one scheme, and write its table unless the compilation is aborted. -/
def compileScheme (settings : Settings) (source : String) (outputDir : Option String)
    (verbose : Bool) (now : String) : Action m Report := do
  let target := tablePath source outputDir
  say ["Compiling " ++ source, "Building " ++ target]
  let contents ← FileSystem.readText source
  let compiled := Compilation.ofFile source contents ({ } : TokenStore) settings now
  say (compiled.report.diagnostics.flatMap diagnosticLines)
  if compiled.aborted then warn ["Aborted, nothing written for " ++ source]
  else
    writeTable target compiled.sink.toTable
    note verbose
      ("Wrote " ++ toString compiled.sink.flushed.length ++ " tokens to " ++ target)
  say ["Completed with '" ++ toString compiled.report.summary.warnings ++
    "' warning(s) and '" ++ toString compiled.report.summary.errors ++ "' error(s)"]
  return compiled.report

/-- Compile schemes in order, and merge their reports. -/
def compileSchemes (settings : Settings) (outputDir : Option String) (verbose : Bool)
    (now : String) : List String → Report → Action m Report
  | [], report => pure report
  | source :: rest, report => do
    let compiled ← compileScheme settings source outputDir verbose now
    compileSchemes settings outputDir verbose now rest (report.merge compiled)

/-- Write a report to a file, if one is named. -/
def writeReport (path : Option String) (text what : String) (verbose : Bool) : Action m Unit :=
  match path with
  | none => pure ()
  | some path => do
    orFail (← FileSystem.writeText path text) ("Failed to write " ++ what ++ " " ++ path) fileCauses
    let done := what.capitalize ++ " saved to: " ++ path
    note verbose done

/-- Compile the schemes at a path and tell whether there was an error. -/
def compileCommand (settings : Settings) (path : String) (outputDir report markdown : Option String)
    (verbose : Bool) (now : String) : Action m Bool := do
  let sources ← findFiles path schemeSuffix
  if sources.isEmpty then
    throw { message := "No " ++ schemeSuffix ++ " files found under " ++ path }
  note verbose ("Found " ++ toString sources.length ++ " scheme(s)")
  let outputDir := outputDir.orElse fun _ => settings.outputPath?
  let merged ← compileSchemes settings outputDir verbose now sources (Report.empty now)
  writeReport report merged.text "report" verbose
  writeReport markdown merged.markdown "markdown report" verbose
  say (summaryLines merged)
  return merged.hasErrors

/-- Print the details of one compiled table. -/
def showTable (path : String) : Action m Unit := do
  let table ← orFail (Table.ofFile (← FileSystem.readText path)) ("Failed to read table " ++ path)
    tableCauses
  say (path :: detailsLines table.details ++ [""])

/-- Print the details of tables in order. -/
def showTables : List String → Action m Unit
  | [] => pure ()
  | path :: rest => do
    showTable path
    showTables rest

/-- Print the details of the compiled tables in a directory. -/
def schemesCommand (directory : String) : Action m Unit := do
  let tables ← findFiles directory tableSuffix
  if tables.isEmpty then say ["No compiled tables found under " ++ directory]
  else showTables tables

/-- Carry out a command and tell whether it found an error. -/
def perform (arguments : Arguments) (now : String) : Action m Bool := do
  let settings ← loadSettings arguments.config arguments.verbose
  match arguments.command with
  | .compile path outputDir report markdown =>
    compileCommand settings path outputDir report markdown arguments.verbose now
  | .schemes directory =>
    schemesCommand directory
    return false

/-- The outcome of a run that ends by itself or fails. -/
def conclude (ended : Except Failure Bool × Terminal) : Outcome :=
  match ended with
  | (.ok foundError, terminal) => { exitCode := if foundError then 1 else 0, terminal }
  | (.error failure, terminal) =>
    { exitCode := 1, terminal := { terminal with err := terminal.err ++ failure.text } }

/-- Run the program with given arguments at a given time. -/
def run (arguments : List String) (now : String) : m Outcome :=
  match Arguments.parse arguments with
  | .error .help => pure { exitCode := 0, terminal := { out := helpText } }
  | .error .version => pure { exitCode := 0, terminal := { out := versionText } }
  | .error (.usage reason) => pure { exitCode := 2, terminal := { err := usageText reason } }
  | .ok arguments => do
    let ended ← (perform arguments now).run.run { }
    return conclude ended

end TranslitScheme.CommandLine
