import TranslitScheme.Files.System
import TranslitScheme.Program.Document
import TranslitScheme.Program.Run
import TranslitScheme.Session.Finish

/-!
# Compiling scheme files

A file is read, its program is run on a new session, and the session is finished. When the
file cannot be read, is not a scheme, or one of its steps fails, the compilation is aborted:
it is not finished, so that nothing is flushed, and the report tells why.
-/

namespace TranslitScheme

/-- Why a file has no program. -/
inductive SourceError where
  | io (path : String) (failure : FileError)
  | malformed (reason : String)
  deriving DecidableEq, Repr, Inhabited

namespace SourceError

/-- The message of a failure. -/
def message : SourceError → String
  | io path failure => "Failed to read scheme file " ++ path ++ ": " ++ failure.message
  | malformed reason => "Failed to parse scheme: " ++ reason

end SourceError

namespace Program

/-- The program of a file, from what was read of it. -/
def ofFile (path : String) (contents : Except FileError String) : Except SourceError Program :=
  match contents with
  | .error failure => .error (.io path failure)
  | .ok text =>
    match parse? text with
    | some program => .ok program
    | none => .error (.malformed (complaint text))

end Program

/-- The outcome of compiling a file. -/
structure Compilation (σ : Type) where
  report : Report
  sink : σ
  aborted : Bool

namespace Compilation

variable {σ : Type} [TokenSink σ]

/-- The outcome of a session that goes no further. -/
def abandon (session : Session σ) (now : String) : Compilation σ where
  report := session.report now
  sink := session.sink
  aborted := true

/-- The outcome of a session that is finished. -/
def complete (session : Session σ) (now : String) : Compilation σ :=
  let finished := session.finish now
  { report := finished.report now, sink := finished.sink, aborted := false }

/-- Compile a file from what was read of it. -/
def ofFile (path : String) (contents : Except FileError String) (sink : σ) (settings : Settings)
    (now : String) : Compilation σ :=
  let session := Session.start sink settings
  match Program.ofFile path contents with
  | .error failure =>
    let located := session.setLocation (some ⟨path, none⟩)
    abandon
      { located with journal := located.journal.error .schemeStructure failure.message } now
  | .ok program =>
    match program.run path session with
    | (.ok (), session) => complete session now
    | (.error _, session) => abandon session now

end Compilation

end TranslitScheme
