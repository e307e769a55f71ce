import TranslitScheme.Program.Basic
import TranslitScheme.Session.Building
import TranslitScheme.Session.Query
import TranslitScheme.Session.Scope
import TranslitScheme.Session.Stemming

/-!
# Running scheme programs

The steps of a program run in order on a session, until one of them fails. While a top-level
step runs, with all the steps nested in it, findings are located at that step. A step that is
not put together properly fails like a fault does, and is recorded once.
-/

namespace TranslitScheme

/-- Why a step fails. -/
inductive StepError where
  | fault (misuse : Fault)
  | invalidStep (operation reason : String)
  deriving DecidableEq, Repr, Inhabited

namespace StepError

/-- The message of a failure. -/
def message : StepError → String
  | .fault misuse => misuse.message
  | .invalidStep operation reason => "Invalid " ++ operation ++ " step: " ++ reason

/-- The code under which a failure is recorded. -/
def code : StepError → DiagnosticCode
  | .fault misuse => misuse.code
  | .invalidStep _ _ => .schemeStructure

end StepError

/-- What a step leaves: its result and the session. -/
abbrev StepResult (σ : Type) := Except StepError Unit × Session σ

namespace StepResult

variable {σ : Type}

/-- The result of an operation as the result of a step. -/
def ofOperation (result : Except Fault Unit × Session σ) : StepResult σ :=
  match result with
  | (.ok (), session) => (.ok (), session)
  | (.error fault, session) => (.error (.fault fault), session)

end StepResult

namespace Session

variable {σ : Type}

/-- Record that a step is not put together properly, and fail. -/
def rejectStep (session : Session σ) (operation reason : String) : StepResult σ :=
  let failure := StepError.invalidStep operation reason
  (.error failure, { session with journal := session.journal.error failure.code failure.message })

end Session

namespace Expansion

/-- The source that an expansion names, or what is wrong with it. -/
def source (expansion : Expansion) : Except String TokenSource :=
  match expansion.category, expansion.list with
  | some name, none =>
    match Category.ofSectionName? name with
    | some category => .ok (.category category)
    | none => .error ("unknown combine source category '" ++ name ++ "'")
  | none, some name => .ok (.list name)
  | _, _ => .error "combine.source needs exactly one of 'category' or 'list'"

/-- The filter of an expansion. -/
def tokenFilter (expansion : Expansion) : TokenFilter :=
  (expansion.filter.map TokenFilter.ofCriteria).getD .all

end Expansion

namespace Header

variable {σ : Type}

/-- Take over the details that a header states. -/
def apply (header : Header) (session : Session σ) : Session σ :=
  let session := (header.languageCode.map session.setLanguageCode).getD session
  let session := (header.identifier.map session.setIdentifier).getD session
  let session := (header.displayName.map session.setDisplayName).getD session
  let session := (header.author.map session.setAuthor).getD session
  (header.stable.map session.setStable).getD session

end Header

variable {σ : Type} [TokenSink σ]

namespace Declaration

/-- Expand a template and build the tokens that come of it. -/
def runExpansion (part : Section) (options : TokenOptions) (expansion : Expansion)
    (session : Session σ) : StepResult σ :=
  match expansion.source with
  | .error reason => session.rejectStep part.name reason
  | .ok source =>
    match session.combine source expansion.tokenFilter expansion.template with
    | (.error fault, session) => (.error (.fault fault), session)
    | (.ok mapping, session) =>
      StepResult.ofOperation (session.build part.category options mapping.toValue)

/-- Run a declaration, which must have either tokens or a template. -/
def run (part : Section) (body : Declaration) (session : Session σ) : StepResult σ :=
  match body.tokens, body.expansion with
  | some tokens, none => StepResult.ofOperation (session.build part.category body.options tokens)
  | none, some expansion => runExpansion part body.options expansion session
  | _, _ => session.rejectStep part.name "expected exactly one of 'tokens' or 'combine'"

end Declaration

namespace Step

mutual

/-- Run a step. -/
def run : Step → Session σ → StepResult σ
  | declare part body, session => body.run part session
  | joiner tokens, session => StepResult.ofOperation (session.joiner tokens)
  | nonJoiner tokens, session => StepResult.ofOperation (session.nonJoiner tokens)
  | period value, session => StepResult.ofOperation (session.period value)
  | tag name steps, session => session.underTag name fun session => runAll steps session
  | list names steps, session =>
    session.underLists names StepError.fault fun session => runAll steps session
  | generateCompounds, session => (.ok (), session.generateCompounds.2)
  | stemRules tokens, session => StepResult.ofOperation (session.stemRules tokens)
  | stemExceptions tokens, session => StepResult.ofOperation (session.stemExceptions tokens)
  | inferDeadConsonants enabled, session => (.ok (), session.inferDeadConsonants enabled)
  | ignoreDuplicates enabled, session => (.ok (), session.ignoreDuplicates enabled)

/-- Run steps in order, up to the first that fails. -/
def runAll : List Step → Session σ → StepResult σ
  | [], session => (.ok (), session)
  | step :: rest, session =>
    match run step session with
    | (.ok (), session) => runAll rest session
    | failed => failed

end

/-- Run the top-level steps of a file in order, the next one being number `index`. -/
def runLocated (file : String) : Nat → List Step → Session σ → StepResult σ
  | _, [], session => (.ok (), session)
  | index, step :: rest, session =>
    match step.run (session.setLocation (some ⟨file, some index⟩)) with
    | (.ok (), session) => runLocated file (index + 1) rest session
    | failed => failed

end Step

namespace Program

/-- Run a program: take over its header, then run its steps.

Afterwards findings are located at the file, unless a step failed, when its location stays. -/
def run (file : String) (program : Program) (session : Session σ) : StepResult σ :=
  match Step.runLocated file 1 program.steps (program.header.apply session) with
  | (.ok (), session) => (.ok (), session.setLocation (some ⟨file, none⟩))
  | failed => failed

end Program

end TranslitScheme
