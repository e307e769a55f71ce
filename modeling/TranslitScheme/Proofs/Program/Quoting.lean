import TranslitScheme.Proofs.Program.Move
import TranslitScheme.Proofs.Report.Counting
import TranslitScheme.Proofs.Session.Quoting

/-!
# What programs quote

The steps of a program ask sessions for operations, and a step that is not put together properly is
rejected. Nothing is quoted between operations, so that whatever a program records is recorded under
the text of what it is about: `told` says what that is, for steps, for programs and for the
compilation of a file.
-/

namespace TranslitScheme

variable {σ : Type}

namespace Session

/-- The remark on a step that is not put together properly. -/
def rejectionRemarks (operation reason : String) : List Remark :=
  [⟨.nothing, ⟨.schemeStructure, .error, (StepError.invalidStep operation reason).message⟩⟩]

/-- A rejected step is remarked on. -/
theorem records_rejectStep (session : Session σ) (h : session.journal.expression = none)
    (operation reason : String) :
    session.Records (session.relate (rejectionRemarks operation reason))
      (session.rejectStep operation reason).2 :=
  .of_tell h (Journal.record_eq_tell h _)

variable [TokenSink σ]

/-- A step that asks for an operation tells what the operation records. -/
theorem Records.ofOperation (operation : Operation) (session : Session σ)
    (h : session.journal.expression = none) :
    session.Records (operation.told session)
      (StepResult.ofOperation (operation.perform session)).2 := by
  rw [ofOperation_snd]
  exact Operation.records_perform operation session h

end Session

open Session

variable [TokenSink σ]

namespace Declaration

/-- What a declaration records. -/
def told (part : Section) (body : Declaration) (session : Session σ) : List Diagnostic :=
  match body.tokens, body.expansion with
  | some tokens, none => Operation.told (.build part.category body.options tokens) session
  | none, some expansion =>
    match expansion.source with
    | .error reason => session.relate (rejectionRemarks part.name reason)
    | .ok source =>
      Operation.told
        (.expand part.category body.options source expansion.tokenFilter expansion.template) session
  | _, _ =>
    session.relate (rejectionRemarks part.name "expected exactly one of 'tokens' or 'combine'")

/-- A declaration tells what it records. -/
theorem records_run (part : Section) (body : Declaration) (session : Session σ)
    (h : session.journal.expression = none) :
    session.Records (body.told part session) (body.run part session).2 := by
  obtain ⟨options, _ | tokens, _ | expansion⟩ := body
  · exact session.records_rejectStep h _ _
  · unfold told run runExpansion
    dsimp only
    cases expansion.source with
    | error reason => exact session.records_rejectStep h _ _
    | ok source =>
      have hexpand := Operation.records_perform (.expand part.category options source
        expansion.tokenFilter expansion.template) session h
      rw [Operation.perform] at hexpand
      dsimp only
      generalize session.combine source expansion.tokenFilter expansion.template = asked
        at hexpand ⊢
      obtain ⟨fault | mapping, asked⟩ := asked
      · exact hexpand
      · exact (ofOperation_snd _).symm ▸ hexpand
  · exact Records.ofOperation (.build part.category options tokens) session h
  · exact session.records_rejectStep h _ _

end Declaration

namespace Step

mutual

/-- What a step records. -/
def told : Step → Session σ → List Diagnostic
  | declare part body, session => body.told part session
  | joiner tokens, session => Operation.told (.joiner tokens) session
  | nonJoiner tokens, session => Operation.told (.nonJoiner tokens) session
  | period value, session => Operation.told (.period value) session
  | tag name steps, session =>
    toldAll steps { session with journal := { session.journal with tag := some name } }
  | list names steps, session =>
    match session.lists.openScope names with
    | (.error fault, _) => session.relate [.ofFault fault]
    | (.ok (), lists) => toldAll steps { session with lists }
  | generateCompounds, session => Operation.told .generateCompounds session
  | stemRules tokens, session => Operation.told (.stemRules tokens) session
  | stemExceptions tokens, session => Operation.told (.stemExceptions tokens) session
  | inferDeadConsonants enabled, session => Operation.told (.inferDeadConsonants enabled) session
  | ignoreDuplicates enabled, session => Operation.told (.ignoreDuplicates enabled) session

/-- What steps record, up to the first that fails. -/
def toldAll : List Step → Session σ → List Diagnostic
  | [], _ => []
  | step :: rest, session =>
    told step session ++
      match run step session with
      | (.ok (), left) => toldAll rest left
      | _ => []

end

mutual

/-- A step tells what it records, if nothing is quoted when it begins. -/
theorem records_run : (step : Step) → (session : Session σ) → session.journal.expression = none →
    session.Records (told step session) (run step session).2
  | declare part body, session, h => body.records_run part session h
  | joiner tokens, session, h => Records.ofOperation (.joiner tokens) session h
  | nonJoiner tokens, session, h => Records.ofOperation (.nonJoiner tokens) session h
  | period value, session, h => Records.ofOperation (.period value) session h
  | tag name steps, session, h =>
    have hsteps := records_runAll steps
      { session with journal := { session.journal with tag := some name } } h
    ⟨hsteps.quiet, hsteps.entries⟩
  | list names steps, session, h => by
    rw [run, underLists, told]
    rcases session.lists.openScope_cases names with ⟨fault, hfault⟩ | ⟨lists, hopened, -⟩
    · rw [hfault]
      exact .of_tell h (abort_tells (α := Unit) session h fault)
    · rw [hopened]
      have hsteps := records_runAll steps { session with lists } h
      exact ⟨hsteps.quiet, hsteps.entries⟩
  | generateCompounds, session, h => Operation.records_perform .generateCompounds session h
  | stemRules tokens, session, h => Records.ofOperation (.stemRules tokens) session h
  | stemExceptions tokens, session, h => Records.ofOperation (.stemExceptions tokens) session h
  | inferDeadConsonants enabled, session, h =>
    Operation.records_perform (.inferDeadConsonants enabled) session h
  | ignoreDuplicates enabled, session, h =>
    Operation.records_perform (.ignoreDuplicates enabled) session h

/-- Steps up to one that fails tell what they record. -/
theorem records_runAll : (steps : List Step) → (session : Session σ) →
    session.journal.expression = none →
    session.Records (toldAll steps session) (runAll steps session).2
  | [], session, h => .nothing h rfl rfl
  | step :: rest, session, h => by
    have hfirst := records_run step session h
    rw [runAll, toldAll]
    generalize run step session = outcome at hfirst ⊢
    obtain ⟨failure | ⟨⟩, left⟩ := outcome
    · exact (List.append_nil _).symm ▸ hfirst
    · exact hfirst.trans (records_runAll rest left hfirst.quiet)

end

/-- What the top-level steps of a file record, up to the first that fails. -/
def toldLocated (file : String) : Nat → List Step → Session σ → List Diagnostic
  | _, [], _ => []
  | index, step :: rest, session =>
    let located := session.setLocation (some ⟨file, some index⟩)
    step.told located ++
      match step.run located with
      | (.ok (), left) => toldLocated file (index + 1) rest left
      | _ => []

/-- The top-level steps of a file tell what they record. -/
theorem records_runLocated (file : String) (index : Nat) (steps : List Step) (session : Session σ)
    (h : session.journal.expression = none) :
    session.Records (toldLocated file index steps session)
      (runLocated file index steps session).2 := by
  induction steps generalizing index session with
  | nil => exact .nothing h rfl rfl
  | cons step rest ih =>
    have hfirst := records_run step (session.setLocation (some ⟨file, some index⟩)) h
    rw [runLocated, toldLocated]
    generalize step.run (session.setLocation (some ⟨file, some index⟩)) = outcome at hfirst ⊢
    obtain ⟨failure | ⟨⟩, left⟩ := outcome
    · exact (List.append_nil _).symm ▸ ⟨hfirst.quiet, hfirst.entries⟩
    · have hrest := ih (index + 1) left hfirst.quiet
      exact ⟨hrest.quiet, (hfirst.trans hrest).entries⟩

end Step

namespace Program

/-- What a program records. -/
def told (file : String) (program : Program) (session : Session σ) : List Diagnostic :=
  Step.toldLocated file 1 program.steps (program.header.apply session)

/-- A program tells what it records. -/
theorem records_run (file : String) (program : Program) (session : Session σ)
    (h : session.journal.expression = none) :
    session.Records (program.told file session) (program.run file session).2 := by
  have hheader : (program.header.apply session).journal = session.journal := by
    rw [program.header.apply_eq]
  have hsteps := Step.records_runLocated file 1 program.steps (program.header.apply session)
    ((congrArg Journal.expression hheader).trans h)
  have hentries := hsteps.entries
  rw [hheader] at hentries
  unfold run told
  generalize Step.runLocated file 1 program.steps (program.header.apply session) = outcome
    at hsteps hentries ⊢
  obtain ⟨failure | ⟨⟩, left⟩ := outcome
  · exact ⟨hsteps.quiet, hentries⟩
  · exact ⟨hsteps.quiet, hentries⟩

end Program

namespace Compilation

/-- What a session records when it begins, if the sink refuses the inherent vowel. -/
def toldAtStart (sink : σ) (settings : Settings) : List Diagnostic :=
  relate { sink, settings, journal := { overrides := settings.overrides } } <|
    refusalRemarks .sinkRejected
      (TokenSink.configure sink (.inherentVowel settings.inherentVowel)).1

/-- Nothing is quoted in a session that begins. -/
theorem start_records (sink : σ) (settings : Settings) :
    (Session.start sink settings).journal.expression = none ∧
      (Session.start sink settings).journal.entries = toldAtStart sink settings := by
  have htold := Records.of_tell rfl (configure_tells
    { sink, settings, journal := { overrides := settings.overrides } } rfl
    (.inherentVowel settings.inherentVowel))
  exact ⟨htold.quiet, htold.entries⟩

/-- What the compilation of a file records. -/
def told (path : String) (contents : Except FileError String) (sink : σ) (settings : Settings)
    (now : String) : List Diagnostic :=
  let session := Session.start sink settings
  toldAtStart sink settings ++
    match Program.ofFile path contents with
    | .error failure =>
      (session.setLocation (some ⟨path, none⟩)).relate
        [⟨.nothing, ⟨.schemeStructure, .error, failure.message⟩⟩]
    | .ok program =>
      program.told path session ++
        match program.run path session with
        | (.ok (), left) => Operation.told (.finish now) left
        | _ => []

/-- The report of a compilation has what was recorded. -/
theorem diagnostics_ofFile (path : String) (contents : Except FileError String) (sink : σ)
    (settings : Settings) (now : String) :
    (ofFile path contents sink settings now).report.diagnostics =
      told path contents sink settings now := by
  obtain ⟨hquiet, hentries⟩ := start_records sink settings
  unfold ofFile told
  dsimp only
  rw [← hentries]
  cases Program.ofFile path contents with
  | error failure =>
    let located := (Session.start sink settings).setLocation (some ⟨path, none⟩)
    have hrecord := Journal.record_eq_tell (show located.journal.expression = none from hquiet)
      ⟨.schemeStructure, .error, failure.message⟩
    exact (diagnostics_report _ now).trans (congrArg Journal.entries hrecord)
  | ok program =>
    have hrun := program.records_run path (Session.start sink settings) hquiet
    dsimp only
    generalize program.run path (Session.start sink settings) = outcome at hrun ⊢
    obtain ⟨failure | ⟨⟩, left⟩ := outcome
    · rw [List.append_nil, ← hrun.entries]
      exact diagnostics_report left now
    · have hfinish := Operation.records_perform (.finish now) left hrun.quiet
      rw [← (hrun.trans hfinish).entries]
      exact diagnostics_report _ now

end Compilation

namespace Session

/-- The sessions that operations and steps come by: those that are left when one of them ends, and
those in which the operations and steps of a scope find themselves, also while the scope is open. -/
inductive Meets (start : Session σ) : Session σ → Prop
  | start : Meets start start
  | perform {session : Session σ} (h : Meets start session) (operation : Operation) :
    Meets start (operation.perform session).2
  | run {session : Session σ} (h : Meets start session) (step : Step) :
    Meets start (step.run session).2
  | enterTag {session : Session σ} (h : Meets start session) (name : String) :
    Meets start { session with journal := { session.journal with tag := some name } }
  | enterLists {session : Session σ} (h : Meets start session) {names : List Value}
    {lists : NamedLists} (hopen : session.lists.openScope names = (.ok (), lists)) :
    Meets start { session with lists }

/-- Nothing is quoted in sessions that operations and steps come by, if nothing was at the start. -/
theorem Meets.quiet {start session : Session σ} (h : start.Meets session)
    (hstart : start.journal.expression = none) : session.journal.expression = none := by
  induction h with
  | start => exact hstart
  | perform _ operation ih => exact (Operation.records_perform operation _ ih).quiet
  | run _ step ih => exact (step.records_run _ ih).quiet
  | enterTag _ name ih => exact ih
  | enterLists _ hopen ih => exact ih

end Session

/-- No diagnostic quotes what it is not about. Whatever operations and steps a session has come by,
also in scopes and after failures, nothing is quoted when the next one begins, and nothing when it
ends. What it records is what `told` says: each finding about a pair of a mapping quotes that pair,
each finding about a token its pattern and first value, each finding about a pair of endings that
pair, and faults, rejected steps and failures of the sink quote nothing. So does the report of a
compiled file. -/
theorem quotes_own_subject (sink : σ) (settings : Settings) :
    (∀ session, (Session.start sink settings).Meets session →
      session.journal.expression = none ∧
      (∀ operation : Operation,
        let left := (operation.perform session).2
        left.journal.expression = none ∧
        left.journal.entries = session.journal.entries ++ operation.told session) ∧
      ∀ step : Step,
        let left := (step.run session).2
        left.journal.expression = none ∧
        left.journal.entries = session.journal.entries ++ step.told session) ∧
    ∀ path contents now, (Compilation.ofFile path contents sink settings now).report.diagnostics =
      Compilation.told path contents sink settings now := by
  refine ⟨fun session hmeets => ?_,
    fun path contents now => Compilation.diagnostics_ofFile path contents sink settings now⟩
  have hquiet := hmeets.quiet (Compilation.start_records sink settings).1
  refine ⟨hquiet, fun operation => ?_, fun step => ?_⟩
  · have htold := operation.records_perform session hquiet
    exact ⟨htold.quiet, htold.entries⟩
  · have htold := step.records_run session hquiet
    exact ⟨htold.quiet, htold.entries⟩

/-- Vowels are declared with a blank pattern among them and a priority that is none, and then stem
rules with a group. The blank pattern and the group quote their pairs, and the priority, which is
met after the first and before the second, quotes nothing. -/
theorem quotes_own_subject_wrongPriority :
    let start := Session.start ({ } : TokenStore) { }
    let declared := (Operation.perform (.build .vowel { priority := some (.str "urgent") }
      (.map [(.str "", .str "E"), (.str "i", .str "I")])) start).2
    let left := (Step.run (.stemRules (.map [(.list [.str "a"], .str "b")])) declared).2
    start.Meets declared ∧ declared.journal.expression = none ∧ left.journal.expression = none ∧
    left.journal.entries.map (fun diagnostic => (diagnostic.code, diagnostic.expression)) =
      [(.shapeEmptyValue, some " => E"), (.optionInvalidPriority, none),
        (.shapeInvalidType, some "[a] => b")] := by
  intro start declared left
  have hmeets : start.Meets declared := .perform .start _
  obtain ⟨hquiet, -, hsteps⟩ := (quotes_own_subject ({ } : TokenStore) { }).1 declared hmeets
  obtain ⟨hleft, hentries⟩ := hsteps (.stemRules (.map [(.list [.str "a"], .str "b")]))
  refine ⟨hmeets, hquiet, hleft, ?_⟩
  rw [hentries]
  rfl

end TranslitScheme
