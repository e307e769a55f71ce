import TranslitScheme.Proofs.Program.Move
import TranslitScheme.Proofs.Report.Counting
import TranslitScheme.Proofs.Session.Aborting
import TranslitScheme.Proofs.Session.Operation

/-!
# What an aborted compilation tells

Whatever makes a compilation stop is recorded as the last of its diagnostics, with the code and the
message of the failure: a file without a program, a fault in an operation, a step that is not put
together properly. It is recorded as an error, unless the settings give its code another severity.

An aborted compilation has errors therefore, as long as the settings do not make that very code less
than an error.
-/

namespace TranslitScheme

/-- The last that a journal tells has a given code and message. Its severity is that of an error,
unless the overrides give its code another one. -/
def Journal.EndsWith (journal : Journal) (code : DiagnosticCode) (message : String) : Prop :=
  ∃ diagnostic, journal.entries.getLast? = some diagnostic ∧ diagnostic.code = code ∧
    diagnostic.message = message ∧
    diagnostic.severity = journal.overrides.severityOf code .error

/-- A journal ends with an error that is recorded. -/
theorem Journal.endsWith_error (journal : Journal) (code : DiagnosticCode) (message : String) :
    (journal.error code message).EndsWith code message :=
  ⟨journal.stamp ⟨code, .error, message⟩, List.getLast?_concat, rfl, rfl, rfl⟩

namespace Session

variable {σ ε α : Type}

/-- What fails tells its failure last. -/
def TellsLast (code : ε → DiagnosticCode) (message : ε → String)
    (outcome : Except ε α × Session σ) : Prop :=
  ∀ failure, outcome.1 = .error failure →
    outcome.2.journal.EndsWith (code failure) (message failure)

/-- An operation that ends with a fault tells it last. -/
abbrev TellsFault (outcome : Except Fault α × Session σ) : Prop :=
  TellsLast Fault.code Fault.message outcome

/-- A step that fails tells why at last. -/
abbrev TellsStepError (outcome : StepResult σ) : Prop :=
  TellsLast StepError.code StepError.message outcome

variable {code : ε → DiagnosticCode} {message : ε → String}

/-- What does not fail has no failure to tell. -/
theorem tells_ok (value : α) (session : Session σ) :
    TellsLast code message (.ok value, session) :=
  fun _ h => by contradiction

/-- What fails has to end with its failure. -/
theorem tells_error {failure : ε} {session : Session σ}
    (h : session.journal.EndsWith (code failure) (message failure)) :
    TellsLast code message ((.error failure : Except ε α), session) := by
  intro other hother
  obtain rfl := Except.error.inj hother
  exact h

/-- An operation that is aborted cleanly tells its fault last. -/
theorem tells_of_abortsCleanly {session : Session σ} {shape : List Diagnostic}
    {outcome : Except Fault α × Session σ} (h : session.AbortsCleanly shape outcome) :
    TellsFault outcome := by
  intro fault hfault
  have hleft := h fault hfault
  obtain ⟨last, hentries, hcode, hmessage, hseverity⟩ := hleft.told
  refine ⟨last, ?_, hcode, hmessage, ?_⟩
  · rw [hentries]
    exact List.getLast?_concat
  · rw [hleft.overrides]
    exact hseverity

/-- A step that is rejected was recorded. -/
theorem tells_rejectStep (session : Session σ) (operation reason : String) :
    TellsStepError (session.rejectStep operation reason) :=
  tells_error (Journal.endsWith_error session.journal _ _)

/-- Creating pairs tells why it fails. -/
theorem tells_createPairs (session : Session σ) (value : Value)
    (create : σ → String × String → Except SinkError Unit × σ) (what : String) :
    TellsFault (session.createPairs value create what) :=
  tells_of_abortsCleanly (abortsCleanly_createPairs session value create what)

/-- What runs under a tag tells what its body tells. -/
theorem tells_underTag (session : Session σ) (name : String)
    {body : Session σ → Except ε α × Session σ}
    (hbody : ∀ entered, TellsLast code message (body entered)) :
    TellsLast code message (session.underTag name body) :=
  fun failure hfailure => hbody _ failure hfailure

/-- What runs in a list scope tells what its body tells, or that there can be no such scope. -/
theorem tells_underLists (session : Session σ) (names : List Value)
    {body : Session σ → Except ε α × Session σ}
    (hbody : ∀ entered, TellsLast code message (body entered)) {wrap : Fault → ε}
    (hcode : ∀ fault, code (wrap fault) = fault.code)
    (hmessage : ∀ fault, message (wrap fault) = fault.message) :
    TellsLast code message (session.underLists names wrap body) := by
  unfold underLists
  rcases session.lists.openScope names with ⟨fault | ⟨⟩, lists⟩
  · refine tells_error ?_
    rw [hcode, hmessage]
    exact Journal.endsWith_error session.journal _ _
  · exact fun failure hfailure => hbody { session with lists } failure hfailure

/-- What an operation tells as a fault, its step tells as a failure. -/
theorem tells_ofOperation {outcome : Except Fault Unit × Session σ} (h : TellsFault outcome) :
    TellsStepError (StepResult.ofOperation outcome) := by
  obtain ⟨fault | ⟨⟩, session⟩ := outcome
  · exact tells_error (h fault rfl)
  · exact tells_ok _ _

variable [TokenSink σ]

/-- Building tells why it fails. -/
theorem tells_build (session : Session σ) (category : Category) (options : TokenOptions)
    (value : Value) : TellsFault (session.build category options value) :=
  tells_of_abortsCleanly (abortsCleanly_build session category options value)

/-- Combining tells why it fails. -/
theorem tells_combine (session : Session σ) (source : TokenSource) (filter : TokenFilter)
    (template : Value) : TellsFault (session.combine source filter template) :=
  tells_of_abortsCleanly (abortsCleanly_combine session source filter template)

end Session

open Session

variable {σ : Type} [TokenSink σ]

/-- A declaration tells why it fails. -/
theorem Declaration.tells_run (part : Section) (body : Declaration) (session : Session σ) :
    TellsStepError (body.run part session) := by
  unfold run
  split
  · exact tells_ofOperation (tells_build session _ _ _)
  · rename_i expansion _ _
    unfold runExpansion
    cases expansion.source with
    | error reason => exact tells_rejectStep session _ _
    | ok source =>
      have hcombined := tells_combine session source expansion.tokenFilter expansion.template
      dsimp only
      generalize session.combine source expansion.tokenFilter expansion.template = combined
        at hcombined ⊢
      obtain ⟨fault | mapping, combined⟩ := combined
      · exact tells_error (hcombined fault rfl)
      · exact tells_ofOperation (tells_build combined _ _ _)
  · exact tells_rejectStep session _ _

mutual

/-- A step tells why it fails, also when a step nested in it does. -/
theorem Step.tells_run : (step : Step) → (session : Session σ) →
    TellsStepError (step.run session)
  | .declare part body, session => Declaration.tells_run part body session
  | .joiner _, _ => tells_ofOperation (tells_build _ _ _ _)
  | .nonJoiner _, _ => tells_ofOperation (tells_build _ _ _ _)
  | .period _, _ => tells_ofOperation (tells_build _ _ _ _)
  | .tag name steps, session =>
    tells_underTag session name fun entered => tells_runAll steps entered
  | .list names steps, session =>
    tells_underLists session names (fun entered => tells_runAll steps entered) (fun _ => rfl)
      fun _ => rfl
  | .generateCompounds, _ => tells_ok _ _
  | .stemRules tokens, session => tells_ofOperation (tells_createPairs session tokens _ _)
  | .stemExceptions tokens, session => tells_ofOperation (tells_createPairs session tokens _ _)
  | .inferDeadConsonants _, _ => tells_ok _ _
  | .ignoreDuplicates _, _ => tells_ok _ _

/-- Steps tell why one of them fails. -/
theorem Step.tells_runAll : (steps : List Step) → (session : Session σ) →
    TellsStepError (Step.runAll steps session)
  | [], session => tells_ok _ session
  | step :: rest, session => by
    have hfirst := Step.tells_run step session
    rw [runAll]
    generalize step.run session = outcome at hfirst ⊢
    obtain ⟨failure | ⟨⟩, left⟩ := outcome
    · exact hfirst
    · exact Step.tells_runAll rest left

end

/-- The top-level steps of a file tell why one of them fails. -/
theorem Step.tells_runLocated (file : String) (index : Nat) (steps : List Step)
    (session : Session σ) : TellsStepError (Step.runLocated file index steps session) := by
  induction steps generalizing index session with
  | nil => exact tells_ok _ session
  | cons step rest ih =>
    have hfirst := Step.tells_run step (session.setLocation (some ⟨file, some index⟩))
    rw [runLocated]
    generalize step.run (session.setLocation (some ⟨file, some index⟩)) = outcome at hfirst ⊢
    obtain ⟨failure | ⟨⟩, left⟩ := outcome
    · exact hfirst
    · exact ih (index + 1) left

/-- A program tells why it fails. -/
theorem Program.tells_run (file : String) (program : Program) (session : Session σ) :
    TellsStepError (program.run file session) := by
  have hsteps := Step.tells_runLocated file 1 program.steps (program.header.apply session)
  unfold Program.run
  generalize Step.runLocated file 1 program.steps (program.header.apply session) = outcome
    at hsteps ⊢
  obtain ⟨failure | ⟨⟩, left⟩ := outcome
  · exact hsteps
  · exact tells_ok _ _

/-- The overrides of the settings are in force from the start. -/
theorem Session.overrides_start (sink : σ) (settings : Settings) :
    (Session.start sink settings).journal.overrides = settings.overrides := by
  have hconfigured := grows_of_move (.configure
    { sink, settings, journal := { overrides := settings.overrides } }
    (.inherentVowel settings.inherentVowel))
  exact hconfigured.overrides

/-- Running a program leaves the overrides of the settings in force. -/
theorem Program.overrides_run (file : String) (program : Program) (sink : σ)
    (settings : Settings) :
    (program.run file (Session.start sink settings)).2.journal.overrides = settings.overrides := by
  have hrun := grows_of_leads (Program.leads_run file program (Session.start sink settings))
  rw [Header.apply_eq] at hrun
  exact hrun.overrides.trans (overrides_start sink settings)

namespace Compilation

/-- What a compilation is aborted by, if it is, as it is found before the settings are asked for
the severity: there is no program, or the program fails. -/
def abortedBy (path : String) (contents : Except FileError String) (sink : σ)
    (settings : Settings) : Option Finding :=
  match Program.ofFile path contents with
  | .error failure => some ⟨.schemeStructure, .error, failure.message⟩
  | .ok program =>
    match (program.run path (Session.start sink settings)).1 with
    | .error failure => some ⟨failure.code, .error, failure.message⟩
    | .ok () => none

omit [TokenSink σ] in
/-- A session that is abandoned reports what its journal ends with. Its report has an error just
when that is one, or an earlier diagnostic is. -/
theorem told_of_endsWith {session : Session σ} {code : DiagnosticCode} {message : String}
    (h : session.journal.EndsWith code message) {overrides : Overrides}
    (hoverrides : session.journal.overrides = overrides) (now : String) :
    let report := (abandon session now).report
    (∃ diagnostic, report.diagnostics.getLast? = some diagnostic ∧
      diagnostic.code = code ∧ diagnostic.message = message ∧
        diagnostic.severity = overrides.severityOf code .error) ∧
    (report.hasErrors = true ↔ overrides.severityOf code .error = .error ∨
      ∃ earlier ∈ report.diagnostics.dropLast, earlier.severity = .error) := by
  intro report
  have hentries : report.diagnostics = session.journal.entries := diagnostics_report session now
  have herrors : report.summary.errors = session.journal.errors := errors_report session now
  obtain ⟨diagnostic, hlast, hcode, hmessage, hseverity⟩ := h
  rw [hoverrides] at hseverity
  have hsplit : session.journal.entries.dropLast ++ [diagnostic] = session.journal.entries :=
    List.dropLast_append_getLast? diagnostic hlast
  refine ⟨⟨diagnostic, ?_, hcode, hmessage, hseverity⟩, ?_⟩
  · rw [hentries, hlast]
  · calc
      report.hasErrors = true ↔ ∃ entry ∈ session.journal.entries, entry.severity = .error := by
        rw [Report.hasErrors, decide_eq_true_eq, herrors]
        exact Diagnostic.count_pos_iff
      _ ↔ ∃ entry ∈ report.diagnostics.dropLast ++ [diagnostic], entry.severity = .error := by
        rw [hentries, hsplit]
      _ ↔ _ := by
        simp only [List.mem_append, List.mem_singleton, or_and_right, exists_or, exists_eq_left,
          hseverity]
        exact Or.comm

/-- What aborts a compilation is told last, with the severity that the settings give it. There is an
error just when that is one, or an earlier diagnostic is. -/
theorem told_of_aborted {path : String} {contents : Except FileError String} {sink : σ}
    {settings : Settings} {now : String}
    (haborted : (ofFile path contents sink settings now).aborted = true) :
    let report := (ofFile path contents sink settings now).report
    ∃ finding, abortedBy path contents sink settings = some finding ∧
      (∃ diagnostic, report.diagnostics.getLast? = some diagnostic ∧
        diagnostic.code = finding.code ∧ diagnostic.message = finding.message ∧
          diagnostic.severity = settings.overrides.severityOf finding.code .error) ∧
      (report.hasErrors = true ↔ settings.overrides.severityOf finding.code .error = .error ∨
        ∃ earlier ∈ report.diagnostics.dropLast, earlier.severity = .error) := by
  rcases ofFile_cases path contents sink settings now with
    ⟨failure, hsource, hcompiled⟩ |
      ⟨program, hsource, ⟨failure, hrun, hcompiled⟩ | ⟨hrun, hcompiled⟩⟩
  · have habort : abortedBy path contents sink settings =
        some ⟨.schemeStructure, .error, failure.message⟩ := by
      rw [abortedBy, hsource]
    dsimp only at hcompiled ⊢
    rw [hcompiled]
    refine ⟨_, habort, told_of_endsWith ?_ ?_ now⟩
    · exact Journal.endsWith_error _ _ _
    · exact overrides_start sink settings
  · have habort : abortedBy path contents sink settings =
        some ⟨failure.code, .error, failure.message⟩ := by
      rw [abortedBy, hsource]
      dsimp only
      rw [hrun]
    have hlast := Program.tells_run path program (Session.start sink settings) failure hrun
    dsimp only
    rw [hcompiled]
    exact ⟨_, habort,
      told_of_endsWith hlast (Program.overrides_run path program sink settings) now⟩
  · rw [hcompiled] at haborted
    contradiction

end Compilation

end TranslitScheme
