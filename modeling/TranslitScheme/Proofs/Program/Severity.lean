import Mathlib.Data.List.Forall2
import TranslitScheme.Proofs.Program.Lockstep
import TranslitScheme.Proofs.Report.Counting

/-!
# Severity overrides

Settings may replace the severities of diagnostics. That is a matter of the report alone: nothing
that a compilation does depends on how severe its findings are or on how many errors it has counted.

Two compilations of a file under different overrides are therefore in lockstep. They record the same
findings, each graded by its own overrides, which is what `Journal.Regraded` says of their journals.
In the end they differ in severities and, if they were made at different times, in dates:
`Compilation.ofFile_regraded`.
-/

namespace TranslitScheme

/-- Two diagnostics of the same finding. Each has the severity that its overrides set for the code,
and if they set none, the one that is usual for the finding. -/
structure Diagnostic.Regraded (left right : Overrides) (diagnostic other : Diagnostic) : Prop where
  code : diagnostic.code = other.code
  message : diagnostic.message = other.message
  location : diagnostic.location = other.location
  expression : diagnostic.expression = other.expression
  severity : ∃ usual, diagnostic.severity = left.severityOf diagnostic.code usual ∧
    other.severity = right.severityOf other.code usual

/-- Two journals of the same findings under different overrides. -/
structure Journal.Regraded (left right : Overrides) (journal other : Journal) : Prop where
  overrides : journal.overrides = left ∧ other.overrides = right
  location : journal.location = other.location
  tag : journal.tag = other.tag
  expression : journal.expression = other.expression
  entries : List.Forall₂ (Diagnostic.Regraded left right) journal.entries other.entries

/-- Two sessions that differ in their overrides and in the severities that come of them. -/
def Session.Regraded {σ : Type} (left right : Overrides) (session other : Session σ) : Prop :=
  ∃ journal, session.journal.Regraded left right journal ∧
    other = { session with settings := { session.settings with overrides := right }, journal }

variable {left right : Overrides}

namespace Journal

variable {journal other : Journal}

/-- A finding becomes the same diagnostic in both journals, except for its severity. -/
theorem Regraded.stamp (h : journal.Regraded left right other) (finding : Finding) :
    (journal.stamp finding).Regraded left right (other.stamp finding) where
  code := rfl
  message := rfl
  location := h.location
  expression := h.expression
  severity := by
    obtain ⟨rfl, rfl⟩ := h.overrides
    exact ⟨finding.severity, rfl, rfl⟩

/-- A finding is recorded in both journals. -/
theorem Regraded.record (h : journal.Regraded left right other) (finding : Finding) :
    (journal.record finding).Regraded left right (other.record finding) where
  overrides := h.overrides
  location := h.location
  tag := h.tag
  expression := h.expression
  entries := List.rel_append h.entries (.cons (h.stamp finding) .nil)

/-- The active expression changes in both journals. -/
theorem Regraded.express (h : journal.Regraded left right other) (expression : Option String) :
    { journal with expression }.Regraded left right { other with expression } :=
  ⟨h.overrides, h.location, h.tag, rfl, h.entries⟩

/-- The active tag changes in both journals. -/
theorem Regraded.retag (h : journal.Regraded left right other) (tag : Option String) :
    { journal with tag }.Regraded left right { other with tag } :=
  ⟨h.overrides, h.location, rfl, h.expression, h.entries⟩

/-- The active location changes in both journals. -/
theorem Regraded.locate (h : journal.Regraded left right other) (location : Option Location) :
    { journal with location }.Regraded left right { other with location } :=
  ⟨h.overrides, rfl, h.tag, h.expression, h.entries⟩

/-- An error under an expression of its own is recorded in both journals. -/
theorem Regraded.errorIn (h : journal.Regraded left right other) (code : DiagnosticCode)
    (expression message : String) :
    (journal.errorIn code expression message).Regraded left right
      (other.errorIn code expression message) where
  overrides := h.overrides
  location := h.location
  tag := h.tag
  expression := h.expression
  entries := ((h.express (some expression)).record ⟨code, .error, message⟩).entries

end Journal

namespace Session

variable {σ : Type} [TokenSink σ] {session other : Session σ}

/-- The same tokens are accepted, since those that are refused are only recorded. -/
theorem Regraded.submit (h : session.Regraded left right other) (token : Token) :
    Alike (Regraded left right) (session.submit token) (other.submit token) := by
  obtain ⟨journal, hjournal, rfl⟩ := h
  unfold Session.submit
  dsimp only
  rw [← hjournal.tag]
  split
  · exact ⟨rfl, _, hjournal.errorIn _ _ _, rfl⟩
  · rcases TokenSink.createToken session.sink _ with ⟨refusal | ⟨⟩, sink⟩
    · exact ⟨rfl, _, hjournal.errorIn _ _ _, rfl⟩
    · exact ⟨rfl, _, hjournal, rfl⟩

/-- A switch is set on both sides. -/
theorem Regraded.configure (h : session.Regraded left right other) (option : SinkOption) :
    (session.configure option).Regraded left right (other.configure option) := by
  obtain ⟨journal, hjournal, rfl⟩ := h
  unfold Session.configure
  dsimp only
  rcases TokenSink.configure session.sink option with ⟨refusal | ⟨⟩, sink⟩
  · exact ⟨_, hjournal.record _, rfl⟩
  · exact ⟨_, hjournal, rfl⟩

/-- Dead consonants are read back on both sides. -/
theorem Regraded.refresh (h : session.Regraded left right other) :
    session.refreshDeadConsonants.Regraded left right other.refreshDeadConsonants := by
  obtain ⟨journal, hjournal, rfl⟩ := h
  unfold refreshDeadConsonants
  dsimp only
  rcases TokenSink.tokensOf session.sink .deadConsonant with refusal | tokens
  · exact ⟨_, hjournal.record _, rfl⟩
  · exact ⟨_, hjournal, rfl⟩

/-- Both sinks are flushed. -/
theorem Regraded.flush (h : session.Regraded left right other) :
    session.flush.Regraded left right other.flush := by
  obtain ⟨journal, hjournal, rfl⟩ := h
  unfold Session.flush
  dsimp only
  rcases TokenSink.flush session.sink with ⟨refusal | ⟨⟩, sink⟩
  · exact ⟨_, hjournal.record _, rfl⟩
  · exact ⟨_, hjournal, rfl⟩

/-- The details are stored on both sides. -/
theorem Regraded.storeDetails (h : session.Regraded left right other) (now : String) :
    (session.storeDetails now).Regraded left right (other.storeDetails now) := by
  obtain ⟨journal, hjournal, rfl⟩ := h
  unfold Session.storeDetails
  dsimp only
  rcases TokenSink.setDetails session.sink _ with ⟨refusal | ⟨⟩, sink⟩
  · exact ⟨_, hjournal.record _, rfl⟩
  · exact ⟨_, hjournal, rfl⟩

end Session

/-- Details without the time of their compilation. -/
def Details.undated (details : Details) : Details :=
  { details with compiledDate := "" }

/-- A store without the time of the compilation that it has the details of. -/
def TokenStore.undated (store : TokenStore) : TokenStore :=
  { store with details := store.details.map Details.undated }

/-- Two outcomes that differ in the severities of diagnostics, how many there are of each severity,
and when they were come to. -/
structure Compilation.Regraded (left right : Overrides) (compiled other : Compilation TokenStore) :
    Prop where
  aborted : compiled.aborted = other.aborted
  sink : compiled.sink.undated = other.sink.undated
  total : compiled.report.summary.total = other.report.summary.total
  tokensCreated : compiled.report.summary.tokensCreated = other.report.summary.tokensCreated
  schemesCompiled : compiled.report.summary.schemesCompiled = other.report.summary.schemesCompiled
  schemes : compiled.report.schemes.map Details.undated = other.report.schemes.map Details.undated
  diagnostics : List.Forall₂ (Diagnostic.Regraded left right) compiled.report.diagnostics
    other.report.diagnostics

namespace Session

variable {session other : Session TokenStore}

/-- A session without the time at which it was finished. -/
def undated (session : Session TokenStore) : Session TokenStore :=
  { session with sink := session.sink.undated, details := session.details.undated }

/-- The schemes of a report are dated like the session. -/
theorem schemes_report (session : Session TokenStore) (now : String) :
    (session.report now).schemes.map Details.undated =
      if session.details.undated.identifier = "" then [] else [session.details.undated] := by
  change (if session.details.identifier = "" then [] else [session.details]).map _ = _
  exact apply_ite (List.map Details.undated) _ _ _

/-- Sessions that differ in their overrides come to the same reports except for the severities, also
when one of them was finished at another time. -/
theorem Regraded.outcome (h : session.Regraded left right other) {dated : Session TokenStore}
    (hdated : other.undated = dated.undated) (now later : String) (aborted : Bool) :
    Compilation.Regraded left right ⟨session.report now, session.sink, aborted⟩
      ⟨dated.report later, dated.sink, aborted⟩ := by
  obtain ⟨journal, hjournal, rfl⟩ := h
  obtain rfl : journal = dated.journal := congrArg Session.journal hdated
  have hsink : session.sink.undated = dated.sink.undated := congrArg Session.sink hdated
  have hdetails : session.details.undated = dated.details.undated :=
    congrArg Session.details hdated
  have htokens := congrArg Session.tokensCreated hdated
  exact {
    aborted := rfl
    sink := hsink
    total := by rw [total_report, total_report, hjournal.entries.length_eq]
    tokensCreated := htokens
    schemesCompiled := rfl
    schemes := by rw [schemes_report, schemes_report, hdetails]
    diagnostics := by
      rw [diagnostics_report, diagnostics_report]
      exact hjournal.entries }

end Session

end TranslitScheme
