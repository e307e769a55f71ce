import TranslitScheme.Session.Basic

/-!
# Counts in reports

Adding diagnostics to a report counts each of them under its severity, and merging counts those of
the other report anew: `addAll_eq` and `merge_eq` say what becomes of a report as a whole. The
errors of both reports are kept, whatever the other report says about itself.
-/

namespace TranslitScheme

namespace Diagnostic

/-- None of no diagnostics has a given severity. -/
@[simp] theorem count_nil (severity : Severity) : count severity [] = 0 := rfl

/-- Diagnostics of two lists are counted in each of them. -/
@[simp] theorem count_append (severity : Severity) (diagnostics others : List Diagnostic) :
    count severity (diagnostics ++ others) = count severity diagnostics + count severity others :=
  List.countP_append

/-- Some diagnostics have a given severity when one of them has it. -/
theorem count_pos_iff {severity : Severity} {diagnostics : List Diagnostic} :
    0 < count severity diagnostics ↔
      ∃ diagnostic ∈ diagnostics, diagnostic.severity = severity := by
  simp only [count, List.countP_pos_iff, beq_iff_eq]

end Diagnostic

namespace Summary

/-- A summary in which further diagnostics are counted. -/
def counting (summary : Summary) (diagnostics : List Diagnostic) : Summary :=
  { summary with
    total := summary.total + diagnostics.length
    errors := summary.errors + Diagnostic.count .error diagnostics
    warnings := summary.warnings + Diagnostic.count .warn diagnostics
    info := summary.info + Diagnostic.count .info diagnostics }

/-- Counting nothing changes nothing. -/
theorem counting_nil (summary : Summary) : summary.counting [] = summary := by
  simp [counting]

/-- Counting in two parts is counting at once. -/
theorem counting_counting (summary : Summary) (diagnostics others : List Diagnostic) :
    (summary.counting diagnostics).counting others = summary.counting (diagnostics ++ others) := by
  simp [counting, Nat.add_assoc]

end Summary

namespace Report

/-- One more diagnostic is counted, under its severity. -/
theorem summary_add (report : Report) (diagnostic : Diagnostic) :
    (report.add diagnostic).summary = report.summary.counting [diagnostic] := by
  change report.summary.count diagnostic.severity = _
  cases hseverity : diagnostic.severity <;>
    simp [Summary.count, Summary.counting, Diagnostic.count, hseverity]

/-- Diagnostics that are added are appended and counted, and nothing else is changed. -/
theorem addAll_eq (report : Report) (diagnostics : List Diagnostic) :
    report.addAll diagnostics =
      { report with
        summary := report.summary.counting diagnostics
        diagnostics := report.diagnostics ++ diagnostics } := by
  induction diagnostics generalizing report with
  | nil => simp [addAll, Summary.counting_nil]
  | cons diagnostic rest ih =>
    have hstep : report.addAll (diagnostic :: rest) = (report.add diagnostic).addAll rest := rfl
    have hsummary : (report.add diagnostic).summary.counting rest =
        report.summary.counting (diagnostic :: rest) := by
      rw [summary_add, Summary.counting_counting, List.singleton_append]
    rw [hstep, ih, hsummary, diagnostics_add, List.append_assoc, List.singleton_append]
    rfl

/-- A merged report has what both have. The counts by severity are those of the report, with the
diagnostics of the other counted anew; the tokens and schemes of both are added as stated, up to the
limit of counts. -/
theorem merge_eq (report other : Report) :
    report.merge other =
      { report with
        summary :=
          { report.summary.counting other.diagnostics with
            tokensCreated :=
              (report.summary.tokensCreated + other.summary.tokensCreated) % countLimit
            schemesCompiled :=
              (report.summary.schemesCompiled + other.summary.schemesCompiled) % countLimit }
        diagnostics := report.diagnostics ++ other.diagnostics
        schemes := report.schemes ++ other.schemes } :=
  addAll_eq _ _

/-- A merged report has the errors of both, the other's counted anew. -/
theorem errors_merge (report other : Report) :
    (report.merge other).summary.errors =
      report.summary.errors + Diagnostic.count .error other.diagnostics :=
  congrArg (fun merged => merged.summary.errors) (merge_eq report other)

/-- A merged report has errors when the report had. -/
theorem hasErrors_merge_of_left {report : Report} (h : report.hasErrors = true) (other : Report) :
    (report.merge other).hasErrors = true := by
  rw [hasErrors, decide_eq_true_eq] at h ⊢
  rw [errors_merge]
  omega

/-- A merged report has errors when the other tells one. -/
theorem hasErrors_merge_of_right (report : Report) {other : Report} {diagnostic : Diagnostic}
    (hmem : diagnostic ∈ other.diagnostics) (herror : diagnostic.severity = .error) :
    (report.merge other).hasErrors = true := by
  have hcount := Diagnostic.count_pos_iff.mpr ⟨diagnostic, hmem, herror⟩
  rw [hasErrors, decide_eq_true_eq, errors_merge]
  omega

end Report

namespace Session

variable {σ : Type}

/-- A report tells what is in the journal. -/
theorem diagnostics_report (session : Session σ) (now : String) :
    (session.report now).diagnostics = session.journal.entries := by
  change (Report.ofDiagnostics now session.journal.entries).diagnostics = _
  rw [Report.ofDiagnostics, Report.diagnostics_addAll]
  rfl

/-- A report counts what is in the journal, and the tokens of one scheme. -/
theorem summary_report (session : Session σ) (now : String) :
    (session.report now).summary =
      { ({ } : Summary).counting session.journal.entries with
        tokensCreated := session.tokensCreated, schemesCompiled := 1 } := by
  unfold report
  rw [Report.ofDiagnostics, Report.addAll_eq]
  rfl

/-- A report has the errors that are in the journal. -/
theorem errors_report (session : Session σ) (now : String) :
    (session.report now).summary.errors = session.journal.errors := by
  rw [summary_report]
  exact Nat.zero_add _

/-- A report has the warnings that are in the journal. -/
theorem warnings_report (session : Session σ) (now : String) :
    (session.report now).summary.warnings = session.journal.warnings := by
  rw [summary_report]
  exact Nat.zero_add _

/-- A report counts what is in the journal. -/
theorem total_report (session : Session σ) (now : String) :
    (session.report now).summary.total = session.journal.entries.length := by
  rw [summary_report]
  exact Nat.zero_add _

end Session

end TranslitScheme
