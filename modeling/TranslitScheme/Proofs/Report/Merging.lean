import TranslitScheme.Proofs.Report.Counting

/-!
# Reports that add up

A report is made by adding diagnostics and merging other reports, in any order. Its summary is
counted along the way, and it agrees with the diagnostics at every point: what a merged report says
about its own diagnostics is not looked at. Merging is associative, so that reports may be merged
one by one or in groups.
-/

namespace TranslitScheme

/-- Every diagnostic has one of the three severities. -/
theorem Diagnostic.length_eq_count (diagnostics : List Diagnostic) :
    diagnostics.length =
      count .error diagnostics + count .warn diagnostics + count .info diagnostics := by
  induction diagnostics with
  | nil => rfl
  | cons diagnostic rest ih =>
    simp only [count] at ih
    cases hseverity : diagnostic.severity <;>
      simp [count, hseverity] <;> omega

namespace Report

/-- What is done to a report in the making: a diagnostic is added, or another report is merged,
whatever its summary says. -/
inductive Change where
  | add (diagnostic : Diagnostic)
  | merge (other : Report)

/-- A report after a change. -/
def change (report : Report) : Change → Report
  | .add diagnostic => report.add diagnostic
  | .merge other => report.merge other

/-- A report after changes in order. -/
def after (report : Report) (changes : List Change) : Report := changes.foldl change report

/-- The summary of a report agrees with its diagnostics. -/
structure Counted (report : Report) : Prop where
  total : report.summary.total = report.diagnostics.length
  errors : report.summary.errors = Diagnostic.count .error report.diagnostics
  warnings : report.summary.warnings = Diagnostic.count .warn report.diagnostics
  info : report.summary.info = Diagnostic.count .info report.diagnostics

variable {report : Report}

/-- The total is the sum of the counts by severity. -/
theorem Counted.total_eq_add (h : report.Counted) :
    report.summary.total =
      report.summary.errors + report.summary.warnings + report.summary.info := by
  rw [h.total, h.errors, h.warnings, h.info, ← Diagnostic.length_eq_count]

/-- A report has errors when one of its diagnostics is an error. -/
theorem Counted.hasErrors_iff (h : report.Counted) :
    report.hasErrors = true ↔
      ∃ diagnostic ∈ report.diagnostics, diagnostic.severity = .error := by
  rw [hasErrors, decide_eq_true_eq, h.errors, Diagnostic.count_pos_iff]

/-- An empty report agrees with its diagnostics. -/
theorem counted_empty (now : String) : (empty now).Counted := ⟨rfl, rfl, rfl, rfl⟩

/-- Diagnostics that are added are counted. -/
theorem Counted.addAll (h : report.Counted) (diagnostics : List Diagnostic) :
    (report.addAll diagnostics).Counted := by
  rw [addAll_eq]
  exact {
    total := by simp [Summary.counting, h.total]
    errors := by simp [Summary.counting, h.errors]
    warnings := by simp [Summary.counting, h.warnings]
    info := by simp [Summary.counting, h.info] }

/-- A change of a report is counted. -/
theorem Counted.change (h : report.Counted) (change : Change) : (report.change change).Counted := by
  cases change with
  | add diagnostic => exact h.addAll [diagnostic]
  | merge other =>
    -- What is taken over as stated does not touch the counts by severity.
    let joined : Report :=
      { report with
        summary :=
          { report.summary with
            tokensCreated :=
              (report.summary.tokensCreated + other.summary.tokensCreated) % countLimit
            schemesCompiled :=
              (report.summary.schemesCompiled + other.summary.schemesCompiled) % countLimit }
        schemes := report.schemes ++ other.schemes }
    have hjoined : joined.Counted := ⟨h.total, h.errors, h.warnings, h.info⟩
    exact hjoined.addAll other.diagnostics

/-- Changes of a report are counted. -/
theorem Counted.after (h : report.Counted) (changes : List Change) :
    (report.after changes).Counted := by
  induction changes generalizing report with
  | nil => exact h
  | cons change rest ih => exact ih (h.change change)

/-- Merging in two parts is merging at once, also where counts wrap around. -/
theorem merge_assoc (first second third : Report) :
    (first.merge second).merge third = first.merge (second.merge third) := by
  simp [merge_eq, Summary.counting, Nat.add_assoc]

/-- The numbers of tokens and schemes are added as they are, when the sums are below the limit of
counts. -/
theorem stated_merge (report other : Report) :
    (report.summary.tokensCreated + other.summary.tokensCreated < countLimit →
      (report.merge other).summary.tokensCreated =
        report.summary.tokensCreated + other.summary.tokensCreated) ∧
    (report.summary.schemesCompiled + other.summary.schemesCompiled < countLimit →
      (report.merge other).summary.schemesCompiled =
        report.summary.schemesCompiled + other.summary.schemesCompiled) := by
  rw [merge_eq]
  exact ⟨Nat.mod_eq_of_lt, Nat.mod_eq_of_lt⟩

/-- Merged reports have the diagnostics of all of them, in order. -/
theorem diagnostics_after_merges (report : Report) (others : List Report) :
    (report.after (others.map Change.merge)).diagnostics =
      report.diagnostics ++ others.flatMap Report.diagnostics := by
  induction others generalizing report with
  | nil => exact (List.append_nil _).symm
  | cons other rest ih =>
    have hmerged : (report.merge other).diagnostics = report.diagnostics ++ other.diagnostics := by
      rw [merge_eq]
    rw [List.flatMap_cons, ← List.append_assoc, ← hmerged]
    exact ih (report.merge other)

/-- Reports that are merged have errors when one of them has a diagnostic that is one. -/
theorem hasErrors_after_merges_iff (now : String) (others : List Report) :
    ((empty now).after (others.map Change.merge)).hasErrors = true ↔
      ∃ other ∈ others, ∃ diagnostic ∈ other.diagnostics, diagnostic.severity = .error := by
  have hdiagnostics := diagnostics_after_merges (empty now) others
  rw [((counted_empty now).after _).hasErrors_iff, hdiagnostics]
  change (∃ diagnostic ∈ others.flatMap Report.diagnostics, _) ↔ _
  simp only [List.mem_flatMap]
  constructor
  · rintro ⟨diagnostic, ⟨other, hother, hdiagnostic⟩, herror⟩
    exact ⟨other, hother, diagnostic, hdiagnostic, herror⟩
  · rintro ⟨other, hother, diagnostic, hdiagnostic, herror⟩
    exact ⟨diagnostic, ⟨other, hother, hdiagnostic⟩, herror⟩

end Report

/-- The report of a session agrees with its diagnostics. -/
theorem Session.counted_report {σ : Type} (session : Session σ) (now : String) :
    (session.report now).Counted :=
  have h := (Report.counted_empty now).addAll session.journal.entries
  ⟨h.total, h.errors, h.warnings, h.info⟩

end TranslitScheme
