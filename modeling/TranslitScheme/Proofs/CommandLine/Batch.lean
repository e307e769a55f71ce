import TranslitScheme.Proofs.CommandLine.Tables
import TranslitScheme.Proofs.Report.Merging

/-!
# The report of many schemes

A command that compiles merges the reports of its schemes one after the other. What it tells in the
end is what they tell together: it has an error exactly if one of them has a diagnostic that is one.
-/

namespace TranslitScheme.CommandLine

open TranslitScheme.CommandLine.Action

section Batch

variable (settings : Settings) (outputDir : Option String) (verbose : Bool) (now : String)

/-- The sources that are compiled one after the other, each in the tree that the one before it
leaves, with their reports and the tree that the last one leaves. -/
inductive Batch : FileTree → List String → List Report → FileTree → Prop
  | nil (tree : FileTree) : Batch tree [] [] tree
  | cons {tree middle left : FileTree} {source : String} {compiled : Report}
      {rest : List String} {reports : List Report}
      (hcompiled : (compileScheme settings source outputDir verbose now).outcome tree =
        (.ok compiled, middle))
      (hrest : Batch middle rest reports left) :
      Batch tree (source :: rest) (compiled :: reports) left

variable {settings outputDir verbose now}

/-- A scheme that is compiled hands on the report of its compilation. -/
theorem report_of_compileScheme {source : String} {compiled : Report} {tree left : FileTree}
    (h : (compileScheme settings source outputDir verbose now).outcome tree =
      (.ok compiled, left)) :
    compiled = (Compilation.ofFile source (tree.readText source) ({ } : TokenStore) settings
      now).report := by
  rw [outcome_compileScheme] at h
  exact returns_deliver _ _ _ _ { } tree compiled (congrArg Prod.fst h)

/-- The reports of a batch are those of its sources, each read when its turn comes. -/
theorem Batch.forall₂ {tree left : FileTree} {sources : List String} {reports : List Report}
    (h : Batch settings outputDir verbose now tree sources reports left) :
    List.Forall₂ (fun source compiled => ∃ reached : FileTree,
      compiled = (Compilation.ofFile source (reached.readText source) ({ } : TokenStore) settings
        now).report) sources reports := by
  induction h with
  | nil tree => exact .nil
  | cons hcompiled hrest ih => exact .cons ⟨_, report_of_compileScheme hcompiled⟩ ih

/-- Schemes that are compiled are a batch, and its reports are merged in order. -/
theorem exists_batch_of_compileSchemes {sources : List String} {report merged : Report}
    {tree left : FileTree}
    (h : (compileSchemes settings outputDir verbose now sources report).outcome tree =
      (.ok merged, left)) :
    ∃ reports, Batch settings outputDir verbose now tree sources reports left ∧
      merged = report.after (reports.map .merge) := by
  induction sources generalizing report tree with
  | nil =>
    obtain ⟨hmerged, rfl⟩ := Prod.mk.inj h
    exact ⟨[], .nil tree, (Except.ok.inj hmerged).symm⟩
  | cons source rest ih =>
    obtain ⟨compiled, middle, hcompiled, hrest⟩ :=
      exists_outcome_of_bind (fun _ => unheard_compileSchemes _ _ _ _ _ _) h
    obtain ⟨reports, hreports, rfl⟩ := ih hrest
    exact ⟨compiled :: reports, .cons hcompiled hreports, rfl⟩

/-- The merged report of a batch has errors when one of the reports has a diagnostic that is one. -/
theorem hasErrors_of_compileSchemes_iff {sources : List String} {merged : Report}
    {tree left : FileTree}
    (h : (compileSchemes settings outputDir verbose now sources (Report.empty now)).outcome tree =
      (.ok merged, left)) :
    ∃ reports, Batch settings outputDir verbose now tree sources reports left ∧
      merged = (Report.empty now).after (reports.map .merge) ∧
      (merged.hasErrors = true ↔
        ∃ report ∈ reports, ∃ diagnostic ∈ report.diagnostics, diagnostic.severity = .error) := by
  obtain ⟨reports, hbatch, rfl⟩ := exists_batch_of_compileSchemes h
  exact ⟨reports, hbatch, rfl, Report.hasErrors_after_merges_iff now reports⟩

end Batch

/-- Reports add up. However a report is made from an empty one, by adding diagnostics and merging
other reports, its summary counts its diagnostics, in total and by severity. Merging appends the
diagnostics and schemes of the other report and may be done in any grouping. It adds the numbers of
tokens and schemes that both state, which are sums as long as they are below the limit of 64-bit
counts, and wrap around there.

Hence a command that compiles finds an error exactly if the report of one of its sources has a
diagnostic that is one, and the report of a session counts as the session itself does. -/
theorem reports_add_up :
    (∀ (now : String) (changes : List Report.Change),
      let report := (Report.empty now).after changes
      report.Counted ∧ report.summary.total =
        report.summary.errors + report.summary.warnings + report.summary.info) ∧
    (∀ report other : Report,
      let merged := report.merge other
      merged.diagnostics = report.diagnostics ++ other.diagnostics ∧
      merged.schemes = report.schemes ++ other.schemes ∧
      merged.summary.tokensCreated =
        (report.summary.tokensCreated + other.summary.tokensCreated) % countLimit ∧
      merged.summary.schemesCompiled =
        (report.summary.schemesCompiled + other.summary.schemesCompiled) % countLimit ∧
      (report.summary.tokensCreated + other.summary.tokensCreated < countLimit →
        merged.summary.tokensCreated =
          report.summary.tokensCreated + other.summary.tokensCreated) ∧
      (report.summary.schemesCompiled + other.summary.schemesCompiled < countLimit →
        merged.summary.schemesCompiled =
          report.summary.schemesCompiled + other.summary.schemesCompiled)) ∧
    (∀ first second third : Report,
      (first.merge second).merge third = first.merge (second.merge third)) ∧
    (∀ (settings : Settings) (path : String) (outputDir report markdown : Option String)
      (verbose : Bool) (now : String) (tree left : FileTree) (foundError : Bool),
      (compileCommand settings path outputDir report markdown verbose now).outcome tree =
        (.ok foundError, left) →
      ∃ sources reports found middle,
        (findFiles path schemeSuffix).outcome tree = (.ok sources, found) ∧
        Batch settings (outputDir.orElse fun _ => settings.outputPath?) verbose now found sources
          reports middle ∧
        List.Forall₂ (fun source compiled => ∃ reached : FileTree,
          compiled = (Compilation.ofFile source (reached.readText source) ({ } : TokenStore)
            settings now).report) sources reports ∧
        let merged := (Report.empty now).after (reports.map .merge)
        (announce report markdown verbose merged).outcome middle = (.ok foundError, left) ∧
        foundError = merged.hasErrors ∧
        (merged.hasErrors = true ↔
          ∃ report ∈ reports, ∃ diagnostic ∈ report.diagnostics, diagnostic.severity = .error)) ∧
    ∀ {σ : Type} (session : Session σ) (now : String),
      let report := session.report now
      report.Counted ∧ report.diagnostics = session.journal.entries ∧
      report.summary.errors = session.journal.errors ∧
      report.summary.warnings = session.journal.warnings := by
  refine ⟨fun now changes => ?counted, fun report other => ?merged, Report.merge_assoc,
    fun settings path outputDir report markdown verbose now tree left foundError h => ?batch,
    fun session now => ?session⟩
  case counted =>
    have hcounted := (Report.counted_empty now).after changes
    exact ⟨hcounted, hcounted.total_eq_add⟩
  case merged =>
    intro merged
    obtain ⟨htokens, hschemes⟩ := Report.stated_merge report other
    have hmerged : merged = _ := Report.merge_eq report other
    refine ⟨?_, ?_, ?_, ?_, htokens, hschemes⟩ <;> rw [hmerged]
  case batch =>
    obtain ⟨sources, merged, found, middle, hsources, hmerged, hannounced⟩ :=
      exists_outcome_of_compileCommand h
    obtain ⟨reports, hbatch, rfl, herrors⟩ := hasErrors_of_compileSchemes_iff hmerged
    have hfoundError :=
      returns_announce _ _ _ _ { } middle foundError (congrArg Prod.fst hannounced)
    exact ⟨sources, reports, found, middle, hsources, hbatch, hbatch.forall₂, hannounced,
      hfoundError, herrors⟩
  case session =>
    exact ⟨session.counted_report now, session.diagnostics_report now, session.errors_report now,
      session.warnings_report now⟩

/-- A command compiles two sources, of which the second has a list scope without names, and finds
the error of that one. Two reports that state numbers below the limit have their sums. -/
theorem reports_add_up_twoSources :
    let tree := FileTree.ofFiles ["home"] [
      ("/in/a.scheme.toml", "[scheme]\nlanguage_code = \"l\"\nidentifier = \"a\"\n"),
      ("/in/b.scheme.toml", "[[step]]\nop = \"list\"\nnames = []\n")]
    let left := ((compileCommand { } "/in" (some "out") none none false "now").outcome tree).2
    let stated (tokens : Nat) : Report :=
      { timestamp := "now", summary := { tokensCreated := tokens, schemesCompiled := 1 } }
    (compileCommand { } "/in" (some "out") none none false "now").outcome tree = (.ok true, left) ∧
      ∃ reports middle,
        Batch { } (some "out") false "now" tree ["/in/a.scheme.toml", "/in/b.scheme.toml"] reports
          middle ∧
        (∃ report ∈ reports, ∃ diagnostic ∈ report.diagnostics, diagnostic.severity = .error) ∧
        ((stated 2).merge (stated 3)).summary.tokensCreated = 5 ∧
        ((stated 2).merge (stated 3)).summary.schemesCompiled = 2 := by
  intro tree left stated
  have hdirectory : tree.directoryAt? "/in" = some ["in"] := by decide +kernel
  have hfound : (findFiles "/in" schemeSuffix).outcome tree =
      (.ok ["/in/a.scheme.toml", "/in/b.scheme.toml"], tree) :=
    outcome_findFiles_of_sorted (by decide +kernel) hdirectory (by decide +kernel)
      (by decide +kernel)
  have hended : ((compileFound { } (some "out") false "now" none none
      ["/in/a.scheme.toml", "/in/b.scheme.toml"]).outcome tree).1.toOption = some true := by
    decide +kernel
  have hcommand : (compileCommand { } "/in" (some "out") none none false "now").outcome tree =
      (.ok true, left) :=
    eq_of_toOption_fst (by rw [outcome_compileCommand_of_found hfound rfl]; exact hended)
  obtain ⟨sources, reports, found, middle, hsources, hbatch, -, -, hfoundError, herrors⟩ :=
    reports_add_up.2.2.2.1 { } "/in" (some "out") none none false "now" tree left true hcommand
  cases hfound.symm.trans hsources
  obtain ⟨-, -, -, -, htokens, hschemes⟩ := reports_add_up.2.1 (stated 2) (stated 3)
  exact ⟨hcommand, reports, middle, hbatch, herrors.mp hfoundError.symm, htokens (by decide),
    hschemes (by decide)⟩

end TranslitScheme.CommandLine
