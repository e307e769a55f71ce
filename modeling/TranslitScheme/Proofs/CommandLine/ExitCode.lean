import TranslitScheme.Proofs.CommandLine.Action
import TranslitScheme.Proofs.Program.Abort

/-!
# What the exit code tells

A command that compiles succeeds only if there is no error in the merged report. An error that one
of the schemes has is never lost on the way there: it stays in the report with which the other
schemes are merged, and a command that gets no further fails.

An aborted compilation has no table, and it tells why it was aborted. That counts as an error unless
the settings make it less than one, which they may do with any code.
-/

namespace TranslitScheme.CommandLine

open TranslitScheme.CommandLine.Action

section Compiling

variable {settings : Settings} {outputDir : Option String} {verbose : Bool} {now : String}

/-- An error that was reported is still there when more schemes are compiled. -/
theorem hasErrors_of_compileSchemes {sources : List String} {report merged : Report}
    {tree left : FileTree} (hreport : report.hasErrors = true)
    (h : (compileSchemes settings outputDir verbose now sources report).outcome tree =
      (.ok merged, left)) : merged.hasErrors = true := by
  induction sources generalizing report tree with
  | nil =>
    obtain rfl : report = merged := Except.ok.inj (congrArg Prod.fst h)
    exact hreport
  | cons source rest ih =>
    obtain ⟨compiled, middle, -, hrest⟩ :=
      exists_outcome_of_bind (fun _ => unheard_compileSchemes _ _ _ _ _ _) h
    exact ih (Report.hasErrors_merge_of_left hreport compiled) hrest

variable (settings outputDir verbose now) in
/-- Schemes are compiled one part after the other. -/
theorem compileSchemes_append (before after : List String) (report : Report) :
    (compileSchemes settings outputDir verbose now (before ++ after) report :
      Action (StateM FileTree) Report) =
    compileSchemes settings outputDir verbose now before report >>=
      compileSchemes settings outputDir verbose now after := by
  induction before generalizing report with
  | nil => rfl
  | cons source rest ih =>
    rw [List.cons_append, compileSchemes, compileSchemes, bind_assoc]
    simp only [ih]

/-- An error that is reported of one of the sources is still there when all are compiled. -/
theorem hasErrors_of_compileSchemes_append {before after : List String} {source : String}
    {report merged compiled : Report} {tree reached left : FileTree} {diagnostic : Diagnostic}
    (hbefore : (compileSchemes settings outputDir verbose now before report).outcome tree =
      (.ok compiled, reached))
    (htold : diagnostic ∈ (Compilation.ofFile source (reached.readText source)
      ({ } : TokenStore) settings now).report.diagnostics)
    (herror : diagnostic.severity = .error)
    (h : (compileSchemes settings outputDir verbose now (before ++ source :: after) report).outcome
      tree = (.ok merged, left)) : merged.hasErrors = true := by
  rw [compileSchemes_append,
    outcome_bind fun report => unheard_compileSchemes settings outputDir verbose now _ report,
    hbefore] at h
  obtain ⟨added, middle, hsource, hafter⟩ :=
    exists_outcome_of_bind (fun _ => unheard_compileSchemes _ _ _ _ _ _) h
  rw [outcome_compileScheme] at hsource
  obtain rfl := returns_deliver _ _ _ _ { } reached added (congrArg Prod.fst hsource)
  exact hasErrors_of_compileSchemes (Report.hasErrors_merge_of_right compiled htold herror) hafter

/-- A command that does not fail has found sources, compiled them all and announced the merged
report. -/
theorem exists_outcome_of_compileCommand {path : String} {report markdown : Option String}
    {tree left : FileTree} {foundError : Bool}
    (h : (compileCommand settings path outputDir report markdown verbose now).outcome tree =
      (.ok foundError, left)) :
    ∃ sources merged found middle,
      (findFiles path schemeSuffix).outcome tree = (.ok sources, found) ∧
      (compileSchemes settings (outputDir.orElse fun _ => settings.outputPath?) verbose now sources
        (Report.empty now)).outcome found = (.ok merged, middle) ∧
      (announce report markdown verbose merged).outcome middle = (.ok foundError, left) := by
  have hannounce := unheard_announce report markdown verbose
  have hcompile (sources : List String) := unheard_bind
    (unheard_compileSchemes settings (outputDir.orElse fun _ => settings.outputPath?) verbose now
      sources (Report.empty now)) hannounce
  rw [compileCommand_eq] at h
  obtain ⟨sources, found, hsources, hsome⟩ := exists_outcome_of_bind
    (unheard_compileAny settings outputDir verbose now path report markdown) h
  split at hsome
  · have hthrown : Except.error _ = Except.ok foundError := congrArg Prod.fst hsome
    contradiction
  · rw [compileFound, outcome_bind fun _ => hcompile sources, outcome_note] at hsome
    obtain ⟨merged, middle, hmerged, hannounced⟩ := exists_outcome_of_bind hannounce hsome
    exact ⟨sources, merged, found, middle, hsources, hmerged, hannounced⟩

/-- A run that does not end with exit code one has done what it was asked to, without an error. -/
theorem exists_outcome_of_exitCode {words : List String} {arguments : Arguments}
    (hwords : Arguments.parse words = .ok arguments) {tree : FileTree}
    (h : ((run words now : StateM FileTree Outcome).run tree).1.exitCode ≠ 1) :
    ∃ left, (perform arguments now).outcome tree = (.ok false, left) := by
  let performed : StateM FileTree (Except Failure Bool × Terminal) :=
    (perform arguments now).run.run { }
  rw [run, hwords] at h
  change (conclude (performed.run tree).1).exitCode ≠ 1 at h
  change ∃ left, ((performed.run tree).1.1, (performed.run tree).2) = (.ok false, left)
  generalize performed.run tree = ended at h ⊢
  obtain ⟨⟨failure | ⟨_ | _⟩, terminal⟩, left⟩ := ended
  · contradiction
  · exact ⟨left, rfl⟩
  · contradiction

end Compiling

/-- A run on a tree of files comes to a source: the command compiles, its settings are loaded, the
source is found, and the sources in front of it are compiled. That leaves the tree in which the
source is compiled. -/
inductive ComesTo (arguments : Arguments) (now : String) (tree : FileTree) (settings : Settings)
    (source : String) (reached : FileTree) : Prop where
  | intro {path : String} {outputDir report markdown : Option String}
    {before after : List String} {compiled : Report} {loaded found : FileTree}
    (hcommand : arguments.command = .compile path outputDir report markdown)
    (hsettings : (loadSettings arguments.config arguments.verbose).outcome tree =
      (.ok settings, loaded))
    (hsources : (findFiles path schemeSuffix).outcome loaded =
      (.ok (before ++ source :: after), found))
    (hbefore : (compileSchemes settings (outputDir.orElse fun _ => settings.outputPath?)
      arguments.verbose now before (Report.empty now)).outcome found = (.ok compiled, reached))

/-- A run that comes to a source whose compilation reports an error ends with exit code one. -/
theorem exitCode_of_comesTo {words : List String} {arguments : Arguments} {now : String}
    (hwords : Arguments.parse words = .ok arguments) {tree reached : FileTree} {source : String}
    {settings : Settings} (hcomes : ComesTo arguments now tree settings source reached)
    {diagnostic : Diagnostic}
    (htold : diagnostic ∈ (Compilation.ofFile source (reached.readText source)
      ({ } : TokenStore) settings now).report.diagnostics)
    (herror : diagnostic.severity = .error) :
    ((run words now : StateM FileTree Outcome).run tree).1.exitCode = 1 := by
  refine Decidable.byContradiction fun hexit => ?_
  obtain ⟨left, hperform⟩ := exists_outcome_of_exitCode hwords hexit
  obtain ⟨hcommand, hsettings, hsources, hbefore⟩ := hcomes
  simp only [perform, hcommand] at hperform
  rw [outcome_bind fun _ => unheard_compileCommand _ _ _ _ _ _ _, hsettings] at hperform
  obtain ⟨sources, merged, found, middle, hfound, hmerged, hannounced⟩ :=
    exists_outcome_of_compileCommand hperform
  have hfoundError := returns_announce _ _ _ merged { } middle false (congrArg Prod.fst hannounced)
  cases hsources.symm.trans hfound
  have herrors := hasErrors_of_compileSchemes_append hbefore htold herror hmerged
  rw [herrors] at hfoundError
  contradiction

/-- An aborted compilation is told and counted. What aborts a compilation is the last of its
diagnostics, with the severity that the settings give its code, which is that of an error if they
give none; the report has errors just when that severity is the one of an error, or something before
the abort is an error.

A run that comes to a source of which the compilation is aborted writes no table for it, and ends
with exit code one if the report of that compilation has errors. -/
theorem aborted_told (settings : Settings) (now : String) :
    (∀ (σ : Type) [TokenSink σ] (path : String) (contents : Except FileError String) (sink : σ),
      let compiled := Compilation.ofFile path contents sink settings now
      compiled.aborted = true →
      ∃ finding, Compilation.abortedBy path contents sink settings = some finding ∧
        (∃ diagnostic, compiled.report.diagnostics.getLast? = some diagnostic ∧
          diagnostic.code = finding.code ∧ diagnostic.message = finding.message ∧
            diagnostic.severity = settings.overrides.severityOf finding.code .error) ∧
        (compiled.report.hasErrors = true ↔
          settings.overrides.severityOf finding.code .error = .error ∨
            ∃ earlier ∈ compiled.report.diagnostics.dropLast, earlier.severity = .error)) ∧
    ∀ (words : List String) (arguments : Arguments) (tree reached : FileTree) (source : String),
      Arguments.parse words = .ok arguments →
      ComesTo arguments now tree settings source reached →
      let compiled := Compilation.ofFile source (reached.readText source) ({ } : TokenStore)
        settings now
      compiled.aborted = true →
      (∀ outputDir, ((compileScheme settings source outputDir arguments.verbose now).outcome
        reached).2 = reached) ∧
      (compiled.report.hasErrors = true →
        ((run words now : StateM FileTree Outcome).run tree).1.exitCode = 1) := by
  refine ⟨fun σ _ path contents sink => Compilation.told_of_aborted,
    fun words arguments tree reached source hwords hcomes => ?_⟩
  intro compiled haborted
  obtain ⟨finding, -, ⟨diagnostic, hlast, -, -, hseverity⟩, herrors⟩ :=
    Compilation.told_of_aborted haborted
  refine ⟨fun outputDir => ?_, fun hfailed => ?_⟩
  · rw [outcome_compileScheme, outcome_deliver_of_aborted _ _ _ haborted]
  · rcases herrors.mp hfailed with herror | ⟨earlier, hmem, herror⟩
    · exact exitCode_of_comesTo hwords hcomes (List.mem_of_getLast? hlast)
        (hseverity.trans herror)
    · exact exitCode_of_comesTo hwords hcomes (List.dropLast_subset _ hmem) herror

/-- A list scope without names aborts the compilation of the only source of a run. -/
theorem aborted_told_unnamedList :
    let text := "[[step]]\nop = \"list\"\nnames = []\n"
    let compiled := Compilation.ofFile "/in/a.scheme.toml" (.ok text) ({ } : TokenStore) { } "now"
    let tree : FileTree :=
      { files := [(["in", "a.scheme.toml"], text)]
        directories := [["in"]]
        workingDirectory := ["home"] }
    compiled.aborted = true ∧ compiled.report.hasErrors = true ∧
      ((run ["compile", "/in/a.scheme.toml"] "now" : StateM FileTree Outcome).run tree).1.exitCode =
        1 := by
  intro text compiled tree
  have haborted : compiled.aborted = true := by decide +kernel
  have hread : (Arguments.parse ["compile", "/in/a.scheme.toml"]).toOption =
      some { command := .compile "/in/a.scheme.toml" none none none } := by decide +kernel
  have hwords : Arguments.parse ["compile", "/in/a.scheme.toml"] =
      .ok { command := .compile "/in/a.scheme.toml" none none none } := by
    cases hparsed : Arguments.parse ["compile", "/in/a.scheme.toml"] with
    | error stop =>
      rw [hparsed] at hread
      contradiction
    | ok arguments =>
      rw [hparsed] at hread
      exact congrArg Except.ok (Option.some.inj hread)
  have hsources : (findFiles "/in/a.scheme.toml" schemeSuffix).outcome tree =
      (.ok ([] ++ "/in/a.scheme.toml" :: []), tree) := by rfl
  have hcomes : ComesTo { command := .compile "/in/a.scheme.toml" none none none } "now" tree { }
      "/in/a.scheme.toml" tree :=
    .intro rfl rfl hsources rfl
  obtain ⟨finding, -, -, herrors⟩ := (aborted_told { } "now").1 _ _ _ _ haborted
  have hfailed : compiled.report.hasErrors = true := herrors.mpr (.inl rfl)
  exact ⟨haborted, hfailed, ((aborted_told { } "now").2 _ _ _ _ _ hwords hcomes haborted).2 hfailed⟩

/-- Settings that make the code of an abort a warning leave an aborted compilation without an error,
and the run with exit code zero. -/
theorem abandoned_without_error :
    let settings : Settings := { overrides := Overrides.empty.set "SCHEME_STRUCTURE" .warn }
    let compiled := Compilation.ofFile "a.scheme.toml" (.ok "x") ({ } : TokenStore) settings "now"
    let tree : FileTree :=
      { files := [(["a.scheme.toml"], "x"),
          (["vstc.toml"], "[severity.overrides]\nSCHEME_STRUCTURE = \"warn\"\n")] }
    compiled.aborted = true ∧ compiled.report.hasErrors = false ∧
      ((run ["compile", "a.scheme.toml"] "now" : StateM FileTree Outcome).run tree).1.exitCode =
        0 := by
  decide +kernel

end TranslitScheme.CommandLine
