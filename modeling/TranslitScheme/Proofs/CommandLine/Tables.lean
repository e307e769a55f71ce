import TranslitScheme.Proofs.CommandLine.ExitCode
import TranslitScheme.Proofs.CommandLine.Footprint
import TranslitScheme.Proofs.Files.Search

/-!
# A table for each scheme

Where the table of a scheme goes is told by the scheme's own path and the output directory, with no
regard to the other schemes. Next to the schemes, the tables of different schemes are different
files, however deep in a directory the schemes are found. In an output directory they are unless
two schemes have the same name, in which case the table of the later one takes the place of the
other.

Nothing else comes between a table and its scheme. A table is never written in the place of a scheme
that is still to be compiled, since their names end differently, and the other files that are
written are the reports that were asked for.
-/

namespace TranslitScheme.CommandLine

open TranslitScheme.CommandLine.Action TranslitScheme.FileTree

/-! ### The paths of tables -/

variable {base : Trail}

/-- A stem without slashes makes the name of a table. -/
theorem isName_append_tableSuffix {stem : String} (h : '/' ∉ stem.toList) :
    Path.isName (stem ++ tableSuffix) = true := by
  have hletter : 'v' ∈ (stem ++ tableSuffix).toList := by
    rw [String.toList_append]
    exact List.mem_append_right _ (by decide)
  have hne (text : List Char) (htext : 'v' ∉ text) : (stem ++ tableSuffix).toList ≠ text :=
    fun heq => htext (heq ▸ hletter)
  have hidle : Path.isIdle (stem ++ tableSuffix).toList = false := by
    rw [Path.isIdle, Bool.or_eq_false_iff, beq_eq_false_iff_ne, beq_eq_false_iff_ne]
    exact ⟨hne [] (by decide), hne ['.'] (by decide)⟩
  have hdots : stem ++ tableSuffix ≠ ".." := fun heq =>
    hne ['.', '.'] (by decide) (congrArg String.toList heq)
  have hslash : '/' ∉ (stem ++ tableSuffix).toList := by
    rw [String.toList_append, List.mem_append]
    exact not_or.mpr ⟨h, by decide⟩
  exact Path.isName_iff.mpr ⟨hidle, hdots, hslash⟩

/-- A scheme that is found below a directory has a name with the ending of schemes. -/
theorem exists_fileName?_of_endsWith {source : String}
    (h : Text.endsWith ((Path.fileName? source).getD "") schemeSuffix = true) :
    ∃ stem, Path.fileName? source = some (stem ++ schemeSuffix) := by
  cases hname : Path.fileName? source with
  | none =>
    rw [hname] at h
    exact absurd h (by decide)
  | some name =>
    rw [hname] at h
    obtain ⟨front, hfront⟩ := List.isSuffixOf_iff_suffix.mp h
    refine ⟨String.ofList front, congrArg some (String.toList_injective ?_)⟩
    rw [String.toList_append, String.toList_ofList]
    exact hfront.symm

/-- An ending is taken off a name that has it. -/
theorem withoutSuffix?_append (stem ending : String) :
    withoutSuffix? ending (stem ++ ending) = some stem := by
  have hends : Text.endsWith (stem ++ ending) ending = true := by
    rw [Text.endsWith, String.toList_append]
    exact List.isSuffixOf_iff_suffix.mpr (List.suffix_append _ _)
  have hlength : (stem ++ ending).length - ending.length = stem.toList.length := by
    rw [String.length_append, String.length_toList]
    omega
  rw [withoutSuffix?, if_pos hends, hlength, String.toList_append, List.take_left,
    String.ofList_toList]

/-- The table of a scheme has the name of the scheme with another ending. -/
theorem tablePath_eq {source stem : String}
    (h : Path.fileName? source = some (stem ++ schemeSuffix)) (outputDir : Option String) :
    tablePath source outputDir =
      Path.join (outputDir.getD ((Path.parent? source).getD "")) (stem ++ tableSuffix) := by
  have hstem := withoutSuffix?_append stem schemeSuffix
  simp only [tablePath, h, Option.getD_some, hstem]
  rfl

/-- A scheme and its table are in one directory, unless there is an output directory for the
table. -/
theorem exists_landing_tablePath (base : Trail) {source stem : String}
    (h : Path.fileName? source = some (stem ++ schemeSuffix)) :
    ∃ directory, landing base source = directory ++ [stem ++ schemeSuffix] ∧
      ∀ outputDir, landing base (tablePath source outputDir) =
        outputDir.elim directory (landing base) ++ [stem ++ tableSuffix] := by
  obtain ⟨hname, directory, hparent, hlanding⟩ := exists_parent_of_fileName? h
  have hslash : '/' ∉ stem.toList := fun hmem => by
    have hnone := Path.notMem_of_isName hname
    rw [String.toList_append] at hnone
    exact hnone (List.mem_append_left _ hmem)
  refine ⟨landing base directory, hlanding base, fun outputDir => ?_⟩
  rw [tablePath_eq h, landing_join_of_isName (isName_append_tableSuffix hslash), hparent]
  cases outputDir <;> rfl

/-- Names with different endings of one kind are the same when their stems are. -/
theorem append_right_inj {stem other ending : String} (h : stem ++ ending = other ++ ending) :
    stem = other := by
  have hlist := congrArg String.toList h
  rw [String.toList_append, String.toList_append] at hlist
  exact String.toList_injective (List.append_cancel_right hlist)

/-- Tables in one place belong to schemes of the same name, which are in one directory if there is
no output directory. -/
theorem names_of_landing_tablePath {source other stem stem' : String}
    (hsource : Path.fileName? source = some (stem ++ schemeSuffix))
    (hother : Path.fileName? other = some (stem' ++ schemeSuffix)) {outputDir : Option String}
    (h : landing base (tablePath source outputDir) = landing base (tablePath other outputDir)) :
    stem = stem' ∧ (outputDir = none → landing base source = landing base other) := by
  obtain ⟨directory, hdirectory, htable⟩ := exists_landing_tablePath base hsource
  obtain ⟨directory', hdirectory', htable'⟩ := exists_landing_tablePath base hother
  rw [htable, htable'] at h
  obtain ⟨hfront, hlast⟩ := List.append_inj' h rfl
  have hstem : stem = stem' := append_right_inj (List.singleton_inj.mp hlast)
  refine ⟨hstem, fun hnone => ?_⟩
  subst hnone
  obtain rfl : directory = directory' := hfront
  rw [hdirectory, hdirectory', hstem]

/-- The name of a table is not that of a scheme. -/
theorem append_tableSuffix_ne (stem other : String) :
    stem ++ tableSuffix ≠ other ++ schemeSuffix := by
  intro heq
  have hlast := congrArg (fun name => name.toList.getLast?) heq
  simp only [String.toList_append, List.getLast?_append] at hlast
  have htable : tableSuffix.toList.getLast? = some 'n' := by decide
  have hscheme : schemeSuffix.toList.getLast? = some 'l' := by decide
  rw [htable, hscheme, Option.some_or, Option.some_or] at hlast
  exact absurd hlast (by decide)

/-- No table is where a scheme is. -/
theorem landing_tablePath_ne {source other stem stem' : String}
    (hsource : Path.fileName? source = some (stem ++ schemeSuffix))
    (hother : Path.fileName? other = some (stem' ++ schemeSuffix)) (outputDir : Option String) :
    landing base (tablePath source outputDir) ≠ landing base other := by
  obtain ⟨directory, -, htable⟩ := exists_landing_tablePath base hsource
  obtain ⟨directory', hdirectory', -⟩ := exists_landing_tablePath base hother
  rw [htable, hdirectory']
  intro heq
  exact append_tableSuffix_ne _ _ (List.singleton_inj.mp (List.append_inj' heq rfl).2)

/-! ### The sources that are found -/

/-- An action goes on from whether a path leads to a file. -/
theorem outcome_isFile_bind {α : Type} (path : String) (next : Bool → Action (StateM FileTree) α)
    (tree : FileTree) :
    Action.outcome (FileSystem.isFile path >>= next) tree =
      (next (tree.isFile path)).outcome tree := rfl

/-- An action goes on from whether a path leads to a directory. -/
theorem outcome_isDirectory_bind {α : Type} (path : String)
    (next : Bool → Action (StateM FileTree) α) (tree : FileTree) :
    Action.outcome (FileSystem.isDirectory path >>= next) tree =
      (next (tree.isDirectory path)).outcome tree := rfl

/-- What a search comes to, which leaves the tree alone. -/
theorem outcome_findFiles (path suffix : String) (tree : FileTree) :
    (findFiles path suffix).outcome tree =
      if tree.isFile path then (.ok [path], tree)
      else if tree.isDirectory path then
        (.ok ((tree.filesBelow path).filter fun file =>
          Text.endsWith ((Path.fileName? file).getD "") suffix), tree)
      else (.error { message := path ++ " does not exist" }, tree) := by
  unfold findFiles
  rw [outcome_isFile_bind]
  split
  · rfl
  · rw [outcome_isDirectory_bind]
    split <;> rfl

/-- What is found is a file that was named, or the files below a directory with a given ending. -/
theorem eq_of_outcome_findFiles {path suffix : String} {tree found : FileTree}
    {sources : List String}
    (h : (findFiles path suffix).outcome tree = (.ok sources, found)) :
    found = tree ∧ (sources = [path] ∨ sources =
      (tree.filesBelow path).filter fun file =>
        Text.endsWith ((Path.fileName? file).getD "") suffix) := by
  rw [outcome_findFiles] at h
  split at h
  · cases h
    exact ⟨rfl, .inl rfl⟩
  · split at h
    · cases h
      exact ⟨rfl, .inr rfl⟩
    · cases h

/-- What is found below a directory, when the files there are in the order of their trails. -/
theorem outcome_findFiles_of_sorted {path suffix : String} {tree : FileTree} {directory : Trail}
    {sources : List String} (hfile : tree.isFile path = false)
    (hdirectory : tree.directoryAt? path = some directory)
    (hsorted : (tree.trailsBelow directory).Pairwise
      fun trail other => precedes trail other = true)
    (hsources : ((((tree.trailsBelow directory).filter fun trail =>
      decide ((trail.dropLast.foldl Path.join path).utf8ByteSize ≤ maxPathBytes)).map
        fun trail => trail.foldl Path.join path).filter fun file =>
          Text.endsWith ((Path.fileName? file).getD "") suffix) = sources) :
    (findFiles path suffix).outcome tree = (.ok sources, tree) := by
  have hplace : tree.isDirectory path = true := by
    rw [isDirectory, hdirectory]
    rfl
  rw [outcome_findFiles, hfile, hplace, filesBelow_of_sorted hdirectory hsorted, hsources]
  rfl

/-- A command that has found something compiles it. -/
theorem outcome_compileCommand_of_found {settings : Settings} {path now : String}
    {outputDir report markdown : Option String} {verbose : Bool} {tree found : FileTree}
    {sources : List String}
    (hfound : (findFiles path schemeSuffix).outcome tree = (.ok sources, found))
    (hsome : sources.isEmpty = false) :
    (compileCommand settings path outputDir report markdown verbose now).outcome tree =
      (compileFound settings outputDir verbose now report markdown sources).outcome found := by
  rw [compileCommand_eq,
    outcome_bind (unheard_compileAny settings outputDir verbose now path report markdown), hfound]
  simp only [hsome, Bool.false_eq_true, if_false]

variable {tree : FileTree} {path : String} {sources : List String} {found : FileTree}

/-- Sources that are found are different files, each with a name that ends as those of schemes do,
unless there is only one. -/
theorem eq_or_of_found (htree : tree.WellFormed) (hbase : tree.workingDirectory = base)
    (hfound : (findFiles path schemeSuffix).outcome tree = (.ok sources, found)) :
    sources = [path] ∨
      (∀ source ∈ sources, ∃ stem, Path.fileName? source = some (stem ++ schemeSuffix)) ∧
        ∀ source ∈ sources, ∀ other ∈ sources,
          landing base source = landing base other → source = other := by
  obtain ⟨-, hone | hbelow⟩ := eq_of_outcome_findFiles hfound
  · exact .inl hone
  · right
    subst hbelow
    refine ⟨fun source hsource => ?_, fun source hsource other hother h => ?_⟩
    · exact exists_fileName?_of_endsWith (List.mem_filter.mp hsource).2
    · exact htree.eq_of_landing_eq (List.mem_filter.mp hsource).1 (List.mem_filter.mp hother).1
        (by rwa [hbase])

/-- Tables of different sources are in one place only if the sources have the same name and there is
an output directory. -/
theorem eq_or_of_landing_tablePath (htree : tree.WellFormed)
    (hbase : tree.workingDirectory = base)
    (hfound : (findFiles path schemeSuffix).outcome tree = (.ok sources, found))
    {source other : String} (hsource : source ∈ sources) (hother : other ∈ sources)
    {outputDir : Option String}
    (h : landing base (tablePath source outputDir) = landing base (tablePath other outputDir)) :
    source = other ∨
      outputDir.isSome = true ∧ Path.fileName? source = Path.fileName? other := by
  rcases eq_or_of_found htree hbase hfound with hone | ⟨hstems, hapart⟩
  · subst hone
    exact .inl ((List.mem_singleton.mp hsource).trans (List.mem_singleton.mp hother).symm)
  · obtain ⟨stem, hstem⟩ := hstems source hsource
    obtain ⟨stem', hstem'⟩ := hstems other hother
    obtain ⟨hname, hplace⟩ := names_of_landing_tablePath hstem hstem' h
    cases outputDir with
    | none => exact .inl (hapart source hsource other hother (hplace rfl))
    | some directory => exact .inr ⟨rfl, by rw [hstem, hstem', hname]⟩

/-- No table is where a scheme is that is found behind its own. -/
theorem pairwise_landing_tablePath_ne (htree : tree.WellFormed)
    (hbase : tree.workingDirectory = base)
    (hfound : (findFiles path schemeSuffix).outcome tree = (.ok sources, found))
    (outputDir : Option String) :
    sources.Pairwise fun source other =>
      landing base (tablePath source outputDir) ≠ landing base other := by
  rcases eq_or_of_found htree hbase hfound with hone | ⟨hstems, -⟩
  · rw [hone]
    exact List.pairwise_singleton _ _
  · apply List.pairwise_of_forall_mem_list
    intro source hsource other hother
    obtain ⟨stem, hstem⟩ := hstems source hsource
    obtain ⟨stem', hstem'⟩ := hstems other hother
    exact landing_tablePath_ne hstem hstem' outputDir

/-- In an output directory, the tables of sources with the same name have the same path. -/
theorem tablePath_some_congr {source other : String}
    (h : Path.fileName? source = Path.fileName? other) (directory : String) :
    tablePath source (some directory) = tablePath other (some directory) := by
  simp only [tablePath, Path.fileStem?, h, Option.getD_some]

/-! ### The tables that are written -/

variable {settings : Settings} {outputDir : Option String} {verbose : Bool} {now : String}

/-- A scheme whose compilation is not aborted could be read. -/
theorem exists_text_of_not_aborted {source : String} {contents : Except FileError String}
    (h : (Compilation.ofFile source contents ({ } : TokenStore) settings now).aborted = false) :
    ∃ text, contents = .ok text := by
  cases contents with
  | error failure => cases h
  | ok text => exact ⟨text, rfl⟩

/-- When schemes are compiled without a failure, one that is not aborted has its table, as long as
no other has its table in the same place, and no table is in the place of a scheme behind. -/
theorem readText_of_outcome_compileSchemes {source : String} {report merged : Report}
    {left : FileTree} (hsource : source ∈ sources)
    (hapart : ∀ other ∈ sources,
      landing base (tablePath source outputDir) = landing base (tablePath other outputDir) →
        source = other)
    (hbehind : sources.Pairwise fun source other =>
      landing base (tablePath source outputDir) ≠ landing base other)
    (hdone : (Compilation.ofFile source (tree.readText source) ({ } : TokenStore) settings
      now).aborted = false) (hbase : tree.workingDirectory = base)
    (h : (compileSchemes settings outputDir verbose now sources report).outcome tree =
      (.ok merged, left)) :
    left.readText (tablePath source outputDir) =
      .ok (Compilation.ofFile source (tree.readText source) ({ } : TokenStore) settings
        now).sink.toTable.text := by
  induction sources generalizing report tree with
  | nil => cases hsource
  | cons first rest ih =>
    obtain ⟨hfirst, hrest⟩ := List.pairwise_cons.mp hbehind
    obtain ⟨compiled, middle, hcompiled, hleft⟩ :=
      exists_outcome_of_bind (fun _ => unheard_compileSchemes _ _ _ _ _ _) h
    have hwritten := (writesOnly_compileScheme settings outputDir verbose now first).spares hbase
      hcompiled
    have hmiddleBase : middle.workingDirectory = base := hwritten.workingDirectory.trans hbase
    by_cases hmem : source ∈ rest
    · -- the table of the first is not written over the scheme
      have hmiddle : middle.readText source = tree.readText source := by
        obtain ⟨text, htext⟩ := exists_text_of_not_aborted hdone
        rw [htext]
        exact hwritten.readText htext (hbase ▸ (hfirst source hmem).symm)
      rw [← hmiddle] at hdone ⊢
      exact ih hmem (fun other hother => hapart other (List.mem_cons_of_mem _ hother)) hrest hdone
        hmiddleBase hleft
    · obtain rfl : source = first := (List.mem_cons.mp hsource).resolve_right hmem
      rw [outcome_compileScheme] at hcompiled
      have htable := readText_of_outcome_deliver hdone hcompiled
      have hspares := (writesOnly_compileSchemes settings outputDir verbose now rest _).spares
        hmiddleBase hleft
      refine hspares.readText htable fun ⟨other, hother, hsame⟩ => ?_
      rw [hmiddleBase] at hsame
      exact hmem (hapart other (List.mem_cons_of_mem _ hother) hsame ▸ hother)

/-- What comes to a value comes to that value and what is left. -/
theorem eq_of_toOption_fst {ε α σ : Type} {ended : Except ε α × σ} {value : α}
    (h : ended.1.toOption = some value) : ended = (.ok value, ended.2) := by
  obtain ⟨failure | other, left⟩ := ended
  · cases h
  · cases h
    rfl

/-- A command that compiles what is found without a failure leaves each scheme that is not aborted
its table, unless another scheme of the same name has the same output directory, or a report is
written where the table is. -/
theorem readText_of_outcome_compileCommand {given report markdown : Option String}
    {left : FileTree} {foundError : Bool} (htree : tree.WellFormed)
    (hbase : tree.workingDirectory = base)
    (hfound : (findFiles path schemeSuffix).outcome tree = (.ok sources, found))
    (h : (compileCommand settings path given report markdown verbose now).outcome tree =
      (.ok foundError, left))
    (houtput : (given.orElse fun _ => settings.outputPath?) = outputDir)
    {source : String} (hsource : source ∈ sources)
    (hdone : (Compilation.ofFile source (tree.readText source) ({ } : TokenStore) settings
      now).aborted = false)
    (hnames : outputDir = none ∨
      ∀ other ∈ sources, Path.fileName? source = Path.fileName? other → source = other)
    (hreports : ∀ file, report = some file ∨ markdown = some file →
      landing base (tablePath source outputDir) ≠ landing base file) :
    left.readText (tablePath source outputDir) =
      .ok (Compilation.ofFile source (tree.readText source) ({ } : TokenStore) settings
        now).sink.toTable.text := by
  obtain ⟨sources', merged, found', middle, hfound', hmerged, hannounced⟩ :=
    exists_outcome_of_compileCommand h
  cases hfound.symm.trans hfound'
  obtain rfl := (eq_of_outcome_findFiles hfound).1
  rw [houtput] at hmerged
  have hapart : ∀ other ∈ sources,
      landing base (tablePath source outputDir) = landing base (tablePath other outputDir) →
        source = other := by
    intro other hother hsame
    rcases eq_or_of_landing_tablePath htree hbase hfound hsource hother hsame with
      heq | ⟨hsome, hname⟩
    · exact heq
    · rcases hnames with rfl | hnames
      · cases hsome
      · exact hnames other hother hname
  have hbehind := pairwise_landing_tablePath_ne htree hbase hfound outputDir
  have htable := readText_of_outcome_compileSchemes hsource hapart hbehind hdone hbase hmerged
  have hmiddle : middle.workingDirectory = base :=
    ((writesOnly_compileSchemes settings outputDir verbose now sources _).spares hbase
      hmerged).workingDirectory.trans hbase
  have hspares := (writesOnly_announce report markdown verbose merged).spares hmiddle hannounced
  refine hspares.readText htable fun ⟨file, hfile, hsame⟩ => ?_
  rw [hmiddle] at hsame
  exact hreports file hfile hsame

/-- Different schemes that are found have tables with different paths, which lead to different
files, unless they have the same name and there is an output directory for both, in which case the
path is the same.

When all that is found is compiled without a failure, each scheme that is not aborted has a table of
its own afterwards: next to it, or in the output directory if no other scheme has the same name.
That leaves the reports, which are written where they are asked for, be it in the place of a
table. -/
theorem found_schemes_have_tables (tree found : FileTree) (path : String) (sources : List String)
    (htree : tree.WellFormed)
    (hfound : (findFiles path schemeSuffix).outcome tree = (.ok sources, found)) :
    let place := landing tree.workingDirectory
    (∀ outputDir, ∀ source ∈ sources, ∀ other ∈ sources, source ≠ other →
      (tablePath source outputDir = tablePath other outputDir ↔
        outputDir.isSome = true ∧ Path.fileName? source = Path.fileName? other) ∧
      (place (tablePath source outputDir) = place (tablePath other outputDir) ↔
        outputDir.isSome = true ∧ Path.fileName? source = Path.fileName? other)) ∧
    ∀ (settings : Settings) (given report markdown : Option String) (verbose : Bool)
      (now : String) (foundError : Bool) (left : FileTree),
      (compileCommand settings path given report markdown verbose now).outcome tree =
        (.ok foundError, left) →
      let outputDir := given.orElse fun _ => settings.outputPath?
      ∀ source ∈ sources,
        let compiled :=
          Compilation.ofFile source (tree.readText source) ({ } : TokenStore) settings now
        compiled.aborted = false →
        (outputDir = none ∨
          ∀ other ∈ sources, Path.fileName? source = Path.fileName? other → source = other) →
        (∀ file, report = some file ∨ markdown = some file →
          place (tablePath source outputDir) ≠ place file) →
        left.readText (tablePath source outputDir) = .ok compiled.sink.toTable.text := by
  intro place
  refine ⟨fun outputDir source hsource other hother hne => ?_, ?_⟩
  · have hplace (h : place (tablePath source outputDir) = place (tablePath other outputDir)) :=
      (eq_or_of_landing_tablePath htree rfl hfound hsource hother h).resolve_left hne
    have hpath (h : outputDir.isSome = true ∧ Path.fileName? source = Path.fileName? other) :
        tablePath source outputDir = tablePath other outputDir := by
      obtain ⟨directory, rfl⟩ := Option.isSome_iff_exists.mp h.1
      exact tablePath_some_congr h.2 directory
    exact ⟨⟨fun h => hplace (congrArg place h), hpath⟩,
      ⟨hplace, fun h => congrArg place (hpath h)⟩⟩
  · intro settings given report markdown verbose now foundError left h outputDir source hsource
      compiled hdone hnames hreports
    exact readText_of_outcome_compileCommand htree rfl hfound h rfl hsource hdone hnames hreports

/-- Two schemes of the same name, one in a directory and one below it, each have a table. The
directory is named from the root, and the working directory is another one. -/
theorem found_schemes_have_tables_below :
    let tree := ofFiles ["home"] [
      ("/work/proj/sub/x.scheme.toml", "[scheme]\nlanguage_code = \"l\"\nidentifier = \"a\"\n"),
      ("/work/proj/x.scheme.toml", "[scheme]\nlanguage_code = \"l\"\nidentifier = \"b\"\n")]
    let sources := ["/work/proj/sub/x.scheme.toml", "/work/proj/x.scheme.toml"]
    let left := ((compileCommand { } "/work/proj" none none none false "now").outcome tree).2
    landing tree.workingDirectory (tablePath "/work/proj/sub/x.scheme.toml" none) ≠
        landing tree.workingDirectory (tablePath "/work/proj/x.scheme.toml" none) ∧
      ∀ source ∈ sources, left.readText (tablePath source none) =
        .ok (Compilation.ofFile source (tree.readText source) ({ } : TokenStore) { }
          "now").sink.toTable.text := by
  intro tree sources left
  have hdirectory : tree.directoryAt? "/work/proj" = some ["work", "proj"] := by decide +kernel
  have hfound : (findFiles "/work/proj" schemeSuffix).outcome tree = (.ok sources, tree) :=
    outcome_findFiles_of_sorted (by decide +kernel) hdirectory (by decide +kernel)
      (by decide +kernel)
  have hended : ((compileFound { } none false "now" none none sources).outcome
      tree).1.toOption = some false := by decide +kernel
  have hcommand : (compileCommand { } "/work/proj" none none none false "now").outcome tree =
      (.ok false, left) :=
    eq_of_toOption_fst (by rw [outcome_compileCommand_of_found hfound rfl]; exact hended)
  have hdone : ∀ source ∈ sources, (Compilation.ofFile source (tree.readText source)
      ({ } : TokenStore) { } "now").aborted = false := by decide +kernel
  obtain ⟨hapart, htables⟩ :=
    found_schemes_have_tables tree tree "/work/proj" sources (wellFormed_ofFiles rfl _) hfound
  have hne : "/work/proj/sub/x.scheme.toml" ≠ "/work/proj/x.scheme.toml" := by decide +kernel
  have hplaces := hapart none _ (List.mem_cons_self ..) _
    (List.mem_cons_of_mem _ (List.mem_cons_self ..)) hne
  refine ⟨fun h => absurd (hplaces.2.mp h).1 (by decide), fun source hsource => ?_⟩
  exact htables { } none none none false "now" false left hcommand source hsource
    (hdone source hsource) (.inl rfl) fun file hfile => by simp at hfile

/-- Two schemes of the same name have one table in an output directory, and a report that is written
where a table is takes its place. Neither is a failure. -/
theorem same_name_same_table :
    (let tree := ofFiles [] [
        ("proj/a/x.scheme.toml", "[scheme]\nlanguage_code = \"l\"\nidentifier = \"a\"\n"),
        ("proj/b/x.scheme.toml", "[scheme]\nlanguage_code = \"l\"\nidentifier = \"b\"\n")]
      let sources := ["proj/a/x.scheme.toml", "proj/b/x.scheme.toml"]
      let ended := (compileCommand { } "proj" (some "/out") none none false "now").outcome tree
      (findFiles "proj" schemeSuffix).outcome tree = (.ok sources, tree) ∧
        (∀ source ∈ sources, (Compilation.ofFile source (tree.readText source)
          ({ } : TokenStore) { } "now").aborted = false) ∧
        ended.1 = .ok false ∧
        (∀ source ∈ sources, tablePath source (some "/out") = "/out/x.vst.json") ∧
        ended.2.files.map Prod.fst = [["proj", "a", "x.scheme.toml"],
          ["proj", "b", "x.scheme.toml"], ["out", "x.vst.json"]]) ∧
    let tree := ofFiles []
      [("x.scheme.toml", "[scheme]\nlanguage_code = \"l\"\nidentifier = \"a\"\n")]
    let ended := (compileCommand { } "." none (some "x.vst.json") none false "now").outcome tree
    (findFiles "." schemeSuffix).outcome tree = (.ok ["./x.scheme.toml"], tree) ∧
      ended.1 = .ok false ∧
      ended.2.files.map Prod.fst = [["x.scheme.toml"], ["x.vst.json"]] ∧
      ended.2.readText (tablePath "./x.scheme.toml" none) ≠
        .ok (Compilation.ofFile "./x.scheme.toml" (tree.readText "./x.scheme.toml")
          ({ } : TokenStore) { } "now").sink.toTable.text := by
  constructor
  · intro tree sources ended
    have hdirectory : tree.directoryAt? "proj" = some ["proj"] := by decide +kernel
    have hfound : (findFiles "proj" schemeSuffix).outcome tree = (.ok sources, tree) :=
      outcome_findFiles_of_sorted (by decide +kernel) hdirectory (by decide +kernel)
        (by decide +kernel)
    have hended : ended =
        (compileFound { } (some "/out") false "now" none none sources).outcome tree :=
      outcome_compileCommand_of_found hfound rfl
    have hran : ended.1.toOption = some false ∧ ended.2.files.map Prod.fst = [
        ["proj", "a", "x.scheme.toml"], ["proj", "b", "x.scheme.toml"], ["out", "x.vst.json"]] := by
      rw [hended]
      decide +kernel
    exact ⟨hfound, by decide +kernel, congrArg Prod.fst (eq_of_toOption_fst hran.1),
      by decide +kernel, hran.2⟩
  · intro tree ended
    have hdirectory : tree.directoryAt? "." = some [] := by decide +kernel
    have hfound : (findFiles "." schemeSuffix).outcome tree = (.ok ["./x.scheme.toml"], tree) :=
      outcome_findFiles_of_sorted (by decide +kernel) hdirectory (by decide +kernel)
        (by decide +kernel)
    have hended : ended = (compileFound { } none false "now" (some "x.vst.json") none
        ["./x.scheme.toml"]).outcome tree :=
      outcome_compileCommand_of_found hfound rfl
    have hran : ended.1.toOption = some false ∧
        ended.2.files.map Prod.fst = [["x.scheme.toml"], ["x.vst.json"]] ∧
        (ended.2.readText (tablePath "./x.scheme.toml" none)).toOption ≠
          some (Compilation.ofFile "./x.scheme.toml" (tree.readText "./x.scheme.toml")
            ({ } : TokenStore) { } "now").sink.toTable.text := by
      rw [hended]
      decide +kernel
    refine ⟨hfound, congrArg Prod.fst (eq_of_toOption_fst hran.1), hran.2.1, fun h => ?_⟩
    exact hran.2.2 (congrArg Except.toOption h)

end TranslitScheme.CommandLine
