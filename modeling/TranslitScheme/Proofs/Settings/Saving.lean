import TranslitScheme.Proofs.Files.Writing
import TranslitScheme.Proofs.Toml.Tables
import TranslitScheme.Settings.Document

/-!
# Settings survive being saved

The text of settings gives every field a value, whether or not it has its default, in one entry and
three blocks. The document that is read back from it holds these values, so that only the directory
that the settings belong to is new, which is the one of the file.

Nothing is asked of the texts in the settings. A symbol, a directory or the key of an override may
be any string, as each is written in quotes that take it. The inherent vowel must not be blank,
since a blank one is refused when it is read.
-/

namespace TranslitScheme

namespace Overrides

/-- A key that is not listed is put at the end. -/
theorem put_of_notMem {key : String} (severity : Severity) {entries : List (String × Severity)}
    (h : key ∉ entries.map Prod.fst) : put key severity entries = entries ++ [(key, severity)] := by
  induction entries with
  | nil => rfl
  | cons entry rest ih =>
    rw [List.map_cons, List.mem_cons, not_or] at h
    rw [put, if_neg (Ne.symm h.1), ih h.2]
    rfl

/-- Overrides with different keys are collected in order. -/
theorem entries_foldl_set {overrides : Overrides} {entries : List (String × Severity)}
    (hnodup : ((overrides.entries ++ entries).map Prod.fst).Nodup) :
    (entries.foldl (fun overrides entry => overrides.set entry.1 entry.2) overrides).entries =
      overrides.entries ++ entries := by
  induction entries generalizing overrides with
  | nil => simp
  | cons entry rest ih =>
    have hnew : entry.1 ∉ overrides.entries.map Prod.fst := by
      rw [List.map_append] at hnodup
      intro hmem
      exact (List.nodup_append'.mp hnodup).2.2 hmem (by simp)
    have hset : (overrides.set entry.1 entry.2).entries = overrides.entries ++ [entry] :=
      put_of_notMem entry.2 hnew
    rw [List.foldl_cons, ih (by rw [hset]; simpa using hnodup), hset, List.append_assoc]
    rfl

/-- Collecting the entries of overrides gives the overrides. -/
theorem ofList_entries (overrides : Overrides) : ofList overrides.entries = overrides := by
  have hnodup : ((empty.entries ++ overrides.entries).map Prod.fst).Nodup := overrides.keys_nodup
  have hentries : (ofList overrides.entries).entries = overrides.entries :=
    entries_foldl_set hnodup
  generalize ofList overrides.entries = collected at hentries
  obtain ⟨_, _⟩ := collected
  obtain ⟨_, _⟩ := overrides
  obtain rfl := hentries
  rfl

/-- An override as it stands in a document. -/
def toPair (entry : String × Severity) : String × Toml := (entry.1, .str entry.2.name)

/-- Overrides are read back from their pairs. -/
theorem tableOfToml?_toPair (overrides : Overrides) :
    tableOfToml? (.table (overrides.entries.map toPair)) = some overrides := by
  have hentry (entry : String × Severity) : entryOfToml? (toPair entry) = some entry := by
    simp [entryOfToml?, toPair, Severity.ofToml?, Severity.ofName?_name]
  have hentries (entries : List (String × Severity)) :
      (entries.map toPair).mapM entryOfToml? = some entries := by
    induction entries with
    | nil => rfl
    | cons entry rest ih => simp [hentry, ih]
  rw [tableOfToml?, hentries, Option.map_some, ofList_entries]

/-- Severity settings are read back from the table of the overrides. -/
theorem ofToml?_toPair (overrides : Overrides) :
    ofToml? (.table [("overrides", .table (overrides.entries.map toPair))]) = some overrides :=
  tableOfToml?_toPair overrides

end Overrides

namespace DefaultSymbols

/-- Default symbols as they stand in a document. -/
def pairs (defaults : DefaultSymbols) : List (String × Toml) :=
  [("enabled", .bool defaults.enabled), ("non_joiner", .str defaults.nonJoiner),
    ("joiner", .str defaults.joiner), ("separator", .str defaults.separator)]

/-- Default symbols are read back from their pairs. -/
theorem ofToml?_pairs (defaults : DefaultSymbols) :
    ofToml? (.table defaults.pairs) = some defaults :=
  rfl

end DefaultSymbols

namespace Settings

/-- Output settings as they stand in a document. -/
def outputPairs (settings : Settings) : List (String × Toml) :=
  settings.outputDirectory.toList.map fun directory => ("directory", .str directory)

/-- Output settings are read back from their pairs. -/
theorem outputOfToml?_outputPairs (settings : Settings) :
    outputOfToml? (.table settings.outputPairs) = some settings.outputDirectory := by
  unfold outputPairs
  cases settings.outputDirectory <;> rfl

/-- The entry in front of the blocks of a settings file. -/
def vowelPairs (settings : Settings) : List (String × Toml) :=
  [("inherent_vowel", .str (String.ofList [settings.inherentVowel]))]

/-- The blocks of a settings file. -/
def blocks (settings : Settings) : List Toml.Block :=
  [⟨["severity"], "overrides", settings.overrides.entries.map Overrides.toPair⟩,
    ⟨[], "defaults", settings.defaults.pairs⟩, ⟨[], "output", settings.outputPairs⟩]

/-- The lines of a settings file. -/
def lines (settings : Settings) : List (List Char) :=
  Toml.writeEntry "inherent_vowel" (Toml.writeString (String.ofList [settings.inherentVowel])) ::
    Toml.writeHeader ["severity", "overrides"] ::
      (settings.overrides.entries.map (fun entry =>
          Toml.writeEntry entry.1 (Toml.writeString entry.2.name)) ++
        Toml.writeHeader ["defaults"] ::
        Toml.writeEntry "enabled" (Toml.writeBool settings.defaults.enabled) ::
        Toml.writeEntry "non_joiner" (Toml.writeString settings.defaults.nonJoiner) ::
        Toml.writeEntry "joiner" (Toml.writeString settings.defaults.joiner) ::
        Toml.writeEntry "separator" (Toml.writeString settings.defaults.separator) ::
        Toml.writeHeader ["output"] ::
        settings.outputDirectory.toList.map fun directory =>
          Toml.writeEntry "directory" (Toml.writeString directory))

/-- The text of settings is made of their lines. -/
theorem text_eq_lines (settings : Settings) :
    settings.text = String.ofList settings.lines.flatten := by
  simp [text, lines, List.flatMap_def]

/-- The lines of a settings file are its entry and its blocks as they are written. -/
theorem written_lines (settings : Settings) :
    List.Forall₂ Toml.Written
      (settings.vowelPairs.map Toml.entryStatement ++
        settings.blocks.flatMap Toml.Block.statements) settings.lines := by
  have hoverrides := Toml.written_map settings.overrides.entries Prod.fst fun entry =>
    Toml.readsBack_writeString entry.2.name
  have houtput := Toml.written_map settings.outputDirectory.toList (fun _ => "directory")
    Toml.readsBack_writeString
  have hstring (key text : String) := Toml.Written.entry key (Toml.readsBack_writeString text)
  have hheader (path : List String) := @Toml.Written.header path
  simp only [vowelPairs, blocks, DefaultSymbols.pairs, outputPairs, Toml.Block.statements,
    List.map_cons, List.map_nil, List.flatMap_cons, List.flatMap_nil, List.map_map,
    List.append_nil, List.cons_append, List.nil_append]
  refine .cons (hstring _ _) (.cons (hheader ["severity"] (by decide) "overrides") ?_)
  refine List.rel_append hoverrides (.cons (hheader [] (by decide) "defaults") ?_)
  refine .cons (.entry _ (Toml.readsBack_writeBool _)) (.cons (hstring _ _) ?_)
  refine .cons (hstring _ _) (.cons (hstring _ _) ?_)
  exact .cons (hheader [] (by decide) "output") houtput

/-- The document of a settings file is read back from its text. -/
theorem parse?_text (settings : Settings) :
    Toml.parse? settings.text = some
      (settings.vowelPairs ++ settings.blocks.map Toml.Block.entry) := by
  have hoverrides : ((settings.overrides.entries.map Overrides.toPair).map Prod.fst).Nodup := by
    rw [List.map_map]
    exact settings.overrides.keys_nodup
  have hdefaults : (settings.defaults.pairs.map Prod.fst).Nodup := by
    simp [DefaultSymbols.pairs]
  have houtput : (settings.outputPairs.map Prod.fst).Nodup := by
    unfold outputPairs
    cases settings.outputDirectory <;> simp
  have hkeys : (settings.vowelPairs.map Prod.fst ++ settings.blocks.map Toml.Block.key).Nodup := by
    change ["inherent_vowel", "severity", "defaults", "output"].Nodup
    decide
  rw [text_eq_lines]
  refine Toml.parse?_written settings.written_lines hkeys ?_
  simp only [blocks, List.forall_mem_cons]
  exact ⟨hoverrides, hdefaults, houtput, nofun⟩

/-- Settings are read back from their document. -/
theorem ofEntries?_document (settings : Settings) :
    ofEntries? (settings.vowelPairs ++ settings.blocks.map Toml.Block.entry) =
      some { settings with projectRoot := "" } := by
  have hslots : (Toml.table (settings.vowelPairs ++ settings.blocks.map Toml.Block.entry)).slots?
      false ["inherent_vowel", "severity", "defaults", "output"] = some
        [some (.str (String.ofList [settings.inherentVowel])),
          some (.table [("overrides", .table (settings.overrides.entries.map Overrides.toPair))]),
          some (.table settings.defaults.pairs), some (.table settings.outputPairs)] := rfl
  have hvowel : Toml.asChar? (.str (String.ofList [settings.inherentVowel])) =
      some settings.inherentVowel := by
    simp [Toml.asChar?]
  simp only [ofEntries?, hslots, Option.bind_eq_bind, Option.bind_some, Toml.withDefault, hvowel,
    Overrides.ofToml?_toPair, DefaultSymbols.ofToml?_pairs, outputOfToml?_outputPairs]
  rfl

/-- Settings are read back from their text, unless their inherent vowel is blank. -/
theorem parse_text {settings : Settings} (hvowel : Text.isBlank settings.inherentVowel = false) :
    parse settings.text = .ok { settings with projectRoot := "" } := by
  simp only [parse, parse?_text, ofEntries?_document]
  simp [hvowel]

/-- Settings are read from the file that they were saved in, with its directory as the one that
they belong to. -/
theorem ofFile_text {settings : Settings} (hvowel : Text.isBlank settings.inherentVowel = false)
    {path directory : String} (hparent : Path.parent? path = some directory) :
    ofFile path (.ok settings.text) = .ok { settings with projectRoot := directory } := by
  simp [ofFile, parse_text hvowel, Except.map, rootedAt, hparent]

/-- Settings that are saved in a file, be it given as a text or written into a tree of files, are
loaded from it as they were, with the directory of the file as the one that they belong to. -/
theorem ofFile_saved (settings : Settings) (hvowel : Text.isBlank settings.inherentVowel = false)
    (path : String) :
    (∀ directory, Path.parent? path = some directory →
        ofFile path (.ok settings.text) = .ok { settings with projectRoot := directory }) ∧
      ∀ tree left : FileTree, tree.writeText path settings.text = .ok left →
        ∃ directory, Path.parent? path = some directory ∧
          ofFile path (left.readText path) = .ok { settings with projectRoot := directory } := by
  refine ⟨fun directory hparent => ofFile_text hvowel hparent, fun tree left hwrite => ?_⟩
  obtain ⟨directory, hparent⟩ := FileTree.exists_parent_of_writeText hwrite
  refine ⟨directory, hparent, ?_⟩
  rw [FileTree.readText_of_writeText hwrite]
  exact ofFile_text hvowel hparent

/-- Settings with quotes, backslashes, line ends, control characters and points wherever a text may
stand. -/
def quoted : Settings where
  inherentVowel := '"'
  overrides := .ofList
    [("", .error), ("a.b = \"c\"", .info), ("\\\x27\"", .warn), ("one\ntwo\r\n", .error)]
  defaults :=
    { enabled := false, nonJoiner := "", joiner := "\n\x27\x27\x27\n\"\"\"\"\\",
      separator := "\x01\t\x7f" }
  outputDirectory := some "\\out\"\x27# put"
  projectRoot := "elsewhere"

/-- The file is written in a directory of the tree, to which the loaded settings belong. -/
theorem ofFile_saved_quoted :
    let tree : FileTree := { directories := [["d"]] }
    let left := tree.putFile ["d", "vstc.toml"] quoted.text
    Text.isBlank quoted.inherentVowel = false ∧ Path.parent? "d/vstc.toml" = some "d" ∧
      ofFile "d/vstc.toml" (.ok quoted.text) = .ok { quoted with projectRoot := "d" } ∧
      tree.writeText "d/vstc.toml" quoted.text = .ok left ∧
      ∃ directory, Path.parent? "d/vstc.toml" = some directory ∧
        ofFile "d/vstc.toml" (left.readText "d/vstc.toml") =
          .ok { quoted with projectRoot := directory } := by
  intro tree left
  have hvowel : Text.isBlank quoted.inherentVowel = false := by decide
  have hparent : Path.parent? "d/vstc.toml" = some "d" := by decide +kernel
  have hwrite : tree.writeText "d/vstc.toml" quoted.text = .ok left := by rfl
  obtain ⟨hgiven, hwritten⟩ := ofFile_saved quoted hvowel "d/vstc.toml"
  exact ⟨hvowel, hparent, hgiven "d" hparent, hwrite, hwritten tree left hwrite⟩

end Settings

end TranslitScheme
