import TranslitScheme.Files.Path
import TranslitScheme.Files.System
import TranslitScheme.Settings.Basic
import TranslitScheme.Text.Blank
import TranslitScheme.Toml.Printer
import TranslitScheme.Toml.Reader
import TranslitScheme.Toml.Record

/-!
# Settings files

Settings are kept in a TOML file in which everything has a default. Relative paths in it are
meant from the directory of the file. A file that has been written reads back as the same
settings.
-/

namespace TranslitScheme

/-- Why settings cannot be loaded or saved. -/
inductive SettingsError where
  | io (failure : FileError)
  | malformed (reason : String)
  | invalidValue (field reason : String)
  deriving DecidableEq, Repr, Inhabited

namespace SettingsError

/-- The message of a failure. -/
def message : SettingsError → String
  | io failure => "IO error: " ++ failure.message
  | malformed reason => "Parse error: " ++ reason
  | invalidValue field reason => "invalid value for " ++ field ++ ": " ++ reason

end SettingsError

namespace Severity

/-- The severity that a TOML value stands for: a name, or the key of a table with one blank
value. -/
def ofToml? : Toml → Option Severity
  | .str name => ofName? name
  | .table [(name, .table [])] => ofName? name
  | .table [(name, .arr [])] => ofName? name
  | _ => none

end Severity

namespace Overrides

/-- The override that an entry of a table stands for. -/
def entryOfToml? (entry : String × Toml) : Option (String × Severity) :=
  (Severity.ofToml? entry.2).map fun severity => (entry.1, severity)

/-- The overrides that a table stands for. -/
def tableOfToml? : Toml → Option Overrides
  | .table entries => (entries.mapM entryOfToml?).map ofList
  | _ => none

/-- The overrides that the severity settings stand for. -/
def ofToml? (value : Toml) : Option Overrides := do
  match ← value.slots? false ["overrides"] with
  | [overrides] => Toml.withDefault empty tableOfToml? overrides
  | _ => none

end Overrides

namespace DefaultSymbols

/-- The default symbols that a TOML value stands for. -/
def ofToml? (value : Toml) : Option DefaultSymbols := do
  match ← value.slots? false ["enabled", "non_joiner", "joiner", "separator"] with
  | [enabled, nonJoiner, joiner, separator] =>
    return {
      enabled := ← Toml.withDefault true Toml.asBool? enabled
      nonJoiner := ← Toml.withDefault "_" Toml.asText? nonJoiner
      joiner := ← Toml.withDefault "__" Toml.asText? joiner
      separator := ← Toml.withDefault "-" Toml.asText? separator }
  | _ => none

end DefaultSymbols

namespace Settings

/-- The output directory that the output settings name, if any. -/
def outputOfToml? (value : Toml) : Option (Option String) := do
  match ← value.slots? false ["directory"] with
  | [directory] => Toml.optional Toml.asText? directory
  | _ => none

/-- The settings that the entries of a document stand for. -/
def ofEntries? (entries : List (String × Toml)) : Option Settings := do
  match ← (Toml.table entries).slots? false
      ["inherent_vowel", "severity", "defaults", "output"] with
  | [inherentVowel, severity, defaults, output] =>
    return {
      inherentVowel := ← Toml.withDefault 'a' Toml.asChar? inherentVowel
      overrides := ← Toml.withDefault .empty Overrides.ofToml? severity
      defaults := ← Toml.withDefault { } DefaultSymbols.ofToml? defaults
      outputDirectory := ← Toml.withDefault none outputOfToml? output }
  | _ => none

/-- Read settings from a text. The inherent vowel must not be blank. -/
def parse (text : String) : Except SettingsError Settings :=
  match Toml.parse? text with
  | none => .error (.malformed "the text is not a TOML document")
  | some entries =>
    match ofEntries? entries with
    | none => .error (.malformed "the document is not a settings file")
    | some settings =>
      if Text.isBlank settings.inherentVowel then
        .error (.invalidValue "inherent_vowel" "must be a letter")
      else .ok settings

/-- Settings that belong to the directory of a file. -/
def rootedAt (settings : Settings) (path : String) : Settings :=
  match Path.parent? path with
  | some directory => { settings with projectRoot := directory }
  | none => settings

/-- Settings from the text of a file. -/
def ofFile (path : String) (contents : Except FileError String) : Except SettingsError Settings :=
  match contents with
  | .error failure => .error (.io failure)
  | .ok text => (parse text).map fun settings => settings.rootedAt path

/-- Where compiled tables go, seen from where the settings file was named. -/
def outputPath? (settings : Settings) : Option String :=
  settings.outputDirectory.map (Path.join settings.projectRoot)

/-- The text of settings, as it is saved. -/
def text (settings : Settings) : String :=
  String.ofList
    (Toml.writeEntry "inherent_vowel"
        (Toml.writeString (String.ofList [settings.inherentVowel])) ++
      Toml.writeHeader ["severity", "overrides"] ++
      settings.overrides.entries.flatMap (fun entry =>
        Toml.writeEntry entry.1 (Toml.writeString entry.2.name)) ++
      Toml.writeHeader ["defaults"] ++
      Toml.writeEntry "enabled" (Toml.writeBool settings.defaults.enabled) ++
      Toml.writeEntry "non_joiner" (Toml.writeString settings.defaults.nonJoiner) ++
      Toml.writeEntry "joiner" (Toml.writeString settings.defaults.joiner) ++
      Toml.writeEntry "separator" (Toml.writeString settings.defaults.separator) ++
      Toml.writeHeader ["output"] ++
      settings.outputDirectory.toList.flatMap fun directory =>
        Toml.writeEntry "directory" (Toml.writeString directory))

end Settings

end TranslitScheme
