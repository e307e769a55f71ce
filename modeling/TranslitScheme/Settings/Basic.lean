import TranslitScheme.Diagnostic.Journal

/-!
# Settings

The settings of a project: the letter that carries the inherent vowel, severities that
replace the usual ones, the symbols that are added to every scheme, and where compiled
tables go.
-/

namespace TranslitScheme

/-- The symbols added to a scheme that does not declare its own. -/
structure DefaultSymbols where
  enabled : Bool := true
  nonJoiner : String := "_"
  joiner : String := "__"
  separator : String := "-"
  deriving DecidableEq, Repr, Inhabited

/-- The settings of a project, and the directory that they belong to. -/
structure Settings where
  inherentVowel : Char := 'a'
  overrides : Overrides := .empty
  defaults : DefaultSymbols := { }
  outputDirectory : Option String := none
  projectRoot : String := ""
  deriving DecidableEq, Repr, Inhabited

end TranslitScheme
