import TranslitScheme.Token.Basic

/-!
# Compiled tables

A compiled table is everything that a transliteration engine needs to know about one
scheme: its details, its tokens, the rules of its stemmer and the exceptions to them.
-/

namespace TranslitScheme

/-- A rule by which the stemmer replaces the ending of a word. -/
structure StemRule where
  oldEnding : String
  newEnding : String
  deriving DecidableEq, Repr, Inhabited

/-- A word ending that a stem rule must leave alone. -/
structure StemException where
  rule : String
  ending : String
  deriving DecidableEq, Repr, Inhabited

/-- The stored form of one compiled scheme. -/
structure Table where
  details : Option Details := none
  tokens : List Token := []
  stemRules : List StemRule := []
  stemExceptions : List StemException := []
  deriving DecidableEq, Repr, Inhabited

namespace Table

/-- How many tokens of a table have a given category. -/
def count (table : Table) (category : Category) : Nat :=
  table.tokens.countP fun token => token.category == category

end Table

end TranslitScheme
