import TranslitScheme.Token.Category
import TranslitScheme.Token.Option

/-!
# Tokens and scheme details

A token is one entry of a compiled table: a pattern to look for and up to three values to
put in its place. Blank second and third values stand for values that are absent.

The details of a scheme name its language, its author and the time of its compilation.
-/

namespace TranslitScheme

/-- One entry of a compiled table. -/
structure Token where
  category : Category
  pattern : String
  value1 : String
  value2 : String := ""
  value3 : String := ""
  tag : String := ""
  matching : Matching := .exact
  priority : Priority := .normal
  acceptance : Acceptance := .all
  deriving DecidableEq, Repr, Inhabited

namespace Token

/-- One of several spellings of the same values. -/
def isPossibility (token : Token) : Bool := token.matching == .possibility

/-- The `pattern => value` text under which a token is reported. -/
def expression (token : Token) : String := token.pattern ++ " => " ++ token.value1

end Token

/-- What a compiled table says about the scheme it came from. -/
structure Details where
  languageCode : String := ""
  identifier : String := ""
  displayName : String := ""
  author : String := ""
  compiledDate : String := ""
  isStable : Bool := false
  deriving DecidableEq, Repr, Inhabited

end TranslitScheme
