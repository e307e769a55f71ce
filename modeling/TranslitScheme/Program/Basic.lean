import TranslitScheme.Session.Basic

/-!
# Scheme programs

A scheme file is a program: a header with the scheme's details, and steps that run in order.
Most steps declare tokens of a category, from a mapping or by expanding a template; others
open a tag or list scope around further steps, or set a switch.

A declaration should have either tokens or a template. The program says what is written, and
running it tells when that is neither or both.
-/

namespace TranslitScheme

/-- The categories that a declaration can build. -/
inductive Section where
  | vowels
  | consonants
  | consonantVowelCombinations
  | anusvara
  | visarga
  | virama
  | symbols
  | numbers
  | others
  deriving DecidableEq, Repr, Inhabited

namespace Section

/-- All sections. -/
def all : List Section :=
  [vowels, consonants, consonantVowelCombinations, anusvara, visarga, virama, symbols, numbers,
    others]

/-- The category of the tokens of a section. -/
def category : Section → Category
  | vowels => .vowel
  | consonants => .consonant
  | consonantVowelCombinations => .consonantVowel
  | anusvara => .anusvara
  | visarga => .visarga
  | virama => .virama
  | symbols => .symbol
  | numbers => .number
  | others => .other

/-- The name of a section is the one of its category. -/
def name (part : Section) : String := part.category.sectionName

/-- The section of a given name. -/
def ofName? (text : String) : Option Section := all.find? fun part => part.name == text

/-- A name leads back to its section. -/
theorem ofName?_name (part : Section) : ofName? part.name = some part := by
  cases part <;> decide

end Section

/-- A template and where its tokens come from, as written. -/
structure Expansion where
  category : Option String := none
  list : Option String := none
  filter : Option Value := none
  template : Value
  deriving Repr, Inhabited

/-- The body of a declaration, as written. -/
structure Declaration where
  options : TokenOptions := { }
  tokens : Option Value := none
  expansion : Option Expansion := none
  deriving Repr, Inhabited

/-- One step of a scheme. -/
inductive Step where
  | declare (part : Section) (body : Declaration)
  | joiner (tokens : Value)
  | nonJoiner (tokens : Value)
  | period (value : Value)
  | tag (name : String) (steps : List Step)
  | list (names : List Value) (steps : List Step)
  | generateCompounds
  | stemRules (tokens : Value)
  | stemExceptions (tokens : Value)
  | inferDeadConsonants (enabled : Bool)
  | ignoreDuplicates (enabled : Bool)
  deriving Repr, Inhabited

/-- The details that a scheme states about itself. -/
structure Header where
  languageCode : Option String := none
  identifier : Option String := none
  displayName : Option String := none
  author : Option String := none
  stable : Option Bool := none
  deriving DecidableEq, Repr, Inhabited

/-- A scheme file. -/
structure Program where
  header : Header := { }
  steps : List Step := []
  deriving Repr, Inhabited

end TranslitScheme
