/-!
# Token categories

Every token of a scheme belongs to one of thirteen categories. A category has an engine
code, a plural name that scheme files use, and a singular name that compiled tables use.

Codes and names are part of the table format. Looking either one up gives the category
back, so no two categories share a code or a name.
-/

namespace TranslitScheme

/-- The semantic class of a token. -/
inductive Category where
  | vowel
  | consonant
  | deadConsonant
  | consonantVowel
  | number
  | symbol
  | anusvara
  | visarga
  | virama
  | other
  | nonJoiner
  | joiner
  | period
  deriving DecidableEq, Repr, Inhabited

namespace Category

/-- All categories, in the order of their codes. -/
def all : List Category :=
  [vowel, consonant, deadConsonant, consonantVowel, number, symbol, anusvara, visarga, virama,
    other, nonJoiner, joiner, period]

/-- The engine code of a category. -/
def code : Category → Int
  | vowel => 1
  | consonant => 2
  | deadConsonant => 3
  | consonantVowel => 4
  | number => 5
  | symbol => 6
  | anusvara => 7
  | visarga => 8
  | virama => 9
  | other => 10
  | nonJoiner => 11
  | joiner => 12
  | period => 13

/-- The name by which scheme files refer to a category. -/
def sectionName : Category → String
  | vowel => "vowels"
  | consonant => "consonants"
  | deadConsonant => "dead_consonants"
  | consonantVowel => "consonant_vowel_combinations"
  | number => "numbers"
  | symbol => "symbols"
  | anusvara => "anusvara"
  | visarga => "visarga"
  | virama => "virama"
  | other => "others"
  | nonJoiner => "non_joiner"
  | joiner => "joiner"
  | period => "period"

/-- The name that a compiled table stores for a category. -/
def tableName : Category → String
  | vowel => "vowel"
  | consonant => "consonant"
  | deadConsonant => "dead_consonant"
  | consonantVowel => "consonant_vowel"
  | number => "number"
  | symbol => "symbol"
  | anusvara => "anusvara"
  | visarga => "visarga"
  | virama => "virama"
  | other => "other"
  | nonJoiner => "non_joiner"
  | joiner => "joiner"
  | period => "period"

/-- The category with a given engine code. -/
def ofCode? (code : Int) : Option Category :=
  all.find? fun category => category.code == code

/-- The category that scheme files call by a given name. -/
def ofSectionName? (name : String) : Option Category :=
  all.find? fun category => category.sectionName == name

/-- The category that compiled tables call by a given name. -/
def ofTableName? (name : String) : Option Category :=
  all.find? fun category => category.tableName == name

/-- Every category is listed. -/
theorem mem_all (category : Category) : category ∈ all := by
  cases category <;> decide

/-- A code leads back to its category. -/
theorem ofCode?_code (category : Category) : ofCode? category.code = some category := by
  cases category <;> rfl

/-- A section name leads back to its category. -/
theorem ofSectionName?_sectionName (category : Category) :
    ofSectionName? category.sectionName = some category := by
  cases category <;> decide

/-- A table name leads back to its category. -/
theorem ofTableName?_tableName (category : Category) :
    ofTableName? category.tableName = some category := by
  cases category <;> decide

end Category

end TranslitScheme
