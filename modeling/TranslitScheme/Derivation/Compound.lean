import TranslitScheme.Token.Basic

/-!
# Inherent vowels and compounds

In the scripts that schemes describe, a bare consonant carries a vowel of its own. A pattern
shows it when it ends in a single inherent vowel letter, as in `ka` but not in `kaa`. Such a
pattern without its last letter is the stem to which another vowel is attached.

A compound joins a consonant and a vowel that has a combining form, its second value.
-/

namespace TranslitScheme

namespace Pattern

/-- The letters, read from the end, finish in one inherent vowel letter after another letter. -/
def endsInSingle (inherent : Char) : List Char → Bool
  | last :: before :: _ => last == inherent && before != inherent
  | _ => false

/-- A pattern text ends in a single inherent vowel letter. -/
def hasInherentVowel (text : String) (inherent : Char) : Bool :=
  endsInSingle inherent text.toList.reverse

/-- A pattern text without its last letter. -/
def withoutLast (text : String) : String := String.ofList text.toList.dropLast

/-- What a vowel is attached to: the pattern text without the inherent vowel it shows. -/
def stem (text : String) (inherent : Char) : String :=
  if hasInherentVowel text inherent then withoutLast text else text

end Pattern

namespace Token

/-- The compound of a consonant and a vowel, if the vowel has a combining form.

It is one of several spellings when either part is, has the stricter of the two priorities,
and applies where the vowel does unless that is everywhere. -/
def compound? (consonant vowel : Token) (inherent : Char) : Option Token :=
  if vowel.value2 = "" then none
  else some
    { category := .consonantVowel
      pattern := Pattern.stem consonant.pattern inherent ++ vowel.pattern
      value1 := consonant.value1 ++ vowel.value2
      matching :=
        if consonant.isPossibility || vowel.isPossibility then .possibility else .exact
      priority := consonant.priority.min vowel.priority
      acceptance := if vowel.acceptance.isAll then consonant.acceptance else vowel.acceptance }

/-- The compounds of all consonants and vowels, consonants outermost. -/
def compounds (consonants vowels : List Token) (inherent : Char) : List Token :=
  consonants.flatMap fun consonant => vowels.filterMap fun vowel =>
    compound? consonant vowel inherent

end Token

end TranslitScheme
