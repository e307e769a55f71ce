import TranslitScheme.Token.Basic
import TranslitScheme.Value.Pattern
import TranslitScheme.Text.Replacement

/-!
# Templates over token lists

A template is a mapping whose keys mention `*`, the pattern of a token, and whose values
mention `*1`, `*2` and `*3`, its values. Expanding a template over tokens gives one pair for
each token and template pair. Pairs with the same value are then merged into one, whose key
is the group of their keys.

Keys that come from one of several spellings are wrapped in a group, since building a group
makes each of its patterns one of several spellings.
-/

namespace TranslitScheme

namespace Template

/-- Put the pattern of a token into a key. -/
def expandKey (key : Pattern) (token : Token) : Pattern :=
  let expanded := fun text => Pattern.scalar (Text.replaceAll "*" token.pattern text)
  if token.isPossibility then
    match key with
    | .scalar text => .group [.group [expanded text]]
    | key => key.bind fun text => .group [expanded text]
  else key.bind expanded

/-- Replace a placeholder by a value, unless the value is blank. -/
def fillSlot (placeholder value text : String) : String :=
  if value = "" then text else Text.replaceAll placeholder value text

/-- Put the values of a token into a text. The first value is put in even when it is blank. -/
def expandText (text : String) (token : Token) : String :=
  fillSlot "*3" token.value3 <| fillSlot "*2" token.value2 <|
    Text.replaceAll "*1" token.value1 text

/-- Put the values of a token into a value pattern. -/
def expandValue (value : Pattern) (token : Token) : Pattern :=
  value.map fun text => expandText text token

/-- Every pair of the template, filled in for every token, tokens outermost. -/
def expansions (tokens : List Token) (template : Mapping) : Mapping :=
  tokens.flatMap fun token => template.map fun pair =>
    (expandKey pair.1 token, expandValue pair.2 token)

/-- Add an alternative to a key. -/
def addAlternative (key alternative : Pattern) : Pattern :=
  match key with
  | .group items => .group (items ++ [alternative])
  | .scalar text => .group [.scalar text, alternative]

/-- Add a pair, as an alternative key when its value is there already, else at the end. -/
def mergePair (pair : Pattern × Pattern) : Mapping → Mapping
  | [] => [pair]
  | entry :: rest =>
    if entry.2 = pair.2 then (addAlternative entry.1 pair.1, entry.2) :: rest
    else entry :: mergePair pair rest

/-- Merge pairs of equal value, in the order in which the values first occur. -/
def merge (pairs : Mapping) : Mapping :=
  pairs.foldl (fun merged pair => mergePair pair merged) []

/-- Expand a template over tokens and merge pairs of equal value. -/
def combine (tokens : List Token) (template : Mapping) : Mapping :=
  merge (expansions tokens template)

end Template

end TranslitScheme
