/-!
# Values as written in a scheme

A scheme hands over loosely typed values: strings, integers, booleans, sequences and
mappings, and values of kinds that a scheme never accepts. A mapping keeps its pairs in
order and may repeat a key.

The display form of a value is what diagnostics quote. It does not quote strings, so
different values may look alike.
-/

namespace TranslitScheme

/-- A value as written in a scheme. -/
inductive Value where
  | str (text : String)
  | int (number : Int)
  | bool (flag : Bool)
  | list (items : List Value)
  | map (pairs : List (Value × Value))
  | other (kindName : String)
  deriving Repr, Inhabited

namespace Value

/-- The kind of a value, as diagnostics name it. -/
def kind : Value → String
  | str _ => "string"
  | int _ => "integer"
  | bool _ => "boolean"
  | list _ => "sequence"
  | map _ => "mapping"
  | other kindName => kindName

/-- The text of a string value. -/
def asText? : Value → Option String
  | str text => some text
  | _ => none

/-- Everything but `false` counts as set. -/
def isTruthy : Value → Bool
  | bool flag => flag
  | _ => true

/-- Put a separator between texts. -/
def joinTexts (separator : String) : List String → String
  | [] => ""
  | [text] => text
  | text :: rest => text ++ separator ++ joinTexts separator rest

mutual

/-- The text by which diagnostics quote a value. -/
def display : Value → String
  | str text => text
  | int number => toString number
  | bool flag => if flag then "true" else "false"
  | list items => "[" ++ joinTexts ", " (displayItems items) ++ "]"
  | map pairs => "\x7b" ++ joinTexts ", " (displayPairs pairs) ++ "\x7d"
  | other kindName => "<" ++ kindName ++ ">"

/-- The texts of the elements of a sequence. -/
def displayItems : List Value → List String
  | [] => []
  | item :: rest => display item :: displayItems rest

/-- The texts of the pairs of a mapping. -/
def displayPairs : List (Value × Value) → List String
  | [] => []
  | (key, value) :: rest => (display key ++ " => " ++ display value) :: displayPairs rest

end

/-- The text by which diagnostics quote a pair. -/
def pairText (key value : Value) : String := key.display ++ " => " ++ value.display

end Value

end TranslitScheme
