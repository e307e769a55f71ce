import TranslitScheme.Json.Basic
import TranslitScheme.Text.Digits

/-!
# Writing JSON

One writer serves the compact and the indented form; they differ in what stands after a
colon and around the elements of a container. Control characters, quotes and backslashes are
escaped, all other characters are written as they are.
-/

namespace TranslitScheme.Json

/-- How a JSON text is laid out. -/
structure Layout where
  afterColon : List Char
  /-- What separates elements at a given depth, besides the comma. -/
  gap : Nat → List Char

/-- Nothing but what the syntax needs. -/
def compactLayout : Layout where
  afterColon := []
  gap _ := []

/-- One element to a line, indented by two spaces for each level. -/
def indentedLayout : Layout where
  afterColon := [' ']
  gap depth := '\n' :: List.replicate (2 * depth) ' '

/-- A character as it stands in a string. -/
def escapeChar (c : Char) : List Char :=
  if c = '"' then ['\\', '"']
  else if c = '\\' then ['\\', '\\']
  else if c = '\n' then ['\\', 'n']
  else if c = '\r' then ['\\', 'r']
  else if c = '\t' then ['\\', 't']
  else if c.toNat = 8 then ['\\', 'b']
  else if c.toNat = 12 then ['\\', 'f']
  else if c.toNat < 32 then
    ['\\', 'u', '0', '0', Digits.digitChar (c.toNat / 16), Digits.digitChar (c.toNat % 16)]
  else [c]

/-- A string in quotes. -/
def writeString (text : String) : List Char :=
  '"' :: (text.toList.flatMap escapeChar ++ ['"'])

/-- An integer in decimal. -/
def writeInt : Int → List Char
  | .ofNat number => Digits.decimal number
  | .negSucc number => '-' :: Digits.decimal (number + 1)

mutual

/-- A value at a given depth. A value that has no JSON form is written as `null`. -/
def write (layout : Layout) (depth : Nat) : Json → List Char
  | null => ['n', 'u', 'l', 'l']
  | unsupported => ['n', 'u', 'l', 'l']
  | bool true => ['t', 'r', 'u', 'e']
  | bool false => ['f', 'a', 'l', 's', 'e']
  | int number => writeInt number
  | str text => writeString text
  | arr [] => ['[', ']']
  | arr (item :: rest) =>
    '[' :: (layout.gap (depth + 1) ++ write layout (depth + 1) item ++
      writeItems layout (depth + 1) rest ++ layout.gap depth ++ [']'])
  | obj [] => ['\x7b', '\x7d']
  | obj ((name, value) :: rest) =>
    '\x7b' :: (layout.gap (depth + 1) ++ writeString name ++ ':' :: layout.afterColon ++
      write layout (depth + 1) value ++ writeMembers layout (depth + 1) rest ++
      layout.gap depth ++ ['\x7d'])

/-- The elements after the first one, each behind a comma. -/
def writeItems (layout : Layout) (depth : Nat) : List Json → List Char
  | [] => []
  | item :: rest =>
    ',' :: (layout.gap depth ++ write layout depth item ++ writeItems layout depth rest)

/-- The members after the first one, each behind a comma. -/
def writeMembers (layout : Layout) (depth : Nat) : List (String × Json) → List Char
  | [] => []
  | (name, value) :: rest =>
    ',' :: (layout.gap depth ++ writeString name ++ ':' :: layout.afterColon ++
      write layout depth value ++ writeMembers layout depth rest)

end

/-- The shortest text of a value. -/
def compact (value : Json) : String := String.ofList (write compactLayout 0 value)

/-- The indented text of a value. -/
def pretty (value : Json) : String := String.ofList (write indentedLayout 0 value)

end TranslitScheme.Json
