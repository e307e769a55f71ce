import TranslitScheme.Toml.Text

/-!
# Writing TOML

A string is written in the first of the four kinds of quotes that takes it without escapes,
the tab aside, and with escapes when none does. Keys have no quotes where they may. Every
string can be written, and reads back as it was.
-/

namespace TranslitScheme.Toml

/-- The hexadecimal digit of a number below sixteen, in upper case. -/
def upperHexDigit (digit : Nat) : Char := (Digits.digitChar digit).toUpper

/-- A character as it stands in a string. -/
def escapeChar (c : Char) : List Char :=
  if c = '"' then ['\\', '"']
  else if c = '\\' then ['\\', '\\']
  else if c = '\n' then ['\\', 'n']
  else if c = '\r' then ['\\', 'r']
  else if c = '\t' then ['\\', 't']
  else if c.toNat = 8 then ['\\', 'b']
  else if c.toNat = 12 then ['\\', 'f']
  else if isBasicChar c then [c]
  else ['\\', 'u', '0', '0', upperHexDigit (c.toNat / 16), upperHexDigit (c.toNat % 16)]

/-- How a string is quoted. -/
inductive Quoting where
  /-- On one line, with escapes. -/
  | basic
  /-- On one line, without escapes. -/
  | literal
  /-- On several lines, with escapes. -/
  | basicLines
  /-- On several lines, without escapes. -/
  | literalLines
  deriving DecidableEq, Repr, Inhabited

/-- A character that only an escape can stand for. -/
def needsEscape (c : Char) : Bool := !isCommentChar c && c != '\n'

/-- Three quotes stand in a row. -/
def hasThree (quote : Char) : List Char → Bool
  | a :: b :: c :: rest =>
    (a == quote && b == quote && c == quote) || hasThree quote (b :: c :: rest)
  | _ => false

/-- The quoting of a string that may have several lines. -/
def Quoting.ofText (text : List Char) : Quoting :=
  let severalLines := text.contains '\n'
  if text.any needsEscape then if severalLines then basicLines else basic
  else if !severalLines && !text.contains '\\' && !text.contains '"' then basic
  else if !severalLines && !text.contains '\'' then literal
  else if !text.contains '\\' && !hasThree '"' text then basicLines
  else if !hasThree '\'' text then literalLines
  else if severalLines then basicLines
  else basic

/-- The quoting of a key in quotes, which stands on one line. -/
def Quoting.ofKey (key : List Char) : Quoting :=
  if key.any needsEscape || key.contains '\n' then basic
  else if !key.contains '\\' && !key.contains '"' then basic
  else if !key.contains '\'' then literal
  else basic

/-- A text as it stands between quotes for several lines, behind some quotes in a row. At most
two quotes in a row stand for themselves. -/
def escapeLines : (quotes : Nat) → List Char → List Char
  | _, [] => []
  | quotes, c :: rest =>
    if c = '\n' then c :: escapeLines 0 rest
    else if c = '"' ∧ quotes < 2 then c :: escapeLines (quotes + 1) rest
    else escapeChar c ++ escapeLines 0 rest

/-- The line end that comes before a text of several lines. -/
def firstLineEnd (text : List Char) : List Char := if text.contains '\n' then ['\n'] else []

/-- A text in quotes. -/
def Quoting.write (text : List Char) : Quoting → List Char
  | basic => '"' :: (text.flatMap escapeChar ++ ['"'])
  | literal => '\'' :: (text ++ ['\''])
  | basicLines =>
    '"' :: '"' :: '"' :: (firstLineEnd text ++ escapeLines 0 text ++ ['"', '"', '"'])
  | literalLines =>
    '\'' :: '\'' :: '\'' :: (firstLineEnd text ++ text ++ ['\'', '\'', '\''])

/-- A string in quotes. -/
def writeString (text : String) : List Char := (Quoting.ofText text.toList).write text.toList

/-- A key, in quotes unless all its characters may stand without. -/
def writeKey (key : String) : List Char :=
  if key ≠ "" ∧ key.toList.all isBareChar then key.toList
  else (Quoting.ofKey key.toList).write key.toList

/-- A truth value. -/
def writeBool : Bool → List Char
  | true => ['t', 'r', 'u', 'e']
  | false => ['f', 'a', 'l', 's', 'e']

/-- A line that gives a key a value. -/
def writeEntry (key : String) (value : List Char) : List Char :=
  writeKey key ++ ' ' :: '=' :: ' ' :: (value ++ ['\n'])

/-- A blank line and the header of a table. -/
def writeHeader (path : List String) : List Char :=
  '\n' :: '[' :: (['.'].intercalate (path.map writeKey) ++ [']', '\n'])

end TranslitScheme.Toml
