import TranslitScheme.Text.Digits

/-!
# Characters, strings and keys in TOML

The smallest parts of a TOML document: which characters may stand where, the four kinds of
strings, comments, and keys. Each reader takes its part from the front of a text and hands
back the rest.
-/

namespace TranslitScheme.Toml

/-- A space or a tab. -/
def isSpace (c : Char) : Bool := c == ' ' || c == '\t'

/-- A text without the spaces at its start. -/
def skipSpaces (text : List Char) : List Char := text.dropWhile isSpace

/-- A character that may stand in a comment: no control character but the tab. -/
def isCommentChar (c : Char) : Bool := c == '\t' || (decide (32 ≤ c.toNat) && c.toNat != 127)

/-- A character that may stand for itself in a string with escapes. -/
def isBasicChar (c : Char) : Bool := isCommentChar c && c != '"' && c != '\\'

/-- A character that may stand in a string without escapes. -/
def isLiteralChar (c : Char) : Bool := isCommentChar c && c != '\''

/-- A character of a key without quotes. -/
def isBareChar (c : Char) : Bool := c.isAlphanum || c == '-' || c == '_'

/-- A text after the line end at its start. -/
def afterNewline? : List Char → Option (List Char)
  | '\n' :: rest => some rest
  | '\r' :: '\n' :: rest => some rest
  | _ => none

/-- A text without the line end at its start, if it starts with one. -/
def skipNewline (text : List Char) : List Char := (afterNewline? text).getD text

/-- The character of a given code, which must not be a surrogate. -/
def charOfCode? (code : Nat) : Option Char :=
  if code.isValidChar then some (Char.ofNat code) else none

/-- The character that hexadecimal digits stand for. -/
def charOfHex? (digits : List Char) : Option Char :=
  if digits.all fun c => (Digits.hexValue? c).isSome then
    charOfCode? (Digits.number 16 digits)
  else none

/-- The character that a one-letter escape stands for. -/
def simpleEscape? : Char → Option Char
  | '"' => some '"'
  | '\\' => some '\\'
  | 'b' => some '\x08'
  | 'f' => some '\x0c'
  | 'n' => some '\n'
  | 'r' => some '\r'
  | 't' => some '\t'
  | _ => none

/-- Put a character in front of a reading. -/
def consChar (c : Char) : List Char × List Char → List Char × List Char
  | (read, rest) => (c :: read, rest)

/-- Read a string with escapes up to its closing quote. -/
def readBasic : List Char → Option (List Char × List Char)
  | '"' :: rest => some ([], rest)
  | '\\' :: 'u' :: a :: b :: c :: d :: rest => do
    let character ← charOfHex? [a, b, c, d]
    (readBasic rest).map (consChar character)
  | '\\' :: 'U' :: a :: b :: c :: d :: e :: f :: g :: h :: rest => do
    let character ← charOfHex? [a, b, c, d, e, f, g, h]
    (readBasic rest).map (consChar character)
  | '\\' :: c :: rest => do
    let character ← simpleEscape? c
    (readBasic rest).map (consChar character)
  | c :: rest => if isBasicChar c then (readBasic rest).map (consChar c) else none
  | [] => none

/-- Read a string without escapes up to its closing quote. -/
def readLiteral : List Char → Option (List Char × List Char)
  | '\'' :: rest => some ([], rest)
  | c :: rest => if isLiteralChar c then (readLiteral rest).map (consChar c) else none
  | [] => none

/-- Read a string of several lines with escapes up to its closing quotes.

A line end is read as a line feed. A backslash at the end of a line takes away all blanks up
to the next character, which `trimming` keeps in mind. Up to two quotes may stand in front of
the closing ones. -/
def readBasicLines (trimming : Bool) : List Char → Option (List Char × List Char)
  | '"' :: '"' :: '"' :: '"' :: '"' :: rest => some (['"', '"'], rest)
  | '"' :: '"' :: '"' :: '"' :: rest => some (['"'], rest)
  | '"' :: '"' :: '"' :: rest => some ([], rest)
  | '"' :: rest => (readBasicLines false rest).map (consChar '"')
  | '\r' :: '\n' :: rest =>
    if trimming then readBasicLines true rest
    else (readBasicLines false rest).map (consChar '\n')
  | '\n' :: rest =>
    if trimming then readBasicLines true rest
    else (readBasicLines false rest).map (consChar '\n')
  | '\\' :: 'u' :: a :: b :: c :: d :: rest => do
    let character ← charOfHex? [a, b, c, d]
    (readBasicLines false rest).map (consChar character)
  | '\\' :: 'U' :: a :: b :: c :: d :: e :: f :: g :: h :: rest => do
    let character ← charOfHex? [a, b, c, d, e, f, g, h]
    (readBasicLines false rest).map (consChar character)
  | '\\' :: c :: rest =>
    match simpleEscape? c with
    | some character => (readBasicLines false rest).map (consChar character)
    | none =>
      if (afterNewline? (skipSpaces (c :: rest))).isSome then readBasicLines true rest else none
  | c :: rest =>
    if trimming && isSpace c then readBasicLines true rest
    else if isBasicChar c then (readBasicLines false rest).map (consChar c)
    else none
  | [] => none

/-- Read a string of several lines without escapes up to its closing quotes. -/
def readLiteralLines : List Char → Option (List Char × List Char)
  | '\'' :: '\'' :: '\'' :: '\'' :: '\'' :: rest => some (['\'', '\''], rest)
  | '\'' :: '\'' :: '\'' :: '\'' :: rest => some (['\''], rest)
  | '\'' :: '\'' :: '\'' :: rest => some ([], rest)
  | '\'' :: rest => (readLiteralLines rest).map (consChar '\'')
  | '\r' :: '\n' :: rest => (readLiteralLines rest).map (consChar '\n')
  | '\n' :: rest => (readLiteralLines rest).map (consChar '\n')
  | c :: rest => if isLiteralChar c then (readLiteralLines rest).map (consChar c) else none
  | [] => none

/-- Read a string of any kind, from its opening quote. -/
def readString? : List Char → Option (List Char × List Char)
  | '"' :: '"' :: '"' :: rest => readBasicLines false (skipNewline rest)
  | '"' :: rest => readBasic rest
  | '\'' :: '\'' :: '\'' :: rest => readLiteralLines (skipNewline rest)
  | '\'' :: rest => readLiteral rest
  | _ => none

/-- Read one part of a key: a string of one line, or characters without quotes. -/
def readKeyPart : List Char → Option (String × List Char)
  | '"' :: rest => (readBasic rest).map fun (read, rest) => (String.ofList read, rest)
  | '\'' :: rest => (readLiteral rest).map fun (read, rest) => (String.ofList read, rest)
  | text =>
    match text.takeWhile isBareChar with
    | [] => none
    | read => some (String.ofList read, text.dropWhile isBareChar)

/-- Read the parts of a key, with points between them and spaces around them. -/
def readKeyParts : Nat → List Char → Option (List String × List Char)
  | 0, _ => none
  | bound + 1, text => do
    let (part, rest) ← readKeyPart (skipSpaces text)
    match skipSpaces rest with
    | '.' :: rest =>
      let (parts, rest) ← readKeyParts bound rest
      return (part :: parts, rest)
    | rest => return ([part], rest)

/-- Keys have fewer parts than this, and values are nested less deeply. -/
def nestingLimit : Nat := 80

/-- A key: the path to a table, and the name in that table. -/
structure Key where
  path : List String
  name : String
  deriving DecidableEq, Repr, Inhabited

/-- Read a key. -/
def readKey (text : List Char) : Option (Key × List Char) := do
  let (parts, rest) ← readKeyParts nestingLimit text
  if parts.length < nestingLimit then
    return ({ path := parts.dropLast, name := parts.getLastD "" }, rest)
  else none

/-- A text after the comment at its start, if it starts with one. -/
def skipComment : List Char → List Char
  | '#' :: rest => rest.dropWhile isCommentChar
  | text => text

/-- A text after the end of a line, which may hold a comment. The text may end there, too. -/
def endLine? (text : List Char) : Option (List Char) :=
  match skipComment (skipSpaces text) with
  | [] => some []
  | rest => afterNewline? rest

/-- A text without blanks, line ends and comments at its start. A comment needs a line end. -/
def skipTrivia? (inComment : Bool) : List Char → Option (List Char)
  | '\r' :: '\n' :: rest => skipTrivia? false rest
  | '\n' :: rest => skipTrivia? false rest
  | c :: rest =>
    if inComment then if isCommentChar c then skipTrivia? true rest else none
    else if isSpace c then skipTrivia? false rest
    else if c == '#' then skipTrivia? true rest
    else some (c :: rest)
  | [] => if inComment then none else some []

end TranslitScheme.Toml
