import TranslitScheme.Json.Basic
import TranslitScheme.Text.Digits

/-!
# Reading JSON

A text is read as a list of characters. Each reader takes what it needs from the front and
hands back the rest, or fails. The readers of nested values carry a bound on the number of
calls, which the text's length provides, so that every text is read to its end.
-/

namespace TranslitScheme.Json

/-- Blanks may stand around every value, colon and comma. -/
def isBlank (c : Char) : Bool := c == ' ' || c == '\n' || c == '\t' || c == '\r'

/-- A text without the blanks at its start. -/
def skipBlanks (text : List Char) : List Char := text.dropWhile isBlank

/-- A part of a string: a character, or a code unit that was written as an escape. -/
inductive StringPiece where
  | plain (c : Char)
  | unit (code : Nat)
  deriving DecidableEq, Repr

/-- The character that a one-letter escape stands for. -/
def simpleEscape? : Char → Option Char
  | '"' => some '"'
  | '\\' => some '\\'
  | '/' => some '/'
  | 'b' => some '\x08'
  | 'f' => some '\x0c'
  | 'n' => some '\n'
  | 'r' => some '\r'
  | 't' => some '\t'
  | _ => none

/-- The code unit that four hexadecimal digits stand for. -/
def unitOfHex? (a b c d : Char) : Option Nat := do
  let a ← Digits.hexValue? a
  let b ← Digits.hexValue? b
  let c ← Digits.hexValue? c
  let d ← Digits.hexValue? d
  return a * 4096 + b * 256 + c * 16 + d

/-- Read the pieces of a string up to its closing quote. -/
def readPieces : List Char → Option (List StringPiece × List Char)
  | '"' :: rest => some ([], rest)
  | '\\' :: 'u' :: a :: b :: c :: d :: rest => do
    let code ← unitOfHex? a b c d
    let (pieces, rest) ← readPieces rest
    return (.unit code :: pieces, rest)
  | '\\' :: c :: rest => do
    let c ← simpleEscape? c
    let (pieces, rest) ← readPieces rest
    return (.plain c :: pieces, rest)
  | c :: rest =>
    if c.toNat < 32 ∨ c = '\\' then none
    else do
      let (pieces, rest) ← readPieces rest
      return (.plain c :: pieces, rest)
  | [] => none

/-- The first half of a surrogate pair. -/
def isHighSurrogate (code : Nat) : Bool := decide (0xD800 ≤ code ∧ code < 0xDC00)

/-- The second half of a surrogate pair. -/
def isLowSurrogate (code : Nat) : Bool := decide (0xDC00 ≤ code ∧ code < 0xE000)

/-- The characters of a string, unless it holds half of a surrogate pair. -/
def assemble : List StringPiece → Option (List Char)
  | [] => some []
  | .plain c :: rest => (assemble rest).map (c :: ·)
  | .unit high :: .unit low :: rest =>
    if isHighSurrogate high then
      if isLowSurrogate low then
        (assemble rest).map
          (Char.ofNat (0x10000 + (high - 0xD800) * 0x400 + (low - 0xDC00)) :: ·)
      else none
    else if isLowSurrogate high then none
    else (assemble (.unit low :: rest)).map (Char.ofNat high :: ·)
  | .unit code :: rest =>
    if isHighSurrogate code || isLowSurrogate code then none
    else (assemble rest).map (Char.ofNat code :: ·)

/-- Read a string after its opening quote. The string is absent when it has no characters that
could be stored. -/
def readString (text : List Char) : Option (Option String × List Char) :=
  (readPieces text).map fun (pieces, rest) => ((assemble pieces).map String.ofList, rest)

/-- Read a fraction, if there is one, and tell whether there was. -/
def readFraction : List Char → Option (Bool × List Char)
  | '.' :: rest =>
    match Digits.span rest with
    | ([], _) => none
    | (_ :: _, rest) => some (true, rest)
  | text => some (false, text)

/-- A text without the sign at its start. -/
def skipSign : List Char → List Char
  | '+' :: rest => rest
  | '-' :: rest => rest
  | text => text

/-- Read an exponent, if there is one, and tell whether there was. -/
def readExponent : List Char → Option (Bool × List Char)
  | [] => some (false, [])
  | c :: rest =>
    if c = 'e' ∨ c = 'E' then
      match Digits.span (skipSign rest) with
      | ([], _) => none
      | (_ :: _, rest) => some (true, rest)
    else some (false, c :: rest)

/-- The value of a number without fraction and exponent. Minus zero is not an integer. -/
def integerValue (negative : Bool) (digits : List Char) : Json :=
  match negative, Digits.number 10 digits with
  | false, number => .int number
  | true, 0 => .unsupported
  | true, number => .int (-number)

/-- Read a number after its sign. Only a single zero may start with the digit zero. -/
def readUnsigned (negative : Bool) (text : List Char) : Option (Json × List Char) :=
  match Digits.span text with
  | ([], _) => none
  | ('0' :: _ :: _, _) => none
  | (digits, rest) => do
    let (hasFraction, rest) ← readFraction rest
    let (hasExponent, rest) ← readExponent rest
    return (if hasFraction || hasExponent then .unsupported else integerValue negative digits, rest)

/-- Read a number. -/
def readNumber : List Char → Option (Json × List Char)
  | '-' :: rest => readUnsigned true rest
  | text => readUnsigned false text

/-- An object with the given members, unless a name has no characters that could be stored. -/
def ofMembers (members : Option (List (String × Json))) : Json :=
  match members with
  | some members => .obj members
  | none => .unsupported

mutual

/-- Read a value that starts at the first character. -/
def readValue : Nat → List Char → Option (Json × List Char)
  | 0, _ => none
  | bound + 1, text =>
    match text with
    | 'n' :: 'u' :: 'l' :: 'l' :: rest => some (.null, rest)
    | 't' :: 'r' :: 'u' :: 'e' :: rest => some (.bool true, rest)
    | 'f' :: 'a' :: 'l' :: 's' :: 'e' :: rest => some (.bool false, rest)
    | '"' :: rest => do
      let (text, rest) ← readString rest
      return ((text.map Json.str).getD .unsupported, rest)
    | '[' :: rest =>
      match skipBlanks rest with
      | ']' :: rest => some (.arr [], rest)
      | rest => (readItems bound rest).map fun (items, rest) => (.arr items, rest)
    | '\x7b' :: rest =>
      match skipBlanks rest with
      | '\x7d' :: rest => some (.obj [], rest)
      | rest => (readMembers bound rest).map fun (members, rest) => (ofMembers members, rest)
    | text => readNumber text

/-- Read elements up to the end of an array. -/
def readItems : Nat → List Char → Option (List Json × List Char)
  | 0, _ => none
  | bound + 1, text => do
    let (item, rest) ← readValue bound text
    match skipBlanks rest with
    | ',' :: rest =>
      let (items, rest) ← readItems bound (skipBlanks rest)
      return (item :: items, rest)
    | ']' :: rest => some ([item], rest)
    | _ => none

/-- Read members up to the end of an object. -/
def readMembers : Nat → List Char → Option (Option (List (String × Json)) × List Char)
  | 0, _ => none
  | bound + 1, text =>
    match text with
    | '"' :: rest => do
      let (name, rest) ← readString rest
      match skipBlanks rest with
      | ':' :: rest =>
        let (value, rest) ← readValue bound (skipBlanks rest)
        let first := name.map fun name => (name, value)
        match skipBlanks rest with
        | ',' :: rest =>
          let (members, rest) ← readMembers bound (skipBlanks rest)
          return (first.bind fun first => members.map (first :: ·), rest)
        | '\x7d' :: rest => some (first.map fun first => [first], rest)
        | _ => none
      | _ => none
    | _ => none

end

/-- The value of a JSON text. -/
def parse? (text : String) : Option Json :=
  let characters := text.toList
  match readValue (2 * characters.length + 2) (skipBlanks characters) with
  | some (value, rest) => if skipBlanks rest = [] then some value else none
  | none => none

end TranslitScheme.Json
