import TranslitScheme.Toml.Scalar
import TranslitScheme.Toml.Draft

/-!
# Reading TOML

A document is read statement by statement, and the statements are then carried out in order.
The readers of nested values carry a bound on the number of calls, which the text's length
provides, and count how deeply they are nested.
-/

namespace TranslitScheme.Toml

/-- The table that the entries of an inline table make up. -/
def inlineTable? (entries : List (Key × Toml)) : Option Toml :=
  (entries.foldlM (fun table entry => Entries.insert entry.1 entry.2 table) []).map
    fun entries => .table (Draft.entriesToToml entries)

/-- An array or an inline table may begin at a given depth. -/
def mayNest (depth : Nat) : Bool := decide (depth + 1 < nestingLimit)

mutual

/-- Read a value at a given depth, from its first character. -/
def readValue : Nat → Nat → List Char → Option (Toml × List Char)
  | 0, _, _ => none
  | bound + 1, depth, text =>
    match text with
    | '[' :: rest =>
      if mayNest depth then
        (readItems bound (depth + 1) rest).map fun (items, rest) => (.arr items, rest)
      else none
    | '\x7b' :: rest =>
      if mayNest depth then
        match skipSpaces rest with
        | '\x7d' :: rest => some (.table [], rest)
        | rest => do
          let (entries, rest) ← readInline bound (depth + 1) rest
          return (← inlineTable? entries, rest)
      else none
    | '"' :: _ => (readString? text).map fun (read, rest) => (.str (String.ofList read), rest)
    | '\'' :: _ => (readString? text).map fun (read, rest) => (.str (String.ofList read), rest)
    | text => readScalar text

/-- Read elements up to the end of an array. A comma may stand after the last one. -/
def readItems : Nat → Nat → List Char → Option (List Toml × List Char)
  | 0, _, _ => none
  | bound + 1, depth, text => do
    match ← skipTrivia? false text with
    | ']' :: rest => some ([], rest)
    | rest =>
      let (item, rest) ← readValue bound depth rest
      match ← skipTrivia? false rest with
      | ',' :: rest =>
        let (items, rest) ← readItems bound depth rest
        return (item :: items, rest)
      | ']' :: rest => some ([item], rest)
      | _ => none

/-- Read entries up to the end of an inline table. -/
def readInline : Nat → Nat → List Char → Option (List (Key × Toml) × List Char)
  | 0, _, _ => none
  | bound + 1, depth, text => do
    let (key, rest) ← readKey text
    match rest with
    | '=' :: rest =>
      let (value, rest) ← readValue bound depth (skipSpaces rest)
      match skipSpaces rest with
      | ',' :: rest =>
        let (entries, rest) ← readInline bound depth rest
        return ((key, value) :: entries, rest)
      | '\x7d' :: rest => some ([(key, value)], rest)
      | _ => none
    | _ => none

end

/-- Read a statement from its first character, up to the end of its line. -/
def readStatement (text : List Char) : Option (Statement × List Char) :=
  match text with
  | '[' :: '[' :: rest => do
    let (key, rest) ← readKey rest
    match rest with
    | ']' :: ']' :: rest => return (.elementHeader key, ← endLine? rest)
    | _ => none
  | '[' :: rest => do
    let (key, rest) ← readKey rest
    match rest with
    | ']' :: rest => return (.tableHeader key, ← endLine? rest)
    | _ => none
  | text => do
    let (key, rest) ← readKey text
    match rest with
    | '=' :: rest =>
      let (value, rest) ← readValue (2 * rest.length + 2) 0 (skipSpaces rest)
      return (.entry key value, ← endLine? rest)
    | _ => none

/-- Read the statements of a document, passing over blank lines and comments. -/
def readStatements : Nat → List Char → Option (List Statement)
  | 0, _ => none
  | bound + 1, text =>
    match skipSpaces text with
    | [] => some []
    | '#' :: rest => do readStatements bound (← endLine? ('#' :: rest))
    | '\n' :: rest => readStatements bound rest
    | '\r' :: rest => do readStatements bound (← afterNewline? ('\r' :: rest))
    | text => do
      let (statement, rest) ← readStatement text
      return statement :: (← readStatements bound rest)

/-- A text without the mark at its start that some editors leave there. -/
def skipByteOrderMark : List Char → List Char
  | '\ufeff' :: rest => rest
  | text => text

/-- The entries of a TOML document. -/
def parse? (text : String) : Option (List (String × Toml)) := do
  let characters := skipByteOrderMark text.toList
  let statements ← readStatements (characters.length + 1) characters
  let entries ← build statements [] []
  return Draft.entriesToToml entries

end TranslitScheme.Toml
