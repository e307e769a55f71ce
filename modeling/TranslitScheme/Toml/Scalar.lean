import TranslitScheme.Toml.Basic
import TranslitScheme.Toml.Text

/-!
# Numbers, dates and words in TOML

A value that is neither a string nor a container is a run of letters, digits and a few signs,
and is recognised as a whole. Integers have 64 bits and may be written in four bases; single
underscores may stand between digits. Dates and times are checked against the calendar, and
a positive number that rounds to infinity is refused.
-/

namespace TranslitScheme.Toml

/-- A character of a number, a date or a word. -/
def isScalarChar (c : Char) : Bool :=
  c.isAlphanum || c == '_' || c == '+' || c == '-' || c == '.' || c == ':'

/-- The digits of a run in which single underscores stand between digits.

`afterDigit` tells whether the character before was a digit. -/
def digitRun? (isDigit : Char → Bool) (afterDigit : Bool) : List Char → Option (List Char)
  | [] => if afterDigit then some [] else none
  | c :: rest =>
    if isDigit c then (digitRun? isDigit true rest).map (c :: ·)
    else if c == '_' && afterDigit then digitRun? isDigit false rest
    else none

/-- The digits of a decimal number, which has no leading zero. -/
def decimalDigits? (text : List Char) : Option (List Char) :=
  match digitRun? Char.isDigit false text with
  | some ('0' :: _ :: _) => none
  | digits => digits

/-- An integer, if it fits in 64 bits. -/
def int64? (number : Int) : Option Toml :=
  if -9223372036854775808 ≤ number ∧ number ≤ 9223372036854775807 then some (.int number) else none

/-- An integer in a given base, written without a sign. -/
def baseInteger? (base : Nat) (text : List Char) : Option Toml := do
  let digits ← digitRun? (fun c => (Digits.value? base c).isSome) false text
  int64? (Digits.number base digits)

/-- A sign, which tells whether a number is negative, and the rest. -/
def splitSign : List Char → Bool × List Char
  | '+' :: rest => (false, rest)
  | '-' :: rest => (true, rest)
  | text => (false, text)

/-- An integer. -/
def integer? : List Char → Option Toml
  | '0' :: 'x' :: rest => baseInteger? 16 rest
  | '0' :: 'o' :: rest => baseInteger? 8 rest
  | '0' :: 'b' :: rest => baseInteger? 2 rest
  | text => do
    let (negative, rest) := splitSign text
    let digits ← decimalDigits? rest
    let number : Int := Digits.number 10 digits
    int64? (if negative then -number else number)

/-- The least number that rounds to infinity in 64-bit floating point arithmetic. -/
def infinityBound : Nat := Nat.pow 2 1024 - Nat.pow 2 970

/-- A number given by digits and a power of ten rounds to infinity. -/
def overflows (digits : List Char) (exponent : Int) : Bool :=
  let significant := digits.dropWhile (· == '0')
  let magnitude : Int := significant.length + exponent
  if significant.isEmpty then false
  else if magnitude > 320 then true
  else if magnitude < 300 then false
  else if 0 ≤ exponent then
    decide (infinityBound ≤ Digits.number 10 significant * Nat.pow 10 exponent.toNat)
  else decide (infinityBound * Nat.pow 10 (-exponent).toNat ≤ Digits.number 10 significant)

/-- The exponent of a floating point number, without the letter. -/
def exponent? (text : List Char) : Option Int := do
  let (negative, rest) := splitSign text
  let digits ← digitRun? Char.isDigit false rest
  let number : Int := Digits.number 10 digits
  return if negative then -number else number

/-- A part of a floating point number before the exponent: whole digits, and the digits of the
fraction when there is one. -/
def mantissa? (text : List Char) : Option (List Char × Option (List Char)) :=
  match text.dropWhile (· != '.') with
  | [] => do
    let whole ← decimalDigits? text
    return (whole, none)
  | _ :: rest => do
    let whole ← decimalDigits? (text.takeWhile (· != '.'))
    let fraction ← digitRun? Char.isDigit false rest
    return (whole, some fraction)

/-- The letter of an exponent. -/
def isExponentLetter (c : Char) : Bool := c == 'e' || c == 'E'

/-- A floating point number with a fraction, an exponent or both. -/
def finiteFloat? (text : List Char) : Option Toml := do
  let (negative, unsigned) := splitSign text
  let (whole, fraction) ← mantissa? (unsigned.takeWhile fun c => !isExponentLetter c)
  let exponent ← match unsigned.dropWhile fun c => !isExponentLetter c with
    | [] => if fraction.isSome then some 0 else none
    | _ :: rest => exponent? rest
  let digits := whole ++ fraction.getD []
  if !negative && overflows digits (exponent - (fraction.getD []).length) then none
  else some .float

/-- A floating point number. -/
def float? (text : List Char) : Option Toml :=
  match (splitSign text).2 with
  | ['i', 'n', 'f'] => some .float
  | ['n', 'a', 'n'] => some .float
  | _ => finiteFloat? text

/-- The number that two decimal digits stand for. -/
def twoDigits? (a b : Char) : Option Nat :=
  if a.isDigit && b.isDigit then some (Digits.number 10 [a, b]) else none

/-- How many days a month has. -/
def daysInMonth (year month : Nat) : Nat :=
  if month = 2 then
    if year % 4 = 0 ∧ (year % 100 ≠ 0 ∨ year % 400 = 0) then 29 else 28
  else if month = 4 ∨ month = 6 ∨ month = 9 ∨ month = 11 then 30
  else 31

/-- A text is a date of the calendar. -/
def isDate : List Char → Bool
  | [y1, y2, y3, y4, '-', m1, m2, '-', d1, d2] =>
    match twoDigits? y1 y2, twoDigits? y3 y4, twoDigits? m1 m2, twoDigits? d1 d2 with
    | some century, some year, some month, some day =>
      decide (1 ≤ month ∧ month ≤ 12 ∧ 1 ≤ day ∧ day ≤ daysInMonth (century * 100 + year) month)
    | _, _, _, _ => false
  | _ => false

/-- Two digit pairs are an hour and a minute. -/
def isHourMinute (h1 h2 m1 m2 : Char) : Bool :=
  match twoDigits? h1 h2, twoDigits? m1 m2 with
  | some hour, some minute => decide (hour ≤ 23 ∧ minute ≤ 59)
  | _, _ => false

/-- A text after the time of day at its start. -/
def afterTime? : List Char → Option (List Char)
  | h1 :: h2 :: ':' :: m1 :: m2 :: ':' :: s1 :: s2 :: rest =>
    match twoDigits? s1 s2 with
    | some second =>
      if isHourMinute h1 h2 m1 m2 && decide (second ≤ 60) then
        match rest with
        | '.' :: fraction =>
          match Digits.span fraction with
          | ([], _) => none
          | (_ :: _, rest) => some rest
        | rest => some rest
      else none
    | none => none
  | _ => none

/-- A text is the distance of a local time from universal time. -/
def isOffset : List Char → Bool
  | ['Z'] => true
  | ['z'] => true
  | [sign, h1, h2, ':', m1, m2] => (sign == '+' || sign == '-') && isHourMinute h1 h2 m1 m2
  | _ => false

/-- A text is a time of day, with an offset if `withOffset` allows it. -/
def isTime (withOffset : Bool) (text : List Char) : Bool :=
  match afterTime? text with
  | some [] => true
  | some rest => withOffset && isOffset rest
  | none => false

/-- A text is a date, a time, or both with a letter or a space between them. -/
def isMoment (text : List Char) : Bool :=
  isDate text || isTime false text ||
    match text.drop 10 with
    | c :: rest =>
      isDate (text.take 10) && (c == 'T' || c == 't' || c == ' ') && isTime true rest
    | [] => false

/-- The value of a number, a date or a word. -/
def scalar? (text : List Char) : Option Toml :=
  if text = ['t', 'r', 'u', 'e'] then some (.bool true)
  else if text = ['f', 'a', 'l', 's', 'e'] then some (.bool false)
  else if isMoment text then some .date
  else (integer? text).orElse fun _ => float? text

/-- Read a number, a date or a word. A space may stand between a date and a time. -/
def readScalar (text : List Char) : Option (Toml × List Char) :=
  let first := text.takeWhile isScalarChar
  let rest := text.dropWhile isScalarChar
  match rest with
  | ' ' :: afterSpace =>
    let second := afterSpace.takeWhile isScalarChar
    if isDate first && !second.isEmpty then
      if isTime true second then some (.date, afterSpace.dropWhile isScalarChar) else none
    else (scalar? first).map fun value => (value, rest)
  | _ => (scalar? first).map fun value => (value, rest)

end TranslitScheme.Toml
