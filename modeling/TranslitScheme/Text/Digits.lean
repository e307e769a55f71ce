/-!
# Digits

Decimal and hexadecimal digits as characters, the decimal digits of a number, and the number
that a row of digits stands for.
-/

namespace TranslitScheme.Digits

/-- The character of a digit below sixteen, with lower-case letters. -/
def digitChar (digit : Nat) : Char :=
  if digit < 10 then Char.ofNat (48 + digit) else Char.ofNat (87 + digit)

/-- The decimal digits of a number, without leading zeros. -/
def decimal (number : Nat) : List Char :=
  if number < 10 then [digitChar number]
  else decimal (number / 10) ++ [digitChar (number % 10)]
termination_by number

/-- The value of a hexadecimal digit, in either case. -/
def hexValue? (c : Char) : Option Nat :=
  if '0' ≤ c ∧ c ≤ '9' then some (c.toNat - 48)
  else if 'a' ≤ c ∧ c ≤ 'f' then some (c.toNat - 87)
  else if 'A' ≤ c ∧ c ≤ 'F' then some (c.toNat - 55)
  else none

/-- The value of a digit in a given base up to sixteen. -/
def value? (base : Nat) (c : Char) : Option Nat :=
  match hexValue? c with
  | some digit => if digit < base then some digit else none
  | none => none

/-- The number that digits stand for in a given base; other characters count as zero. -/
def number (base : Nat) (digits : List Char) : Nat :=
  digits.foldl (fun total c => total * base + (hexValue? c).getD 0) 0

/-- The longest run of decimal digits at the start of a text, and the rest. -/
def span (text : List Char) : List Char × List Char :=
  (text.takeWhile Char.isDigit, text.dropWhile Char.isDigit)

end TranslitScheme.Digits
