import TranslitScheme.Json.Printer
import TranslitScheme.Json.Reader

/-!
# Numbers and strings are read back

What a text says at its front does not depend on what follows, as long as it is clear where it
ends. A string ends at its quote. A number has no end of its own, so what follows it has to be
something that cannot go on with a number.

A written string is read piece by piece, one for each of its characters. Only control characters
are written as code units, which are too small to be half of a surrogate pair.
-/

namespace TranslitScheme

namespace Digits

/-- A hexadecimal digit has the value that it was made from. -/
theorem hexValue?_digitChar (digit : Nat) (hdigit : digit < 16) :
    hexValue? (digitChar digit) = some digit := by
  have hall : ∀ digit : Fin 16, hexValue? (digitChar digit) = some digit.val := by decide
  exact hall ⟨digit, hdigit⟩

/-- A digit below ten is a decimal digit. -/
theorem isDigit_digitChar (digit : Nat) (hdigit : digit < 10) :
    (digitChar digit).isDigit = true := by
  have hall : ∀ digit : Fin 10, (digitChar digit).isDigit = true := by decide
  exact hall ⟨digit, hdigit⟩

/-- A number is written with decimal digits. -/
theorem isDigit_of_mem_decimal (number : Nat) (c : Char) (hc : c ∈ decimal number) :
    c.isDigit = true := by
  induction number using decimal.induct with
  | case1 number hsmall =>
    rw [decimal, if_pos hsmall, List.mem_singleton] at hc
    exact hc ▸ isDigit_digitChar number hsmall
  | case2 number hlarge ih =>
    rw [decimal, if_neg hlarge, List.mem_append, List.mem_singleton] at hc
    cases hc with
    | inl hfront => exact ih hfront
    | inr hlast => exact hlast ▸ isDigit_digitChar (number % 10) (by omega)

/-- A number has at least one digit. -/
theorem decimal_ne_nil (number : Nat) : decimal number ≠ [] := by
  rw [decimal]
  split <;> simp

/-- Only zero starts with the digit zero. -/
theorem eq_zero_of_head?_decimal (number : Nat) (hhead : (decimal number).head? = some '0') :
    number = 0 := by
  induction number using decimal.induct with
  | case1 number hsmall =>
    rw [decimal, if_pos hsmall, List.head?_cons, Option.some.injEq] at hhead
    have hvalue := hexValue?_digitChar number (by omega)
    rw [hhead] at hvalue
    exact (Option.some.inj hvalue).symm
  | case2 number hlarge ih =>
    rw [decimal, if_neg hlarge, List.head?_append, Option.or_of_isSome
      (List.isSome_head?.mpr (decimal_ne_nil _))] at hhead
    have hzero := ih hhead
    omega

/-- Nothing follows a leading zero. -/
theorem decimal_ne_zero_cons (number : Nat) (c : Char) (rest : List Char) :
    decimal number ≠ '0' :: c :: rest := by
  intro heq
  have hzero := eq_zero_of_head?_decimal number (by rw [heq]; rfl)
  rw [hzero, decimal] at heq
  simp at heq

/-- The digits of a number stand for it. -/
theorem number_decimal (value : Nat) : number 10 (decimal value) = value := by
  induction value using decimal.induct with
  | case1 value hsmall =>
    rw [decimal, if_pos hsmall]
    simp [number, hexValue?_digitChar value (by omega)]
  | case2 value hlarge ih =>
    have hlast := hexValue?_digitChar (value % 10) (by omega)
    unfold number at ih
    rw [decimal, if_neg hlarge, number, List.foldl_append, ih, List.foldl_cons, List.foldl_nil,
      hlast, Option.getD_some]
    omega

/-- The digits of a number end where something else than a digit follows. -/
theorem span_decimal_append (number : Nat) (rest : List Char)
    (hrest : ∀ c ∈ rest.head?, c.isDigit = false) :
    span (decimal number ++ rest) = (decimal number, rest) := by
  have hdigits := isDigit_of_mem_decimal number
  have htake : rest.takeWhile Char.isDigit = [] := by
    cases rest with
    | nil => rfl
    | cons c rest => simp [hrest c (by simp)]
  have hdrop : rest.dropWhile Char.isDigit = rest := by
    cases rest with
    | nil => rfl
    | cons c rest => simp [hrest c (by simp)]
  rw [span, List.takeWhile_append_of_pos hdigits, List.dropWhile_append_of_pos hdigits, htake,
    hdrop, List.append_nil]

end Digits

namespace Json

/-! ### Numbers -/

/-- What follows a value: nothing, or a character that may stand after every value. -/
def Ends (rest : List Char) : Prop :=
  ∀ c ∈ rest.head?, isBlank c = true ∨ c = ',' ∨ c = ']' ∨ c = '\x7d'

/-- A character that may stand after every value goes on with none. -/
theorem Ends.head {c : Char} {rest : List Char} (hends : Ends (c :: rest)) :
    c.isDigit = false ∧ c ≠ '.' ∧ c ≠ 'e' ∧ c ≠ 'E' := by
  have hc := hends c rfl
  simp only [isBlank, Bool.or_eq_true, beq_iff_eq] at hc
  rcases hc with (((rfl | rfl) | rfl) | rfl) | rfl | rfl | rfl <;> decide

/-- No digit follows. -/
theorem Ends.isDigit_eq_false {rest : List Char} (hends : Ends rest) :
    ∀ c ∈ rest.head?, c.isDigit = false := by
  cases rest with
  | nil => simp
  | cons c rest => simpa using hends.head.1

/-- No fraction follows. -/
theorem Ends.readFraction_eq {rest : List Char} (hends : Ends rest) :
    readFraction rest = some (false, rest) := by
  cases rest with
  | nil => rfl
  | cons c rest =>
    have hpoint := hends.head.2.1
    simp [readFraction, hpoint]

/-- No exponent follows. -/
theorem Ends.readExponent_eq {rest : List Char} (hends : Ends rest) :
    readExponent rest = some (false, rest) := by
  cases rest with
  | nil => rfl
  | cons c rest => simp [readExponent, hends.head.2.2]

/-- The digits of a number are read back, with the sign that was read before. -/
theorem readUnsigned_decimal (negative : Bool) (number : Nat) {rest : List Char}
    (hends : Ends rest) :
    readUnsigned negative (Digits.decimal number ++ rest) =
      some (integerValue negative (Digits.decimal number), rest) := by
  unfold readUnsigned
  rw [Digits.span_decimal_append number rest hends.isDigit_eq_false]
  split
  · next heq => exact absurd (Prod.mk.inj heq).1 (Digits.decimal_ne_nil number)
  · next heq => exact absurd (Prod.mk.inj heq).1 (Digits.decimal_ne_zero_cons number _ _)
  · next heq =>
    obtain ⟨rfl, rfl⟩ := heq
    simp [hends.readFraction_eq, hends.readExponent_eq]

/-- A number that does not start with a sign has none. -/
theorem readNumber_of_isDigit {c : Char} (text : List Char) (hdigit : c.isDigit = true) :
    readNumber (c :: text) = readUnsigned false (c :: text) := by
  have hminus : c ≠ '-' := by
    rintro rfl
    exact absurd hdigit (by decide)
  simp [readNumber, hminus]

/-- An integer is read back. -/
theorem readNumber_writeInt (number : Int) {rest : List Char} (hends : Ends rest) :
    readNumber (writeInt number ++ rest) = some (.int number, rest) := by
  cases number with
  | ofNat number =>
    have hread := readUnsigned_decimal false number hends
    have hvalue : integerValue false (Digits.decimal number) = .int number := by
      simp [integerValue, Digits.number_decimal]
    rw [hvalue] at hread
    -- the first digit shows that there is no sign
    cases hdigits : Digits.decimal number with
    | nil => exact absurd hdigits (Digits.decimal_ne_nil number)
    | cons c more =>
      have hdigit := Digits.isDigit_of_mem_decimal number c (by simp [hdigits])
      rw [hdigits] at hread
      rw [writeInt, hdigits, List.cons_append, readNumber_of_isDigit _ hdigit]
      exact hread
  | negSucc number =>
    have hvalue : integerValue true (Digits.decimal (number + 1)) = .int (.negSucc number) := by
      unfold integerValue
      rw [Digits.number_decimal]
      rfl
    rw [writeInt, List.cons_append, readNumber, readUnsigned_decimal true _ hends, hvalue]

/-- The text of an integer starts with a digit or the minus sign. -/
theorem exists_writeInt_eq_cons (number : Int) :
    ∃ c more, writeInt number = c :: more ∧ (c.isDigit = true ∨ c = '-') := by
  cases number with
  | ofNat number =>
    cases hdigits : Digits.decimal number with
    | nil => exact absurd hdigits (Digits.decimal_ne_nil number)
    | cons c more =>
      have hdigit := Digits.isDigit_of_mem_decimal number c (by simp [hdigits])
      exact ⟨c, more, hdigits, .inl hdigit⟩
  | negSucc number => exact ⟨'-', _, rfl, .inr rfl⟩

/-- A digit is no blank. -/
theorem isBlank_eq_false_of_isDigit {c : Char} (hdigit : c.isDigit = true) :
    isBlank c = false := by
  cases hblank : isBlank c with
  | false => rfl
  | true =>
    simp only [isBlank, Bool.or_eq_true, beq_iff_eq] at hblank
    rcases hblank with ((rfl | rfl) | rfl) | rfl <;> exact absurd hdigit (by decide)

/-! ### Strings -/

/-- The piece that a character of a written string is read as. -/
def pieceOf (c : Char) : StringPiece :=
  if c = '\n' ∨ c = '\r' ∨ c = '\t' ∨ c.toNat = 8 ∨ c.toNat = 12 ∨ 32 ≤ c.toNat then .plain c
  else .unit c.toNat

/-- A code unit of a control character is written with two digits that matter. -/
theorem unitOfHex?_digitChar (code : Nat) (hcode : code < 256) :
    unitOfHex? '0' '0' (Digits.digitChar (code / 16)) (Digits.digitChar (code % 16)) =
      some code := by
  have hzero : Digits.hexValue? '0' = some 0 := by decide
  have hhigh := Digits.hexValue?_digitChar (code / 16) (by omega)
  have hlow := Digits.hexValue?_digitChar (code % 16) (by omega)
  simp only [unitOfHex?, hzero, hhigh, hlow, Option.bind_eq_bind, Option.bind_some,
    Option.pure_def, Option.some.injEq]
  omega

/-- A letter behind a backslash is read as the character that it stands for. -/
theorem readPieces_escape {letter c : Char} (hletter : simpleEscape? letter = some c)
    (rest : List Char) :
    readPieces ('\\' :: letter :: rest) =
      (readPieces rest).map fun read => (.plain c :: read.1, read.2) := by
  have hunit : letter ≠ 'u' := by
    rintro rfl
    exact nomatch hletter
  rw [readPieces, hletter]
  · cases readPieces rest <;> rfl
  · exact fun _ _ _ _ _ heq => absurd heq hunit

/-- A written character is read as one piece. -/
theorem readPieces_escapeChar (c : Char) (rest : List Char) :
    readPieces (escapeChar c ++ rest) =
      (readPieces rest).map fun read => (pieceOf c :: read.1, read.2) := by
  unfold escapeChar
  split
  · next h =>
    subst h
    exact readPieces_escape rfl rest
  split
  · next h =>
    subst h
    exact readPieces_escape rfl rest
  split
  · next h =>
    subst h
    exact readPieces_escape rfl rest
  split
  · next h =>
    subst h
    exact readPieces_escape rfl rest
  split
  · next h =>
    subst h
    exact readPieces_escape rfl rest
  split
  · next h =>
    obtain rfl : c = '\x08' := Char.toNat_inj.mp h
    exact readPieces_escape rfl rest
  split
  · next h =>
    obtain rfl : c = '\x0c' := Char.toNat_inj.mp h
    exact readPieces_escape rfl rest
  split
  · next hnewline hreturn htab hback hfeed hcontrol =>
    have hcode := unitOfHex?_digitChar c.toNat (by omega)
    have hpiece : pieceOf c = .unit c.toNat :=
      if_neg (by simp only [not_or]; exact ⟨hnewline, hreturn, htab, hback, hfeed, by omega⟩)
    rw [hpiece]
    simp only [List.cons_append, List.nil_append, readPieces, hcode, Option.bind_eq_bind,
      Option.bind_some]
    cases readPieces rest <;> rfl
  · next hquote hslash _ _ _ _ _ hcontrol =>
    have hpiece : pieceOf c = .plain c :=
      if_pos (.inr (.inr (.inr (.inr (.inr (Nat.le_of_not_lt hcontrol))))))
    rw [hpiece, List.singleton_append, readPieces, if_neg (not_or.mpr ⟨hcontrol, hslash⟩)]
    · cases readPieces rest <;> rfl
    · exact hquote
    · exact fun _ _ _ _ _ heq => absurd heq hslash
    · exact fun _ _ heq => absurd heq hslash

/-- A control character is no half of a surrogate pair. -/
theorem assemble_unit_cons (code : Nat) (hcode : code < 32) (rest : List StringPiece) :
    assemble (.unit code :: rest) = (assemble rest).map (Char.ofNat code :: ·) := by
  have hhigh : isHighSurrogate code = false := by simp [isHighSurrogate]; omega
  have hlow : isLowSurrogate code = false := by simp [isLowSurrogate]; omega
  cases rest with
  | nil => simp [assemble, hhigh, hlow]
  | cons piece rest => cases piece <;> simp [assemble, hhigh, hlow]

/-- The pieces of a written string make up the string. -/
theorem assemble_pieceOf (text : List Char) : assemble (text.map pieceOf) = some text := by
  induction text with
  | nil => rfl
  | cons c text ih =>
    rw [List.map_cons, pieceOf]
    split
    · rw [assemble, ih, Option.map_some]
    · rw [assemble_unit_cons c.toNat (by omega), ih, Option.map_some, Char.ofNat_toNat]

/-- A written string is read piece by piece, up to its closing quote. -/
theorem readPieces_flatMap (text rest : List Char) :
    readPieces (text.flatMap escapeChar ++ '"' :: rest) = some (text.map pieceOf, rest) := by
  induction text with
  | nil => simp [readPieces]
  | cons c text ih =>
    rw [List.flatMap_cons, List.append_assoc, readPieces_escapeChar, ih]
    rfl

/-- A string is read back. -/
theorem readString_writeString (text : String) (rest : List Char) :
    readString (text.toList.flatMap escapeChar ++ '"' :: rest) = some (some text, rest) := by
  simp [readString, readPieces_flatMap, assemble_pieceOf]

end Json

end TranslitScheme
