import TranslitScheme.Proofs.Json.Scalar
import TranslitScheme.Toml.Printer

/-!
# Strings in quotes are read back

A string is read back from each of the four kinds of quotes that takes it, and every string is
written in quotes that take it. `readString?_writeString` puts the two together.

What has to be shown of a string of several lines is that it does not end too early. Three quotes
in a row end it, and up to two more in front of them belong to it. So a quote that stands for itself
must not have two others behind it, unless these are among the ones at the end.
-/

namespace TranslitScheme.Toml

/-! ### Characters -/

/-- What may stand for a character between quotes with escapes. -/
inductive Escaped : Char → List Char → Prop where
  | plain {c : Char} (h : isBasicChar c = true) : Escaped c [c]
  | letter {letter c : Char} (h : simpleEscape? letter = some c) : Escaped c ['\\', letter]
  | code {a b c d character : Char} (h : charOfHex? [a, b, c, d] = some character) :
    Escaped character ['\\', 'u', a, b, c, d]

/-- A code below 128 is read back from two hexadecimal digits. -/
theorem charOfHex?_upperHexDigit (code : Nat) (hcode : code < 128) :
    charOfHex? ['0', '0', upperHexDigit (code / 16), upperHexDigit (code % 16)] =
      some (Char.ofNat code) := by
  have hall : ∀ code : Fin 128,
      charOfHex? ['0', '0', upperHexDigit (code / 16), upperHexDigit (code % 16)] =
        some (Char.ofNat code) := by decide +kernel
  exact hall ⟨code, hcode⟩

/-- A character is written as something that may stand for it. -/
theorem escaped_escapeChar (c : Char) : Escaped c (escapeChar c) := by
  unfold escapeChar
  iterate 5
    split
    · next h =>
      subst h
      exact .letter rfl
  split
  · next h =>
    obtain rfl : c = '\x08' := Char.toNat_inj.mp h
    exact .letter rfl
  split
  · next h =>
    obtain rfl : c = '\x0c' := Char.toNat_inj.mp h
    exact .letter rfl
  split
  · next h => exact .plain h
  · next hquote hslash _ _ _ _ _ hbasic =>
    have hcode : c.toNat < 128 := by
      simp [isBasicChar, isCommentChar, hquote, hslash] at hbasic
      omega
    have hread := charOfHex?_upperHexDigit c.toNat hcode
    rw [Char.ofNat_toNat] at hread
    exact .code hread

/-- A character that stands for itself is no quote, no backslash and no part of a line end. -/
theorem ne_of_isBasicChar {c : Char} (h : isBasicChar c = true) :
    c ≠ '"' ∧ c ≠ '\\' ∧ c ≠ '\n' ∧ c ≠ '\r' := by
  refine ⟨?_, ?_, ?_, ?_⟩ <;>
  · rintro rfl
    contradiction

/-- What stands for a character starts neither with a quote nor with a line end. -/
theorem Escaped.head {c : Char} {text : List Char} (h : Escaped c text) :
    ∃ first more, text = first :: more ∧ first ≠ '"' ∧ first ≠ '\n' ∧ first ≠ '\r' := by
  cases h with
  | plain hbasic =>
    obtain ⟨hquote, -, hline, hreturn⟩ := ne_of_isBasicChar hbasic
    exact ⟨c, [], rfl, hquote, hline, hreturn⟩
  | letter _ => exact ⟨'\\', _, rfl, by decide, by decide, by decide⟩
  | code _ => exact ⟨'\\', _, rfl, by decide, by decide, by decide⟩

/-- A letter that makes an escape is not the one of a code. -/
theorem ne_of_simpleEscape? {letter c : Char} (h : simpleEscape? letter = some c) :
    letter ≠ 'u' ∧ letter ≠ 'U' := by
  constructor <;>
  · rintro rfl
    contradiction

/-- What stands for a character is read as it on one line. -/
theorem Escaped.readBasic {c : Char} {text : List Char} (h : Escaped c text) (rest : List Char) :
    readBasic (text ++ rest) = (readBasic rest).map (consChar c) := by
  cases h with
  | plain hbasic =>
    obtain ⟨hquote, hslash, -, -⟩ := ne_of_isBasicChar hbasic
    simp [Toml.readBasic, hslash, hbasic]
  | letter hletter =>
    obtain ⟨hshort, hlong⟩ := ne_of_simpleEscape? hletter
    simp [Toml.readBasic, hshort, hlong, hletter]
  | code hcode => simp [Toml.readBasic, hcode]

/-- What stands for a character is read as it on one of several lines. -/
theorem Escaped.readBasicLines {c : Char} {text : List Char} (h : Escaped c text)
    (rest : List Char) :
    readBasicLines false (text ++ rest) = (readBasicLines false rest).map (consChar c) := by
  cases h with
  | plain hbasic =>
    obtain ⟨hquote, hslash, hline, hreturn⟩ := ne_of_isBasicChar hbasic
    simp [Toml.readBasicLines, hquote, hslash, hreturn, hbasic]
  | letter hletter =>
    obtain ⟨hshort, hlong⟩ := ne_of_simpleEscape? hletter
    simp [Toml.readBasicLines, hshort, hlong, hletter]
  | code hcode => simp [Toml.readBasicLines, hcode]

/-! ### Strings of one line -/

/-- A string with escapes is read up to its closing quote. -/
theorem readBasic_flatMap_escapeChar (text rest : List Char) :
    readBasic (text.flatMap escapeChar ++ '"' :: rest) = some (text, rest) := by
  induction text with
  | nil => simp [readBasic]
  | cons c text ih =>
    rw [List.flatMap_cons, List.append_assoc, (escaped_escapeChar c).readBasic, ih]
    rfl

/-- A string without escapes is read up to its closing quote. -/
theorem readLiteral_append {text : List Char} (htext : ∀ c ∈ text, isLiteralChar c = true)
    (rest : List Char) : readLiteral (text ++ '\'' :: rest) = some (text, rest) := by
  induction text with
  | nil => simp [readLiteral]
  | cons c text ih =>
    rw [List.forall_mem_cons] at htext
    have hquote : c ≠ '\'' := by
      rintro rfl
      exact absurd htext.1 (by decide)
    simp [readLiteral, htext.1, ih htext.2, consChar]

/-! ### Strings of several lines -/

/-- A quote stands for itself unless two others follow. -/
theorem readBasicLines_quote {text : List Char} (h : text.take 2 ≠ ['"', '"']) :
    readBasicLines false ('"' :: text) = (readBasicLines false text).map (consChar '"') := by
  match text with
  | [] => simp [readBasicLines]
  | [a] => simp [readBasicLines]
  | a :: b :: rest =>
    have hne : ¬ (a = '"' ∧ b = '"') := fun hboth => h (by rw [hboth.1, hboth.2]; rfl)
    rw [readBasicLines] <;> simp_all

/-- What is written behind some quotes begins with a quote only if the text does, and there were not
two. It begins with a line end only if the text does. -/
theorem exists_escapeLines_eq_cons (quotes : Nat) (c : Char) (rest : List Char) :
    ∃ first more, escapeLines quotes (c :: rest) = first :: more ∧
      (first = '"' → c = '"' ∧ quotes < 2) ∧ (first = '\n' → c = '\n') ∧ first ≠ '\r' := by
  unfold escapeLines
  split
  · next hline => exact ⟨c, _, rfl, fun h => by simp_all, fun h => h, by simp_all⟩
  split
  · next hquote => exact ⟨c, _, rfl, fun _ => hquote, fun h => h, by simp [hquote.1]⟩
  · obtain ⟨first, more, hfirst, hquote, hline, hreturn⟩ := (escaped_escapeChar c).head
    rw [hfirst]
    exact ⟨first, _, rfl, fun h => absurd h hquote, fun h => absurd h hline, hreturn⟩

/-- Two quotes are written behind a quote only at the end of the text. -/
theorem of_take_escapeLines {quotes : Nat} {tail more : List Char}
    (h : (escapeLines (quotes + 1) tail ++ more).take 2 = ['"', '"']) :
    tail = [] ∨ quotes = 0 ∧ tail = ['"'] := by
  match tail with
  | [] => exact .inl rfl
  | c :: rest =>
    obtain ⟨first, written, hwritten, hquote, -, -⟩ :=
      exists_escapeLines_eq_cons (quotes + 1) c rest
    rw [hwritten] at h
    obtain ⟨rfl, hquotes⟩ := hquote (List.cons.inj h).1
    refine .inr ⟨by omega, ?_⟩
    match rest with
    | [] => rfl
    | d :: rest =>
      -- the quote is the second one, so that a third one would be escaped
      have hsecond : escapeLines (quotes + 1) ('"' :: d :: rest) =
          '"' :: escapeLines (quotes + 2) (d :: rest) := by
        rw [escapeLines, if_neg (by decide), if_pos ⟨rfl, hquotes⟩]
      obtain ⟨third, behind, hthird, hnot, -, -⟩ :=
        exists_escapeLines_eq_cons (quotes + 2) d rest
      rw [← hwritten, hsecond, hthird] at h
      have hthree := (hnot (by simpa using h)).2
      omega

/-- A text of several lines with escapes is read up to its closing quotes. -/
theorem readBasicLines_escapeLines (quotes : Nat) (text rest : List Char) :
    readBasicLines false (escapeLines quotes text ++ '"' :: '"' :: '"' :: '\n' :: rest) =
      some (text, '\n' :: rest) := by
  induction text generalizing quotes with
  | nil => simp [escapeLines, readBasicLines]
  | cons c tail ih =>
    by_cases hline : c = '\n'
    · subst hline
      simp [escapeLines, readBasicLines, ih, consChar]
    by_cases hquote : c = '"' ∧ quotes < 2
    · obtain ⟨rfl, hquotes⟩ := hquote
      have hwritten : escapeLines quotes ('"' :: tail) = '"' :: escapeLines (quotes + 1) tail := by
        simp [escapeLines, hquotes]
      rw [hwritten, List.cons_append]
      by_cases htwo : (escapeLines (quotes + 1) tail ++ '"' :: '"' :: '"' :: '\n' :: rest).take 2 =
          ['"', '"']
      · rcases of_take_escapeLines htwo with rfl | ⟨rfl, rfl⟩ <;> simp [escapeLines, readBasicLines]
      · rw [readBasicLines_quote htwo, ih]
        rfl
    · have hwritten : escapeLines quotes (c :: tail) = escapeChar c ++ escapeLines 0 tail := by
        rw [escapeLines, if_neg hline, if_neg hquote]
      rw [hwritten, List.append_assoc, (escaped_escapeChar c).readBasicLines, ih]
      rfl

/-- A quote stands for itself unless two others follow. -/
theorem readLiteralLines_quote {text : List Char} (h : text.take 2 ≠ ['\'', '\'']) :
    readLiteralLines ('\'' :: text) = (readLiteralLines text).map (consChar '\'') := by
  match text with
  | [] => simp [readLiteralLines]
  | [a] => simp [readLiteralLines]
  | a :: b :: rest =>
    have hne : ¬ (a = '\'' ∧ b = '\'') := fun hboth => h (by rw [hboth.1, hboth.2]; rfl)
    rw [readLiteralLines] <;> simp_all

/-- Behind the first character there are no three quotes in a row either. -/
theorem hasThree_tail {quote c : Char} {tail : List Char} (h : hasThree quote (c :: tail) = false) :
    hasThree quote tail = false := by
  match tail with
  | [] => rfl
  | [_] => rfl
  | a :: b :: rest =>
    rw [hasThree, Bool.or_eq_false_iff] at h
    exact h.2

/-- A text without three quotes in a row is read up to the three at its end. -/
theorem readLiteralLines_append {text : List Char} (hthree : hasThree '\'' text = false)
    (htext : ∀ c ∈ text, isCommentChar c = true ∨ c = '\n') (rest : List Char) :
    readLiteralLines (text ++ '\'' :: '\'' :: '\'' :: '\n' :: rest) =
      some (text, '\n' :: rest) := by
  induction text with
  | nil => simp [readLiteralLines]
  | cons c tail ih =>
    rw [List.forall_mem_cons] at htext
    specialize ih (hasThree_tail hthree) htext.2
    rw [List.cons_append]
    by_cases hquote : c = '\''
    · subst hquote
      by_cases htwo : (tail ++ '\'' :: '\'' :: '\'' :: '\n' :: rest).take 2 = ['\'', '\'']
      · match tail with
        | [] => simp [readLiteralLines]
        | [a] =>
          obtain rfl : a = '\'' := (List.cons.inj htwo).1
          simp [readLiteralLines]
        | a :: b :: more => simp_all [hasThree]
      · rw [readLiteralLines_quote htwo, ih]
        rfl
    rcases htext.1 with hcomment | rfl
    · have hreturn : c ≠ '\r' := by
        rintro rfl
        exact absurd hcomment (by decide)
      have hline : c ≠ '\n' := by
        rintro rfl
        exact absurd hcomment (by decide)
      have hliteral : isLiteralChar c = true := by simp [isLiteralChar, hcomment, hquote]
      simp [readLiteralLines, hquote, hreturn, hliteral, ih, consChar]
    · simp [readLiteralLines, ih, consChar]

/-! ### Strings of any kind -/

/-- Quotes take a text that has nothing in it which they could not hold. -/
def Quoting.Takes (text : List Char) : Quoting → Prop
  | basic => True
  | literal => ∀ c ∈ text, isLiteralChar c = true
  | basicLines => True
  | literalLines => hasThree '\'' text = false ∧ ∀ c ∈ text, isCommentChar c = true ∨ c = '\n'

/-- What needs no escapes is made of characters of comments and of line ends. -/
theorem forall_of_not_any_needsEscape {text : List Char} (h : ¬ text.any needsEscape = true) :
    ∀ c ∈ text, isCommentChar c = true ∨ c = '\n' := by
  intro c hc
  have hnot : needsEscape c = false := by
    simp only [Bool.not_eq_true, List.any_eq_false] at h
    simpa using h c hc
  cases hcomment : isCommentChar c with
  | true => exact .inl rfl
  | false => exact .inr (by simpa [needsEscape, hcomment] using hnot)

/-- What needs no escapes and has neither line ends nor single quotes needs no escapes on one
line. -/
theorem forall_isLiteralChar {text : List Char} (hescape : ¬ text.any needsEscape = true)
    (hline : '\n' ∉ text) (hquote : '\'' ∉ text) : ∀ c ∈ text, isLiteralChar c = true := by
  intro c hc
  have hcomment : isCommentChar c = true :=
    (forall_of_not_any_needsEscape hescape c hc).resolve_right fun h => hline (h ▸ hc)
  have hne : c ≠ '\'' := fun h => hquote (h ▸ hc)
  simp [isLiteralChar, hcomment, hne]

/-- A string is written in quotes that take it. -/
theorem takes_ofText (text : List Char) : (Quoting.ofText text).Takes text := by
  unfold Quoting.ofText
  dsimp only
  split
  · split <;> trivial
  · next hescape =>
    split
    · trivial
    split
    · next h =>
      simp only [Bool.and_eq_true, Bool.not_eq_true', List.contains_eq_mem,
        decide_eq_false_iff_not] at h
      exact forall_isLiteralChar hescape h.1 h.2
    split
    · trivial
    split
    · next h => exact ⟨by simpa using h, forall_of_not_any_needsEscape hescape⟩
    split <;> trivial

/-- A key is written in quotes that take it and stand on one line. -/
theorem takes_ofKey (key : List Char) :
    (Quoting.ofKey key = .basic ∨ Quoting.ofKey key = .literal) ∧
      (Quoting.ofKey key).Takes key := by
  unfold Quoting.ofKey
  split
  · exact ⟨.inl rfl, trivial⟩
  · next hescape =>
    rw [Bool.or_eq_true, not_or] at hescape
    split
    · exact ⟨.inl rfl, trivial⟩
    split
    · next h =>
      refine ⟨.inr rfl, forall_isLiteralChar hescape.1 ?_ ?_⟩
      · simpa using hescape.2
      · simpa using h
    · exact ⟨.inl rfl, trivial⟩

/-- A line end is passed over that was written before a text of several lines. Before other texts
there is none. -/
theorem skipNewline_firstLineEnd {text : List Char} {first : Char} (more : List Char)
    (hline : first = '\n' → '\n' ∈ text) (hreturn : first ≠ '\r') :
    skipNewline (firstLineEnd text ++ first :: more) = first :: more := by
  unfold firstLineEnd
  by_cases hlines : '\n' ∈ text
  · rw [if_pos (by simpa using hlines)]
    rfl
  · have hne : first ≠ '\n' := fun h => hlines (hline h)
    rw [if_neg (by simpa using hlines)]
    simp [skipNewline, afterNewline?, hne, hreturn]

/-- A text of several lines with escapes is read from the quotes that open it. -/
theorem readString?_basicLines (text rest : List Char) :
    readString? (Quoting.basicLines.write text ++ '\n' :: rest) = some (text, '\n' :: rest) := by
  have hfirst : ∃ first more,
      escapeLines 0 text ++ '"' :: '"' :: '"' :: '\n' :: rest = first :: more ∧
        (first = '\n' → '\n' ∈ text) ∧ first ≠ '\r' := by
    cases text with
    | nil => exact ⟨'"', _, rfl, by simp, by simp⟩
    | cons c tail =>
      obtain ⟨first, more, hwritten, -, hline, hreturn⟩ := exists_escapeLines_eq_cons 0 c tail
      exact ⟨first, _, by rw [hwritten]; rfl, fun h => by simp [hline h], hreturn⟩
  obtain ⟨first, more, hwritten, hline, hreturn⟩ := hfirst
  have hread := readBasicLines_escapeLines 0 text rest
  rw [hwritten, ← skipNewline_firstLineEnd more hline hreturn, ← hwritten] at hread
  simpa [Quoting.write, readString?] using hread

/-- A text of several lines without escapes is read from the quotes that open it. -/
theorem readString?_literalLines {text : List Char} (htakes : Quoting.literalLines.Takes text)
    (rest : List Char) :
    readString? (Quoting.literalLines.write text ++ '\n' :: rest) = some (text, '\n' :: rest) := by
  have hfirst : ∃ first more,
      text ++ '\'' :: '\'' :: '\'' :: '\n' :: rest = first :: more ∧
        (first = '\n' → '\n' ∈ text) ∧ first ≠ '\r' := by
    cases text with
    | nil => exact ⟨'\'', _, rfl, by simp, by simp⟩
    | cons c tail =>
      refine ⟨c, _, rfl, fun h => by simp [h], ?_⟩
      rintro rfl
      exact absurd (htakes.2 _ List.mem_cons_self) (by decide)
  obtain ⟨first, more, hwritten, hline, hreturn⟩ := hfirst
  have hread := readLiteralLines_append htakes.1 htakes.2 rest
  rw [hwritten, ← skipNewline_firstLineEnd more hline hreturn, ← hwritten] at hread
  simpa [Quoting.write, readString?] using hread

/-- A text is read back from quotes that take it, at the end of a line. -/
theorem readString?_write {quoting : Quoting} {text : List Char} (htakes : quoting.Takes text)
    (rest : List Char) :
    readString? (quoting.write text ++ '\n' :: rest) = some (text, '\n' :: rest) := by
  cases quoting with
  | basic =>
    have hread := readBasic_flatMap_escapeChar text ('\n' :: rest)
    cases text with
    | nil => simp [Quoting.write, readString?, readBasic]
    | cons c tail =>
      obtain ⟨first, more, hfirst, hquote, -, -⟩ := (escaped_escapeChar c).head
      rw [List.flatMap_cons, hfirst] at hread
      simpa [Quoting.write, readString?, hfirst, hquote] using hread
  | literal =>
    have hread := readLiteral_append htakes ('\n' :: rest)
    cases text with
    | nil => simp [Quoting.write, readString?, readLiteral]
    | cons c tail =>
      have hquote : c ≠ '\'' := by
        rintro rfl
        exact absurd (htakes _ List.mem_cons_self) (by decide)
      simpa [Quoting.write, readString?, hquote] using hread
  | basicLines => exact readString?_basicLines text rest
  | literalLines => exact readString?_literalLines htakes rest

/-- Every string is read back at the end of a line. -/
theorem readString?_writeString (text : String) (rest : List Char) :
    readString? (writeString text ++ '\n' :: rest) = some (text.toList, '\n' :: rest) :=
  readString?_write (takes_ofText text.toList) rest

/-- What is written in quotes begins with a quote. -/
theorem exists_write_eq_quote (quoting : Quoting) (text : List Char) :
    ∃ more, quoting.write text = '"' :: more ∨ quoting.write text = '\'' :: more := by
  cases quoting with
  | basic => exact ⟨_, .inl rfl⟩
  | literal => exact ⟨_, .inr rfl⟩
  | basicLines => exact ⟨_, .inl rfl⟩
  | literalLines => exact ⟨_, .inr rfl⟩

end TranslitScheme.Toml
