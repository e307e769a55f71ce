import TranslitScheme.Proofs.Toml.Strings
import TranslitScheme.Toml.Reader
import Mathlib.Data.List.Forall2

/-!
# Written statements are read back

A document is written statement by statement, each on a line of its own, and a header below a blank
line. Reading takes one statement after the other from the front, so it is enough to show of each
that it is read whatever follows. `readStatements_of_written` puts them together. The bound on the
number of calls is the length of the text, of which every call takes at least one character.
-/

namespace TranslitScheme.Toml

/-! ### Keys -/

/-- A character that a written key may begin with. -/
def beginsKey (c : Char) : Bool := isBareChar c || c == '"' || c == '\''

/-- A written key begins with no space, no line end, no bracket and no comment sign. -/
theorem ne_of_beginsKey {c : Char} (h : beginsKey c = true) :
    isSpace c = false ∧ c ≠ '[' ∧ c ≠ '#' ∧ c ≠ '\n' ∧ c ≠ '\r' := by
  refine ⟨?_, ?_, ?_, ?_, ?_⟩
  · rw [← Bool.not_eq_true]
    intro hspace
    simp only [isSpace, Bool.or_eq_true, beq_iff_eq] at hspace
    rcases hspace with rfl | rfl <;> exact absurd h (by decide)
  all_goals
    rintro rfl
    exact absurd h (by decide)

/-- A key is written with at least one character. -/
theorem exists_writeKey_eq_cons (key : String) :
    ∃ first more, writeKey key = first :: more ∧ beginsKey first = true := by
  unfold writeKey
  split
  · next hbare =>
    obtain ⟨first, more, hkey⟩ : ∃ first more, key.toList = first :: more :=
      List.exists_cons_of_ne_nil (by simpa using hbare.1)
    have hfirst := List.all_eq_true.mp hbare.2 first (by simp [hkey])
    exact ⟨first, more, hkey, by simp [beginsKey, hfirst]⟩
  · obtain ⟨more, hwritten | hwritten⟩ :=
      exists_write_eq_quote (Quoting.ofKey key.toList) key.toList
    · exact ⟨'"', more, hwritten, by decide⟩
    · exact ⟨'\'', more, hwritten, by decide⟩

/-- A path begins like its first key. -/
theorem exists_writePath_eq_cons (path : List String) (name : String) :
    ∃ first more, ['.'].intercalate ((path ++ [name]).map writeKey) = first :: more ∧
      beginsKey first = true := by
  cases path with
  | nil =>
    rw [List.nil_append, List.map_singleton, List.intercalate_singleton]
    exact exists_writeKey_eq_cons name
  | cons key path =>
    obtain ⟨first, more, hkey, hfirst⟩ := exists_writeKey_eq_cons key
    have hne : (path ++ [name]).map writeKey ≠ [] := by simp
    rw [List.cons_append, List.map_cons, List.intercalate_cons_of_ne_nil hne, hkey]
    exact ⟨first, _, rfl, hfirst⟩

/-- A key in quotes is read back. -/
theorem readKeyPart_write {quoting : Quoting} {key : List Char}
    (hline : quoting = .basic ∨ quoting = .literal) (htakes : quoting.Takes key)
    (rest : List Char) :
    readKeyPart (quoting.write key ++ rest) = some (String.ofList key, rest) := by
  rcases hline with rfl | rfl
  · simp [Quoting.write, readKeyPart, readBasic_flatMap_escapeChar]
  · simp [Quoting.write, readKeyPart, readLiteral_append htakes]

/-- A key is read back before a character that cannot belong to it. -/
theorem readKeyPart_writeKey (key : String) {c : Char} (hc : isBareChar c = false)
    (rest : List Char) : readKeyPart (writeKey key ++ c :: rest) = some (key, c :: rest) := by
  unfold writeKey
  split
  · next hbare =>
    have hall := List.all_eq_true.mp hbare.2
    have htake : (key.toList ++ c :: rest).takeWhile isBareChar = key.toList := by
      rw [List.takeWhile_append_of_pos hall, List.takeWhile_cons_of_neg (by simp [hc]),
        List.append_nil]
    have hdrop : (key.toList ++ c :: rest).dropWhile isBareChar = c :: rest := by
      rw [List.dropWhile_append_of_pos hall, List.dropWhile_cons_of_neg (by simp [hc])]
    have hquote (quote : Char) (text : List Char) (hnot : isBareChar quote = false) :
        key.toList ++ c :: rest ≠ quote :: text := by
      obtain ⟨first, more, hkey⟩ : ∃ first more, key.toList = first :: more :=
        List.exists_cons_of_ne_nil (by simpa using hbare.1)
      intro heq
      rw [hkey, List.cons_append, List.cons.injEq] at heq
      have hfirst := hall first (by simp [hkey])
      rw [heq.1, hnot] at hfirst
      contradiction
    unfold readKeyPart
    split
    · next heq => exact absurd heq (hquote _ _ (by decide))
    · next heq => exact absurd heq (hquote _ _ (by decide))
    · rw [htake, hdrop]
      split
      · next hnil => exact absurd (String.toList_eq_nil_iff.mp hnil) hbare.1
      · rw [String.ofList_toList]
  · obtain ⟨hline, htakes⟩ := takes_ofKey key.toList
    rw [readKeyPart_write hline htakes, String.ofList_toList]

/-- Nothing is skipped in front of a key. -/
theorem skipSpaces_writeKey (key : String) (rest : List Char) :
    skipSpaces (writeKey key ++ rest) = writeKey key ++ rest := by
  obtain ⟨first, more, hkey, hfirst⟩ := exists_writeKey_eq_cons key
  rw [hkey, List.cons_append, skipSpaces, List.dropWhile_cons_of_neg]
  simp [(ne_of_beginsKey hfirst).1]

/-- The parts of a written key are read back, with nothing behind them that could belong to it. -/
theorem readKeyParts_write {c d : Char} {rest left : List Char} (hc : isBareChar c = false)
    (hskip : skipSpaces (c :: rest) = d :: left) (hd : d ≠ '.') (path : List String)
    (name : String) {bound : Nat} (hbound : path.length < bound) :
    readKeyParts bound (['.'].intercalate ((path ++ [name]).map writeKey) ++ c :: rest) =
      some (path ++ [name], d :: left) := by
  induction path generalizing bound with
  | nil =>
    obtain ⟨bound, rfl⟩ := Nat.exists_eq_add_one.mpr hbound
    simp [readKeyParts, skipSpaces_writeKey, readKeyPart_writeKey name hc, hskip, hd]
  | cons part path ih =>
    obtain ⟨bound, rfl⟩ := Nat.exists_eq_add_one.mpr (Nat.zero_lt_of_lt hbound)
    have hne : (path ++ [name]).map writeKey ≠ [] := by simp
    rw [List.cons_append, List.map_cons, List.intercalate_cons_of_ne_nil hne, List.append_assoc,
      List.append_assoc, readKeyParts, skipSpaces_writeKey]
    have hpoint (text : List Char) : skipSpaces ('.' :: text) = '.' :: text := rfl
    have hread := ih (Nat.lt_of_succ_lt_succ hbound)
    have hpart := readKeyPart_writeKey part (show isBareChar '.' = false by decide)
      (['.'].intercalate ((path ++ [name]).map writeKey) ++ c :: rest)
    rw [List.singleton_append, hpart, Option.bind_eq_bind, Option.bind_some]
    dsimp only
    rw [hpoint]
    change (readKeyParts bound _).bind _ = _
    rw [hread]
    rfl

/-- A written key is read back. -/
theorem readKey_write {c d : Char} {rest left : List Char} (hc : isBareChar c = false)
    (hskip : skipSpaces (c :: rest) = d :: left) (hd : d ≠ '.') {path : List String}
    (hpath : path.length + 1 < nestingLimit) (name : String) :
    readKey (['.'].intercalate ((path ++ [name]).map writeKey) ++ c :: rest) =
      some (⟨path, name⟩, d :: left) := by
  have hread := readKeyParts_write hc hskip hd path name (Nat.lt_of_succ_lt hpath)
  unfold readKey
  rw [hread]
  simp [hpath]

/-! ### Values -/

/-- A value is read back at the end of a line. -/
structure ReadsBack (value : Toml) (written : List Char) : Prop where
  read : ∀ bound rest,
    readValue (bound + 1) 0 (written ++ '\n' :: rest) = some (value, '\n' :: rest)
  head : ∀ rest, skipSpaces (written ++ rest) = written ++ rest

/-- A string is read back. -/
theorem readsBack_writeString (text : String) : ReadsBack (.str text) (writeString text) := by
  obtain ⟨more, hwritten⟩ := exists_write_eq_quote (Quoting.ofText text.toList) text.toList
  rw [← writeString] at hwritten
  constructor
  · intro bound rest
    have hread := readString?_writeString text rest
    rcases hwritten with hwritten | hwritten <;>
    · rw [hwritten, List.cons_append] at hread ⊢
      rw [readValue]
      simp [hread]
  · intro rest
    rcases hwritten with hwritten | hwritten <;>
    · rw [hwritten]
      rfl

/-- A truth value is read back. -/
theorem readsBack_writeBool (flag : Bool) : ReadsBack (.bool flag) (writeBool flag) where
  read bound rest := by cases flag <;> rfl
  head rest := by cases flag <;> rfl

/-! ### Statements -/

/-- How a statement is written on a line of its own. -/
inductive Written : Statement → List Char → Prop where
  | entry (key : String) {value : Toml} {written : List Char} (h : ReadsBack value written) :
    Written (.entry ⟨[], key⟩ value) (writeEntry key written)
  | header {path : List String} (h : path.length + 1 < nestingLimit) (name : String) :
    Written (.tableHeader ⟨path, name⟩) (writeHeader (path ++ [name]))

/-- An entry is read back. -/
theorem readStatement_writeEntry (key : String) {value : Toml} {written : List Char}
    (h : ReadsBack value written) (rest : List Char) :
    readStatement (writeEntry key written ++ rest) = some (.entry ⟨[], key⟩ value, rest) := by
  have hskip (text : List Char) : skipSpaces (' ' :: '=' :: text) = '=' :: text := rfl
  have hkey := readKey_write (by decide) (hskip (' ' :: (written ++ '\n' :: rest))) (by decide)
    (show ([] : List String).length + 1 < nestingLimit by decide) key
  obtain ⟨first, more, hwritten, hfirst⟩ := exists_writeKey_eq_cons key
  obtain ⟨-, hbracket, -⟩ := ne_of_beginsKey hfirst
  have htext : writeEntry key written ++ rest =
      writeKey key ++ ' ' :: '=' :: ' ' :: (written ++ '\n' :: rest) := by
    simp [writeEntry]
  rw [List.nil_append, List.map_singleton, List.intercalate_singleton] at hkey
  rw [hwritten, List.cons_append] at hkey htext
  have hvalue : skipSpaces (' ' :: (written ++ '\n' :: rest)) = written ++ '\n' :: rest :=
    h.head _
  have hread := h.read (2 * (' ' :: (written ++ '\n' :: rest)).length + 1) rest
  rw [htext, readStatement, hkey, Option.bind_eq_bind, Option.bind_some]
  · change (readValue _ 0 (skipSpaces (' ' :: (written ++ '\n' :: rest)))).bind _ = _
    rw [hvalue, hread]
    rfl
  · exact fun _ heq => hbracket (List.cons.inj heq).1
  · exact fun _ heq => hbracket (List.cons.inj heq).1

/-- The header of a table is read back, without the blank line before it. -/
theorem readStatement_writeHeader {path : List String} (h : path.length + 1 < nestingLimit)
    (name : String) (rest : List Char) :
    ∃ header, writeHeader (path ++ [name]) = '\n' :: '[' :: header ∧
      readStatement ('[' :: (header ++ rest)) = some (.tableHeader ⟨path, name⟩, rest) := by
  refine ⟨_, rfl, ?_⟩
  have hkey := readKey_write (show isBareChar ']' = false by decide)
    (show skipSpaces (']' :: '\n' :: rest) = ']' :: '\n' :: rest from rfl) (by decide) h name
  obtain ⟨first, more, hwritten, hfirst⟩ := exists_writePath_eq_cons path name
  obtain ⟨-, hbracket, -⟩ := ne_of_beginsKey hfirst
  rw [List.append_assoc, List.cons_append, List.cons_append, List.nil_append]
  rw [hwritten, List.cons_append] at hkey ⊢
  rw [readStatement, hkey, Option.bind_eq_bind, Option.bind_some]
  · rfl
  · exact fun _ heq => hbracket (List.cons.inj heq).1

/-! ### Documents -/

/-- A statement that is read from the front of a document is the first one. -/
theorem readStatements_of_readStatement {c : Char} {text left : List Char} {statement : Statement}
    (hspace : isSpace c = false) (hcomment : c ≠ '#') (hline : c ≠ '\n') (hreturn : c ≠ '\r')
    (h : readStatement (c :: text) = some (statement, left)) (bound : Nat) :
    readStatements (bound + 1) (c :: text) = (readStatements bound left).map (statement :: ·) := by
  have hskip : skipSpaces (c :: text) = c :: text := List.dropWhile_cons_of_neg (by simp [hspace])
  rw [readStatements, hskip]
  split
  · next heq => contradiction
  · next heq => exact absurd (List.cons.inj heq).1 hcomment
  · next heq => exact absurd (List.cons.inj heq).1 hline
  · next heq => exact absurd (List.cons.inj heq).1 hreturn
  · rw [h, Option.bind_eq_bind, Option.bind_some]
    dsimp only
    cases readStatements bound left <;> rfl

/-- A written statement is the first that is read, in as many calls as it has characters at most. -/
theorem Written.readStatements {statement : Statement} {line : List Char}
    (h : Written statement line) (rest : List Char) :
    ∃ calls ≤ line.length, ∀ bound,
      readStatements (bound + calls) (line ++ rest) =
        (readStatements bound rest).map (statement :: ·) := by
  cases h with
  | entry key hvalue =>
    rename_i value written
    have hread := readStatement_writeEntry key hvalue rest
    obtain ⟨first, more, hwritten, hfirst⟩ := exists_writeKey_eq_cons key
    obtain ⟨hspace, -, hcomment, hline, hreturn⟩ := ne_of_beginsKey hfirst
    rw [writeEntry, hwritten, List.cons_append] at hread ⊢
    exact ⟨1, by simp, readStatements_of_readStatement hspace hcomment hline hreturn hread⟩
  | header hpath name =>
    rename_i path
    obtain ⟨header, hwritten, hread⟩ := readStatement_writeHeader hpath name rest
    rw [hwritten]
    refine ⟨2, by simp, fun bound => ?_⟩
    -- the first call takes the blank line
    exact readStatements_of_readStatement (by decide) (by decide) (by decide) (by decide) hread
      bound

/-- A document is read back, given a bound above its length. -/
theorem readStatements_of_written {statements : List Statement} {lines : List (List Char)}
    (h : List.Forall₂ Written statements lines) {bound : Nat}
    (hbound : lines.flatten.length < bound) :
    readStatements bound lines.flatten = some statements := by
  induction h generalizing bound with
  | nil =>
    obtain ⟨bound, rfl⟩ := Nat.exists_eq_add_one.mpr hbound
    rfl
  | cons hline hrest ih =>
    rename_i statement line statements lines
    rw [List.flatten_cons] at hbound ⊢
    rw [List.length_append] at hbound
    obtain ⟨calls, hcalls, hread⟩ := hline.readStatements lines.flatten
    obtain ⟨bound, rfl⟩ := Nat.exists_eq_add_of_le' (show calls ≤ bound by omega)
    rw [hread, ih (by omega)]
    rfl

end TranslitScheme.Toml
