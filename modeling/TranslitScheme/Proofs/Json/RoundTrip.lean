import TranslitScheme.Proofs.Json.Scalar

/-!
# Written values are read back

Every value that has a JSON form is what its text is read as, however the text is laid out, as
long as nothing but blanks stands in the gaps. The text may go on with anything that can stand
after a value, which is what lets the elements of a container be read one after the other.

The readers carry a bound on the number of calls. The length of the written text is enough,
since every call is for a part of the text that starts with a character of its own.
-/

namespace TranslitScheme.Json

/-- A value has a JSON form when no part of it is unsupported. -/
inductive HasForm : Json → Prop where
  | null : HasForm .null
  | bool (flag : Bool) : HasForm (.bool flag)
  | int (number : Int) : HasForm (.int number)
  | str (text : String) : HasForm (.str text)
  | arr (items : List Json) (hitems : ∀ item ∈ items, HasForm item) : HasForm (.arr items)
  | obj (members : List (String × Json)) (hmembers : ∀ member ∈ members, HasForm member.2) :
      HasForm (.obj members)

/-- Nothing but blanks stands in the gaps of a layout. -/
structure Layout.IsBlank (layout : Layout) : Prop where
  afterColon : ∀ c ∈ layout.afterColon, isBlank c = true
  gap : ∀ depth, ∀ c ∈ layout.gap depth, isBlank c = true

/-- The gaps of the indented text are line breaks and spaces. -/
theorem indentedLayout_isBlank : indentedLayout.IsBlank where
  afterColon := by simp [indentedLayout, isBlank]
  gap := by simp [indentedLayout, isBlank]

/-! ### Where a text ends and starts -/

/-- Blanks are skipped. -/
theorem skipBlanks_append {front : List Char} (hfront : ∀ c ∈ front, isBlank c = true)
    (rest : List Char) : skipBlanks (front ++ rest) = skipBlanks rest :=
  List.dropWhile_append_of_pos hfront

/-- Nothing is skipped in front of another character. -/
theorem skipBlanks_cons {c : Char} (hc : isBlank c = false) (rest : List Char) :
    skipBlanks (c :: rest) = c :: rest := by
  simp [skipBlanks, hc]

/-- Nothing more is a place where a value may end. -/
theorem ends_nil : Ends [] := by
  simp [Ends]

/-- A value may end before a comma, a bracket or a brace, also with blanks in between. -/
theorem ends_append {front : List Char} (hfront : ∀ c ∈ front, isBlank c = true) {c : Char}
    (hc : c = ',' ∨ c = ']' ∨ c = '\x7d') (rest : List Char) : Ends (front ++ c :: rest) := by
  cases front with
  | nil => simpa [Ends] using Or.inr hc
  | cons blank front => simpa [Ends] using Or.inl (hfront blank (by simp))

/-- The text of a value starts with neither a blank nor a closing bracket. -/
theorem exists_write_eq_cons (layout : Layout) (depth : Nat) (value : Json) :
    ∃ c more, write layout depth value = c :: more ∧ isBlank c = false ∧ c ≠ ']' := by
  cases value with
  | int number =>
    obtain ⟨c, more, hwrite, hc⟩ := exists_writeInt_eq_cons number
    refine ⟨c, more, by rw [write, hwrite], ?_⟩
    cases hc with
    | inl hdigit =>
      have hbracket : c ≠ ']' := by
        rintro rfl
        exact absurd hdigit (by decide)
      exact ⟨isBlank_eq_false_of_isDigit hdigit, hbracket⟩
    | inr hminus =>
      subst hminus
      exact ⟨by decide, by decide⟩
  | bool flag => cases flag <;> exact ⟨_, _, rfl, by decide, by decide⟩
  | arr items => cases items <;> exact ⟨'[', _, by rw [write], by decide, by decide⟩
  | obj members => cases members <;> exact ⟨'\x7b', _, by rw [write], by decide, by decide⟩
  | _ => exact ⟨_, _, rfl, by decide, by decide⟩

/-- No blanks are skipped in front of a value. -/
theorem skipBlanks_write (layout : Layout) (depth : Nat) (value : Json) (rest : List Char) :
    skipBlanks (write layout depth value ++ rest) = write layout depth value ++ rest := by
  obtain ⟨c, more, hwrite, hblank, -⟩ := exists_write_eq_cons layout depth value
  rw [hwrite, List.cons_append, skipBlanks_cons hblank]

/-- No blanks are skipped in front of a string. -/
theorem skipBlanks_writeString (text : String) (rest : List Char) :
    skipBlanks (writeString text ++ rest) = writeString text ++ rest :=
  skipBlanks_cons (by decide) _

/-! ### Elements and members -/

/-- A value is read back from its text, whatever follows it. -/
def ReadsBack (layout : Layout) (value : Json) : Prop :=
  ∀ depth bound rest, Ends rest → (write layout depth value).length ≤ bound →
    readValue bound (write layout depth value ++ rest) = some (value, rest)

variable {layout : Layout}

section Containers

variable (hlayout : layout.IsBlank)

include hlayout

/-- An element may end before the elements that follow it. -/
theorem ends_writeItems (depth outer : Nat) (items : List Json) (rest : List Char) :
    Ends (writeItems layout depth items ++ (layout.gap outer ++ ']' :: rest)) := by
  cases items with
  | nil => exact ends_append (hlayout.gap outer) (by simp) rest
  | cons item items => simp [writeItems, Ends]

/-- A member may end before the members that follow it. -/
theorem ends_writeMembers (depth outer : Nat) (members : List (String × Json))
    (rest : List Char) :
    Ends (writeMembers layout depth members ++ (layout.gap outer ++ '\x7d' :: rest)) := by
  cases members with
  | nil => exact ends_append (hlayout.gap outer) (by simp) rest
  | cons member members => simp [writeMembers, Ends]

/-- Behind an element that was read, the elements that were written after it are read. -/
theorem readItems_of_readValue (items : List Json)
    (hitems : ∀ item ∈ items, ReadsBack layout item) (depth outer bound : Nat) (item : Json)
    (front rest : List Char) (hbound : (writeItems layout depth items).length ≤ bound)
    (hfront : readValue bound front =
      some (item, writeItems layout depth items ++ (layout.gap outer ++ ']' :: rest))) :
    readItems (bound + 1) front = some (item :: items, rest) := by
  induction items generalizing item front bound with
  | nil =>
    rw [readItems, hfront]
    simp [writeItems, skipBlanks_append (hlayout.gap outer), skipBlanks_cons, isBlank]
  | cons next items ih =>
    rw [List.forall_mem_cons] at hitems
    simp only [writeItems, List.length_cons, List.length_append] at hbound
    obtain ⟨bound, rfl⟩ : ∃ less, bound = less + 1 := ⟨bound - 1, by omega⟩
    have hnext := hitems.1 depth bound _ (ends_writeItems hlayout depth outer items rest) (by omega)
    have htail := ih hitems.2 bound next _ (by omega) hnext
    rw [readItems, hfront]
    simp [writeItems, skipBlanks_append (hlayout.gap depth), skipBlanks_write, skipBlanks_cons,
      isBlank, htail]

/-- Behind a member that was read, the members that were written after it are read. -/
theorem readMembers_of_readValue (members : List (String × Json))
    (hmembers : ∀ member ∈ members, ReadsBack layout member.2) (depth outer bound : Nat)
    (name : String) (value : Json) (front rest : List Char)
    (hbound : (writeMembers layout depth members).length ≤ bound)
    (hfront : readValue bound (skipBlanks front) =
      some (value, writeMembers layout depth members ++ (layout.gap outer ++ '\x7d' :: rest))) :
    readMembers (bound + 1) (writeString name ++ ':' :: front) =
      some (some ((name, value) :: members), rest) := by
  induction members generalizing name value front bound with
  | nil =>
    simp [readMembers, writeString, readString_writeString, skipBlanks_cons, isBlank, hfront,
      writeMembers, skipBlanks_append (hlayout.gap outer)]
  | cons next members ih =>
    obtain ⟨nextName, next⟩ := next
    rw [List.forall_mem_cons] at hmembers
    simp only [writeMembers, List.length_cons, List.length_append] at hbound
    obtain ⟨bound, rfl⟩ : ∃ less, bound = less + 1 := ⟨bound - 1, by omega⟩
    have hnext : ReadsBack layout next := hmembers.1
    have hread := hnext depth bound _ (ends_writeMembers hlayout depth outer members rest)
      (by omega)
    have htail := ih hmembers.2 bound nextName next
      (layout.afterColon ++ (write layout depth next ++
        (writeMembers layout depth members ++ (layout.gap outer ++ '\x7d' :: rest)))) (by omega)
      (by rw [skipBlanks_append hlayout.afterColon, skipBlanks_write, hread])
    rw [writeString, List.cons_append, List.append_assoc, readMembers, List.singleton_append,
      readString_writeString]
    simp [skipBlanks_cons, isBlank, hfront, writeMembers, skipBlanks_append (hlayout.gap depth),
      skipBlanks_writeString, htail]

end Containers

/-! ### Values -/

/-- A text that starts like a number is read as one. -/
theorem readValue_of_isDigit {c : Char} (hc : c.isDigit = true ∨ c = '-') (bound : Nat)
    (text : List Char) : readValue (bound + 1) (c :: text) = readNumber (c :: text) := by
  rw [readValue]
  all_goals
    rintro _ heq
    cases heq
    revert hc
    decide

/-- A value is read back when it is read back by every reader that may make a call at all. -/
theorem ReadsBack.of_succ {value : Json}
    (hread : ∀ depth bound rest, Ends rest → (write layout depth value).length ≤ bound + 1 →
      readValue (bound + 1) (write layout depth value ++ rest) = some (value, rest)) :
    ReadsBack layout value := by
  intro depth bound rest hends hbound
  cases bound with
  | zero =>
    obtain ⟨c, more, hwrite, -⟩ := exists_write_eq_cons layout depth value
    simp [hwrite] at hbound
  | succ bound => exact hread depth bound rest hends hbound

/-- An integer is read back. -/
theorem readsBack_int (number : Int) : ReadsBack layout (.int number) := by
  apply ReadsBack.of_succ
  intro depth bound rest hends hbound
  obtain ⟨c, more, hwrite, hc⟩ := exists_writeInt_eq_cons number
  have hread := readNumber_writeInt number hends
  rw [hwrite] at hread
  rw [write, hwrite, List.cons_append, readValue_of_isDigit hc, ← List.cons_append, hread]

/-- A string is read back. -/
theorem readsBack_str (text : String) : ReadsBack layout (.str text) := by
  apply ReadsBack.of_succ
  intro depth bound rest hends hbound
  rw [write, writeString, List.cons_append, List.append_assoc, List.singleton_append, readValue,
    readString_writeString]
  rfl

/-- An array is read back when its elements are. -/
theorem readsBack_arr (hlayout : layout.IsBlank) (items : List Json)
    (hitems : ∀ item ∈ items, ReadsBack layout item) : ReadsBack layout (.arr items) := by
  apply ReadsBack.of_succ
  intro depth bound rest hends hbound
  cases items with
  | nil => simp [write, readValue, skipBlanks_cons, isBlank]
  | cons item items =>
    rw [List.forall_mem_cons] at hitems
    simp only [write, List.length_cons, List.length_append, List.length_nil] at hbound
    obtain ⟨bound, rfl⟩ : ∃ less, bound = less + 1 := ⟨bound - 1, by omega⟩
    have hitem := hitems.1 (depth + 1) bound _
      (ends_writeItems hlayout (depth + 1) depth items rest) (by omega)
    have hall := readItems_of_readValue hlayout items hitems.2 (depth + 1) depth bound item _ rest
      (by omega) hitem
    obtain ⟨c, more, hwrite, hblank, hbracket⟩ := exists_write_eq_cons layout (depth + 1) item
    simp only [write, readValue, List.cons_append, List.append_assoc, List.nil_append,
      skipBlanks_append (hlayout.gap (depth + 1)), skipBlanks_write]
    split
    · next heq =>
      rw [hwrite, List.cons_append] at heq
      exact absurd (List.cons.inj heq).1 hbracket
    · rw [hall, Option.map_some]

/-- An object is read back when its members are. -/
theorem readsBack_obj (hlayout : layout.IsBlank) (members : List (String × Json))
    (hmembers : ∀ member ∈ members, ReadsBack layout member.2) :
    ReadsBack layout (.obj members) := by
  apply ReadsBack.of_succ
  intro depth bound rest hends hbound
  cases members with
  | nil => simp [write, readValue, skipBlanks_cons, isBlank]
  | cons member members =>
    obtain ⟨name, value⟩ := member
    rw [List.forall_mem_cons] at hmembers
    simp only [write, List.length_cons, List.length_append, List.length_nil] at hbound
    obtain ⟨bound, rfl⟩ : ∃ less, bound = less + 1 := ⟨bound - 1, by omega⟩
    have hvalue : ReadsBack layout value := hmembers.1
    have hread := hvalue (depth + 1) bound _
      (ends_writeMembers hlayout (depth + 1) depth members rest) (by omega)
    have hall := readMembers_of_readValue hlayout members hmembers.2 (depth + 1) depth bound name
      value (layout.afterColon ++ (write layout (depth + 1) value ++
        (writeMembers layout (depth + 1) members ++ (layout.gap depth ++ '\x7d' :: rest))))
      rest (by omega) (by rw [skipBlanks_append hlayout.afterColon, skipBlanks_write, hread])
    simp only [write, readValue, List.cons_append, List.append_assoc, List.nil_append,
      skipBlanks_append (hlayout.gap (depth + 1)), skipBlanks_writeString]
    split
    · next heq => exact absurd (List.cons.inj heq).1 (by decide)
    · rw [hall, Option.map_some, ofMembers]

/-- Every value that has a JSON form is read back from its text. -/
theorem HasForm.readsBack (hlayout : layout.IsBlank) {value : Json} (hform : value.HasForm) :
    ReadsBack layout value := by
  induction hform with
  | null => exact .of_succ fun _ _ _ _ _ => rfl
  | bool flag => cases flag <;> exact .of_succ fun _ _ _ _ _ => rfl
  | int number => exact readsBack_int number
  | str text => exact readsBack_str text
  | arr items hitems ih => exact readsBack_arr hlayout items ih
  | obj members hmembers ih => exact readsBack_obj hlayout members ih

/-- A value that has a JSON form is what any of its texts describes. -/
theorem HasForm.parse?_write {layout : Layout} (hlayout : layout.IsBlank) {value : Json}
    (hform : value.HasForm) :
    parse? (String.ofList (write layout 0 value)) = some value := by
  have hread := hform.readsBack hlayout 0 (2 * (write layout 0 value).length + 2) [] ends_nil
    (by omega)
  have hskip := skipBlanks_write layout 0 value []
  rw [List.append_nil] at hread hskip
  simp only [parse?, String.toList_ofList, hskip, hread]
  rfl

/-- The indented text of a value describes the value. -/
theorem HasForm.parse?_pretty {value : Json} (hform : value.HasForm) :
    parse? value.pretty = some value :=
  hform.parse?_write indentedLayout_isBlank

end TranslitScheme.Json
