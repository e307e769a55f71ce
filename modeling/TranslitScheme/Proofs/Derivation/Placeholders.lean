import TranslitScheme.Derivation.Template

/-!
# Placeholders that are filled in one after the other

The values of a token are put into a text in three scans, one for each placeholder, and a later scan
reads what an earlier one has put in. `fill` is the single scan in which the template alone is read
and all placeholders are replaced at once.

Both give the same text when no value completes a placeholder of a later slot, be it by itself or
together with the text around it: `fill_fill` says so for two scans. For a token without third value
the condition is exact. A token whose first value is a placeholder that was left standing for a
blank slot does not meet it.
-/

namespace TranslitScheme.Template

/-- What is put in for a placeholder, by the digit behind its star. Other placeholders stay. -/
abbrev Slots := Char → Option (List Char)

/-- Put texts in for placeholders, in one scan from left to right. What is put in is not read. -/
def fill (slots : Slots) : List Char → List Char
  | '*' :: digit :: rest =>
    match slots digit with
    | some value => value ++ fill slots rest
    | none => '*' :: fill slots (digit :: rest)
  | letter :: rest => letter :: fill slots rest
  | [] => []

/-- The slots of a token. The later ones have no text when their values are blank. -/
def slots (token : Token) : Slots
  | '1' => some token.value1.toList
  | '2' => if token.value2 = "" then none else some token.value2.toList
  | '3' => if token.value3 = "" then none else some token.value3.toList
  | _ => none

/-- Put the values of a token into a text, all of them at once. -/
def fillIn (text : String) (token : Token) : String :=
  String.ofList (fill (slots token) text.toList)

/-- A value between a star and a digit shows the placeholder of that digit: it contains it, ends in
a star, starts with the digit, or is blank. -/
def Completes (digit : Char) (value : List Char) : Prop :=
  ['*', digit] <:+: '*' :: (value ++ [digit])

instance (digit : Char) (value : List Char) : Decidable (Completes digit value) :=
  inferInstanceAs (Decidable (['*', digit] <:+: '*' :: (value ++ [digit])))

variable {first later : Slots} {digit : Char} {value rest : List Char}

/-- A placeholder is replaced. -/
theorem fill_placeholder (h : first digit = some value) :
    fill first ('*' :: digit :: rest) = value ++ fill first rest := by
  rw [fill, h]

/-- A star stays that is not part of a placeholder. -/
theorem fill_star (h : ∀ digit, rest.head? = some digit → first digit = none) :
    fill first ('*' :: rest) = '*' :: fill first rest := by
  cases rest with
  | nil => rfl
  | cons digit rest => rw [fill, h digit rfl]

/-- A letter stays that is no star with a letter behind it. -/
theorem fill_last {letter : Char}
    (h : ∀ digit others, letter = '*' → rest = digit :: others → False) :
    fill first (letter :: rest) = letter :: fill first rest := by
  rw [fill]
  exact h

/-- A letter stays that is no star. -/
theorem fill_letter {letter : Char} (h : letter ≠ '*') :
    fill first (letter :: rest) = letter :: fill first rest :=
  fill_last fun _ _ hstar _ => h hstar

/-- The slots of two scans together. A placeholder that both replace is the first one's. -/
def both (first later : Slots) : Slots := fun digit => (first digit).or (later digit)

/-- The placeholders that a value completes are not replaced. -/
def Inert (later : Slots) (value : List Char) : Prop :=
  ∀ digit, Completes digit value → later digit = none

/-- A value completes the placeholder of the digit that it, or the text behind it, begins with. -/
theorem completes_head (hhead : (value ++ rest).head? = some digit) : Completes digit value := by
  cases value with
  | nil => exact ⟨[], [], rfl⟩
  | cons letter value =>
    obtain rfl := Option.some.inj hhead
    exact ⟨[], value ++ [letter], rfl⟩

/-- With an inert value behind a star, the star is not part of a placeholder that is replaced. -/
theorem Inert.head (h : Inert later value) :
    ∀ digit, (value ++ rest).head? = some digit → later digit = none :=
  fun digit hhead => h digit (completes_head hhead)

/-- An inert value is passed over by a scan. -/
theorem Inert.fill_append (h : Inert later value) :
    fill later (value ++ rest) = value ++ fill later rest := by
  -- The star in front of the value is of no use here: the induction drops it.
  have hpass : ∀ value : List Char,
      (∀ digit, ['*', digit] <:+: value ++ [digit] → later digit = none) →
      fill later (value ++ rest) = value ++ fill later rest := by
    intro value hvalue
    induction value with
    | nil => rfl
    | cons letter value ih =>
      have hrest := ih fun digit hwithin => hvalue digit (hwithin.trans ⟨[letter], [], by simp⟩)
      rw [List.cons_append, List.cons_append, ← hrest]
      by_cases hstar : letter = '*'
      · subst hstar
        exact fill_star fun digit hhead => hvalue digit (completes_head hhead)
      · exact fill_letter hstar
  exact hpass value fun digit hwithin => h digit (hwithin.trans ⟨['*'], [], by simp⟩)

/-- A scan that puts in inert values does not bring a digit to the front, so that a star before
the text goes on being no placeholder. -/
theorem head_fill (hinert : ∀ digit value, first digit = some value → Inert later value)
    (hdigit : later digit = none) :
    ∀ next, (fill first (digit :: rest)).head? = some next → later next = none := by
  intro next hnext
  by_cases hstar : digit = '*'
  · subst hstar
    cases rest with
    | nil =>
      obtain rfl := Option.some.inj hnext
      exact hdigit
    | cons following rest =>
      cases hvalue : first following with
      | some value =>
        rw [fill_placeholder hvalue] at hnext
        exact (hinert following value hvalue).head next hnext
      | none =>
        rw [fill_star fun _ hhead => Option.some.inj hhead ▸ hvalue] at hnext
        obtain rfl := Option.some.inj hnext
        exact hdigit
  · rw [fill_letter hstar] at hnext
    obtain rfl := Option.some.inj hnext
    exact hdigit

/-- Two scans replace what one scan would replace, when the later one cannot find placeholders in
what the first one has put in. -/
theorem fill_fill (hlater : later '*' = none)
    (hinert : ∀ digit value, first digit = some value → Inert later value) (text : List Char) :
    fill later (fill first text) = fill (both first later) text := by
  induction text using fill.induct first with
  | case1 digit rest value hvalue ih =>
    have hboth : both first later digit = some value := by rw [both, hvalue]; rfl
    rw [fill_placeholder hvalue, (hinert digit value hvalue).fill_append,
      fill_placeholder hboth, ih]
  | case2 digit rest hnone ih =>
    have hboth : both first later digit = later digit := by rw [both, hnone]; rfl
    have hfilled : fill first ('*' :: digit :: rest) = '*' :: fill first (digit :: rest) :=
      fill_star fun _ hhead => Option.some.inj hhead ▸ hnone
    rw [hfilled]
    cases hdigit : later digit with
    | none =>
      rw [fill_star (head_fill hinert hdigit), ih]
      exact (fill_star fun _ hhead => Option.some.inj hhead ▸ hboth.trans hdigit).symm
    | some value =>
      -- The digit of a later slot is still there for the later scan.
      have hletter : digit ≠ '*' := by
        rintro rfl
        rw [hlater] at hdigit
        contradiction
      rw [fill_letter hletter] at ih ⊢
      rw [fill_letter hletter, fill_letter hletter] at ih
      rw [fill_placeholder hdigit, fill_placeholder (hboth.trans hdigit),
        List.tail_eq_of_cons_eq ih]
  | case3 letter rest hletter ih =>
    by_cases hstar : letter = '*'
    · subst hstar
      cases rest with
      | nil => rfl
      | cons digit rest => exact (hletter digit rest rfl rfl).elim
    · rw [fill_letter hstar, fill_letter hstar, fill_letter hstar, ih]
  | case4 => rfl

/-- The slot of one digit. -/
def slot (digit : Char) (value : List Char) : Slots :=
  fun other => if other = digit then some value else none

/-- A slot puts in its text for its digit, and nothing else. -/
theorem of_slot {other : Char} {put : List Char} (h : slot digit value other = some put) :
    other = digit ∧ put = value := by
  unfold slot at h
  split at h
  · rename_i hdigit
    exact ⟨hdigit, (Option.some.inj h).symm⟩
  · contradiction

/-- Replacing all occurrences of a placeholder is a scan that replaces nothing else. -/
theorem scanReplacing_eq_fill (digit : Char) (value text : List Char) :
    Text.scanReplacing ['*', digit] value 0 text = fill (slot digit value) text := by
  induction text using fill.induct (slot digit value) with
  | case1 other rest put hput ih =>
    obtain ⟨rfl, rfl⟩ := of_slot hput
    rw [fill_placeholder hput, ← ih]
    simp [Text.scanReplacing, List.isPrefixOf]
  | case2 other rest hnone ih =>
    have hother : digit ≠ other := by
      rintro rfl
      simp [slot] at hnone
    rw [fill_star fun _ hhead => Option.some.inj hhead ▸ hnone, ← ih]
    simp [Text.scanReplacing, List.isPrefixOf, hother]
  | case3 letter rest hletter ih =>
    by_cases hstar : letter = '*'
    · subst hstar
      cases rest with
      | nil => rfl
      | cons digit rest => exact (hletter digit rest rfl rfl).elim
    · rw [fill_letter hstar, ← ih]
      simp [Text.scanReplacing, List.isPrefixOf, Ne.symm hstar]
  | case4 => rfl

/-- Replacing a placeholder, as a scan. -/
theorem replaceAll_eq {placeholder : String} (digit : Char) (value text : String)
    (h : placeholder.toList = ['*', digit]) :
    Text.replaceAll placeholder value text =
      String.ofList (fill (slot digit value.toList) text.toList) := by
  have hne : placeholder ≠ "" := by
    rintro rfl
    contradiction
  rw [Text.replaceAll, if_neg hne, h, scanReplacing_eq_fill]

/-- A scan without slots changes nothing. -/
theorem fill_none (text : List Char) : fill (fun _ => none) text = text := by
  induction text with
  | nil => rfl
  | cons letter rest ih =>
    by_cases hstar : letter = '*'
    · subst hstar
      rw [fill_star fun _ _ => rfl, ih]
    · rw [fill_letter hstar, ih]

/-- The slot of one digit, if there is something to put in. -/
def laterSlot (digit : Char) (value : String) : Slots :=
  if value = "" then fun _ => none else slot digit value.toList

/-- Filling a slot, as a scan. -/
theorem fillSlot_eq {placeholder : String} (digit : Char) (value text : String)
    (h : placeholder.toList = ['*', digit]) :
    fillSlot placeholder value text =
      String.ofList (fill (laterSlot digit value) text.toList) := by
  unfold fillSlot laterSlot
  split
  · rw [fill_none, String.ofList_toList]
  · exact replaceAll_eq digit value text h

/-- Expanding a text, as three scans. -/
theorem expandText_eq (text : String) (token : Token) :
    expandText text token =
      String.ofList (fill (laterSlot '3' token.value3) (fill (laterSlot '2' token.value2)
        (fill (slot '1' token.value1.toList) text.toList))) := by
  rw [expandText, fillSlot_eq '3' _ _ rfl, fillSlot_eq '2' _ _ rfl, replaceAll_eq '1' _ _ rfl,
    String.toList_ofList, String.toList_ofList]

/-- The slots of a token are those of the three scans. -/
theorem slots_eq (token : Token) :
    slots token = both (both (slot '1' token.value1.toList) (laterSlot '2' token.value2))
      (laterSlot '3' token.value3) := by
  funext digit
  unfold slots
  split
  · rfl
  · by_cases hsecond : token.value2 = "" <;> by_cases hthird : token.value3 = "" <;>
      simp [both, laterSlot, slot, hsecond, hthird]
  · by_cases hsecond : token.value2 = "" <;> by_cases hthird : token.value3 = "" <;>
      simp [both, laterSlot, slot, hsecond, hthird]
  · rename_i hone htwo hthree
    by_cases hsecond : token.value2 = "" <;> by_cases hthird : token.value3 = "" <;>
      simp_all [both, laterSlot, slot]

/-- No value of a token completes a placeholder that is filled in after it. -/
structure InertValues (token : Token) : Prop where
  first_second : token.value2 ≠ "" → ¬ Completes '2' token.value1.toList
  first_third : token.value3 ≠ "" → ¬ Completes '3' token.value1.toList
  second_third : token.value2 ≠ "" → token.value3 ≠ "" → ¬ Completes '3' token.value2.toList

/-- A value is inert for a later slot unless it completes its placeholder. -/
theorem inert_laterSlot {text : String} (h : text ≠ "" → ¬ Completes digit value) :
    Inert (laterSlot digit text) value := by
  intro other hcompletes
  by_cases htext : text = ""
  · rw [laterSlot, if_pos htext]
  · rw [laterSlot, if_neg htext]
    refine if_neg fun hother => h htext ?_
    rwa [hother] at hcompletes

/-- A star is no digit of a later slot. -/
theorem laterSlot_star (hdigit : digit ≠ '*') (text : String) :
    laterSlot digit text '*' = none := by
  by_cases htext : text = ""
  · rw [laterSlot, if_pos htext]
  · rw [laterSlot, if_neg htext]
    exact if_neg hdigit.symm

/-- Values that are inert are put in as if all at once. -/
theorem expandText_of_inert {token : Token} (h : InertValues token) (text : String) :
    expandText text token = fillIn text token := by
  have hone : ∀ digit put, slot '1' token.value1.toList digit = some put →
      Inert (laterSlot '2' token.value2) put :=
    fun _ _ hput => (of_slot hput).2 ▸ inert_laterSlot h.first_second
  have htwo : ∀ digit put,
      both (slot '1' token.value1.toList) (laterSlot '2' token.value2) digit = some put →
      Inert (laterSlot '3' token.value3) put := by
    intro digit put hput
    rcases Option.or_eq_some_iff.mp hput with hfirst | ⟨-, hsecond⟩
    · exact (of_slot hfirst).2 ▸ inert_laterSlot h.first_third
    · by_cases hblank : token.value2 = ""
      · simp [laterSlot, hblank] at hsecond
      · rw [laterSlot, if_neg hblank] at hsecond
        exact (of_slot hsecond).2 ▸ inert_laterSlot (h.second_third hblank)
  rw [expandText_eq, fill_fill (laterSlot_star (by decide) _) hone,
    fill_fill (laterSlot_star (by decide) _) htwo, ← slots_eq, fillIn]

/-- How the length of a text changes with each replacement. -/
theorem exists_length_fill (digit : Char) (value text : List Char) :
    ∃ count, (fill (slot digit value) text).length + 2 * count =
      text.length + value.length * count := by
  induction text using fill.induct (slot digit value) with
  | case1 other rest put hput ih =>
    obtain ⟨count, hcount⟩ := ih
    refine ⟨count + 1, ?_⟩
    rw [fill_placeholder hput, (of_slot hput).2]
    simp only [List.length_append, List.length_cons, Nat.mul_add]
    omega
  | case2 other rest hnone ih =>
    obtain ⟨count, hcount⟩ := ih
    refine ⟨count, ?_⟩
    rw [fill_star fun _ hhead => Option.some.inj hhead ▸ hnone]
    simp only [List.length_cons] at hcount ⊢
    omega
  | case3 letter rest hletter ih =>
    obtain ⟨count, hcount⟩ := ih
    refine ⟨count, ?_⟩
    rw [fill_last hletter]
    simp only [List.length_cons]
    omega
  | case4 => exact ⟨0, rfl⟩

/-- A scan changes a text with its placeholder in it, unless it puts in the placeholder itself. -/
theorem eq_of_fill_eq_self {text : List Char} (hfill : fill (slot digit value) text = text)
    (hwithin : ['*', digit] <:+: text) : value = ['*', digit] := by
  induction text using fill.induct (slot digit value) with
  | case1 other rest put hput ih =>
    obtain ⟨rfl, rfl⟩ := of_slot hput
    rw [fill_placeholder hput] at hfill
    -- A scan makes the rest longer or leaves its length when the value is longer than the
    -- placeholder, and shorter when it is shorter.
    have hlength : put.length = 2 := by
      obtain ⟨count, hcount⟩ := exists_length_fill other put rest
      have hsum := congrArg List.length hfill
      simp only [List.length_append, List.length_cons] at hsum
      rcases Nat.lt_trichotomy put.length 2 with hless | heq | hmore
      · have := Nat.mul_le_mul_right count (Nat.le_of_lt hless)
        omega
      · exact heq
      · have := Nat.mul_le_mul_right count (Nat.le_of_lt hmore)
        omega
    have happend : put ++ fill (slot other put) rest = ['*', other] ++ rest := hfill
    exact (List.append_inj happend hlength).1
  | case2 other rest hnone ih =>
    rw [fill_star fun _ hhead => Option.some.inj hhead ▸ hnone] at hfill
    refine ih (List.tail_eq_of_cons_eq hfill) ?_
    rcases List.infix_cons_iff.mp hwithin with hstart | hinner
    · obtain ⟨-, hdigit⟩ := List.cons_prefix_cons.mp hstart
      obtain ⟨rfl, -⟩ := List.cons_prefix_cons.mp hdigit
      simp [slot] at hnone
    · exact hinner
  | case3 letter rest hletter ih =>
    rw [fill_last hletter] at hfill
    refine ih (List.tail_eq_of_cons_eq hfill) ?_
    rcases List.infix_cons_iff.mp hwithin with hstart | hinner
    · obtain ⟨rfl, others, hrest⟩ := List.cons_prefix_cons.mp hstart
      exact (hletter digit others rfl hrest.symm).elim
    · exact hinner
  | case4 => simp at hwithin

/-- A text in which the first value comes to stand between a star and a digit. -/
theorem fill_probe (hstar : first '*' = none) (hone : first '1' = some value) :
    fill first "**12".toList = '*' :: (value ++ ['2']) := by
  have htext : "**12".toList = '*' :: '*' :: '1' :: ['2'] := rfl
  rw [htext, fill_star fun _ hhead => Option.some.inj hhead ▸ hstar, fill_placeholder hone,
    fill_letter (by decide)]
  rfl

/-- When nothing is put in for the third placeholder, the values of a token are put in as if all at
once only if the first value is inert, or the second one is its own placeholder. -/
theorem inert_of_expandText {token : Token} (hthird : token.value3 = "")
    (hsecond : token.value2 ≠ "*2") (h : ∀ text, expandText text token = fillIn text token) :
    InertValues token where
  first_second := by
    intro hvalue2 hcompletes
    have htwo : laterSlot '2' token.value2 = slot '2' token.value2.toList := if_neg hvalue2
    have hthree : laterSlot '3' token.value3 = fun _ => none := if_pos hthird
    have hprobe := h "**12"
    rw [expandText_eq, fillIn, fill_probe (by rfl) (if_pos rfl), fill_probe (by rfl) (by rfl), htwo,
      hthree, fill_none] at hprobe
    have hself := eq_of_fill_eq_self (String.ofList_injective hprobe) hcompletes
    exact hsecond (String.toList_injective hself)
  first_third h := absurd hthird h
  second_third _ h := absurd hthird h

/-- The values of a token are put into every text as if all at once, provided that no value
completes a placeholder that is filled in after it. For a token without third value whose second
value is not its own placeholder, nothing less will do. -/
theorem expandText_simultaneous (token : Token) :
    (InertValues token → ∀ text, expandText text token = fillIn text token) ∧
      (token.value3 = "" → token.value2 ≠ "*2" →
        (∀ text, expandText text token = fillIn text token) → InertValues token) :=
  ⟨expandText_of_inert, inert_of_expandText⟩

/-- Three values with a star and a digit behind it, none of which is taken for a placeholder. -/
def threeValues : Token :=
  { category := .vowel, pattern := "i", value1 := "A*4", value2 := "B*1", value3 := "*3" }

/-- They are put in side by side, also behind a star. Without the third one the first two are put
into every text as if at once, so that they are inert. -/
theorem expandText_simultaneous_threeValues :
    InertValues threeValues ∧ expandText "*1*2**3*4" threeValues = "A*4B*1**3*4" ∧
      (∀ text, expandText text { threeValues with value3 := "" } =
        fillIn text { threeValues with value3 := "" }) ∧
      InertValues { threeValues with value3 := "" } := by
  have hthree : InertValues threeValues :=
    ⟨fun _ => by decide, fun _ => by decide, fun _ _ => by decide⟩
  have htwo : InertValues { threeValues with value3 := "" } :=
    ⟨hthree.first_second, fun h => absurd rfl h, fun _ h => absurd rfl h⟩
  have hevery := (expandText_simultaneous { threeValues with value3 := "" }).1 htwo
  refine ⟨hthree, ((expandText_simultaneous threeValues).1 hthree _).trans ?_, hevery,
    (expandText_simultaneous { threeValues with value3 := "" }).2 rfl (by decide) hevery⟩
  decide +kernel

/-- A token with a placeholder for first value. The template `* => [*2, *1]` builds it from
`a => A`, whose second value is blank. -/
def leftStanding : Token := { category := .symbol, pattern := "a", value1 := "*2", value2 := "A" }

/-- The placeholder of the first value is taken for one of the text. -/
theorem expandText_leftStanding :
    Template.combine [{ category := .vowel, pattern := "a", value1 := "A" }]
        [(.scalar "*", .group [.scalar "*2", .scalar "*1"])] =
      [(.scalar leftStanding.pattern,
        .group [.scalar leftStanding.value1, .scalar leftStanding.value2])] ∧
    expandText "*1" leftStanding = "A" ∧ fillIn "*1" leftStanding = "*2" := by
  decide +kernel

end TranslitScheme.Template
