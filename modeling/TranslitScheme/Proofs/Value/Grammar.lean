import TranslitScheme.Value.Shape

/-!
# The grammar of keys and values

Which values can be keys and values of a mapping, said without reading them. A shape is a string,
an integer, or a sequence of shapes that is not empty, and it stands for a pattern. A key must not
have a blank text anywhere, and a value must not begin with one.

Reading agrees with this at every level. What the grammar accepts is read as the pattern it stands
for, with no finding but that values will be ignored, and what it does not accept is dropped with
at least one error: `verdict_checkPair` says so for a pair.
-/

namespace TranslitScheme.Value

/-- A string, an integer, or a sequence of such to any depth, none of them empty. -/
inductive Shaped : Value → Prop where
  | str (text : String) : Shaped (.str text)
  | int (number : Int) : Shaped (.int number)
  | list {items : List Value} : items ≠ [] → (∀ item ∈ items, Shaped item) → Shaped (.list items)

/-- A shape that stands on its own is not a blank string. -/
def Elemental (value : Value) : Prop := Shaped value ∧ value ≠ .str ""

mutual

/-- The pattern that a shape stands for, with integers in decimal and the same nesting. Other
values stand for nothing. -/
def toPattern : Value → Pattern
  | str text => .scalar text
  | int number => .scalar (toString number)
  | list items => .group (toPatterns items)
  | bool _ | map _ | other _ => .group []

/-- The patterns of the elements of a sequence. -/
def toPatterns : List Value → List Pattern
  | [] => []
  | item :: rest => toPattern item :: toPatterns rest

end

/-- A pair of the grammar: both sides are shapes that stand on their own, no text of the key is
blank, nor is the first text of the value. -/
structure Readable (key value : Value) : Prop where
  key_shape : Elemental key
  value_shape : Elemental value
  key_texts : "" ∉ key.toPattern.leaves
  first_value : value.toPattern.leaves.headD "" ≠ ""

/-- What reading comes to. Something that is accepted is read as it should be, with the findings
that it should have, and anything else is dropped with an error. -/
inductive Verdict {α : Type} (accepted : Prop) (read : α) (found : List Finding) :
    Option α × List Finding → Prop where
  | accept : accepted → Verdict accepted read found (some read, found)
  | drop {findings : List Finding} : ¬ accepted →
      (∃ finding ∈ findings, finding.severity = .error) →
      Verdict accepted read found (none, findings)

namespace Verdict

variable {α : Type} {accepted accepted' : Prop} {read : α} {found : List Finding}
  {outcome : Option α × List Finding}

/-- The verdict is about the condition, however it is put. -/
theorem congr (h : Verdict accepted read found outcome) (hiff : accepted ↔ accepted') :
    Verdict accepted' read found outcome := by
  rwa [← propext hiff]

/-- What is accepted is read with the findings that it should have. -/
theorem of_accepted (h : Verdict accepted read found outcome) (haccepted : accepted) :
    outcome = (some read, found) := by
  cases h with
  | accept => rfl
  | drop hrefused => exact absurd haccepted hrefused

/-- What is not accepted is dropped with an error. -/
theorem of_not_accepted (h : Verdict accepted read found outcome) (hrefused : ¬ accepted) :
    outcome.1 = none ∧ ∃ finding ∈ outcome.2, finding.severity = .error := by
  cases h with
  | accept haccepted => exact absurd haccepted hrefused
  | drop _ herror => exact ⟨rfl, herror⟩

/-- Something is read just when it is accepted. -/
theorem isSome_iff (h : Verdict accepted read found outcome) :
    outcome.1.isSome = true ↔ accepted := by
  cases h with
  | accept haccepted => exact ⟨fun _ => haccepted, fun _ => rfl⟩
  | drop hrefused _ =>
    exact ⟨fun hsome => by contradiction, fun haccepted => absurd haccepted hrefused⟩

end Verdict

/-- Two things that are read one after the other, with the findings of both, where each of them is
needed. -/
theorem Verdict.both {α β γ : Type} {accepted accepted' : Prop} {read : α} {read' : β}
    {found found' : List Finding} {outcome : Option α × List Finding}
    {outcome' : Option β × List Finding} (join : α → β → γ)
    (h : Verdict accepted read found outcome) (h' : Verdict accepted' read' found' outcome') :
    Verdict (accepted ∧ accepted') (join read read') (found ++ found')
      (outcome.1.bind fun first => outcome'.1.map (join first), outcome.2 ++ outcome'.2) := by
  cases h with
  | accept haccepted =>
    cases h' with
    | accept haccepted' => exact .accept ⟨haccepted, haccepted'⟩
    | drop hrefused' herror' =>
      obtain ⟨finding, hfinding, hseverity⟩ := herror'
      exact .drop (fun h => hrefused' h.2) ⟨finding, List.mem_append_right _ hfinding, hseverity⟩
  | drop hrefused herror =>
    obtain ⟨finding, hfinding, hseverity⟩ := herror
    exact .drop (fun h => hrefused h.1) ⟨finding, List.mem_append_left _ hfinding, hseverity⟩

/-- An element of a sequence on its own: strings may be blank. -/
def checkItem : Value → Option Pattern × List Finding
  | str text => (some (.scalar text), [])
  | item => checkElement item

/-- The elements of a sequence are read one after the other. -/
theorem checkItems_cons (item : Value) (rest : List Value) :
    checkItems (item :: rest) =
      ((checkItem item).1.bind fun pattern => (checkItems rest).1.map (pattern :: ·),
        (checkItem item).2 ++ (checkItems rest).2) := by
  cases item <;> rfl

/-- An element of a sequence is read when it is a shape, if on its own it is read by the grammar. -/
theorem verdict_checkItem {item : Value}
    (h : Verdict (Elemental item) item.toPattern [] (checkElement item)) :
    Verdict (Shaped item) item.toPattern [] (checkItem item) := by
  cases item with
  | str text => exact .accept (.str text)
  | _ => exact h.congr ⟨fun helement => helement.1, fun hshaped => ⟨hshaped, by simp⟩⟩

mutual

/-- An element is read by the grammar. -/
theorem verdict_checkElement :
    (value : Value) → Verdict (Elemental value) value.toPattern [] (checkElement value)
  | str text => by
    by_cases hblank : text = ""
    · rw [checkElement, if_pos hblank]
      exact .drop (fun h => h.2 (congrArg Value.str hblank)) ⟨_, List.mem_singleton_self _, rfl⟩
    · rw [checkElement, if_neg hblank]
      exact .accept ⟨.str text, fun h => hblank (Value.str.inj h)⟩
  | int number => .accept ⟨.int number, by simp⟩
  | list [] => .drop (fun h => by cases h.1; contradiction) ⟨_, List.mem_singleton_self _, rfl⟩
  | list (item :: rest) => by
    have hshaped : (∀ shape ∈ item :: rest, Shaped shape) ↔ Elemental (.list (item :: rest)) :=
      ⟨fun h => ⟨.list (by simp) h, by simp⟩, fun h => by cases h.1; assumption⟩
    have hitems := (verdict_checkItems (item :: rest)).congr hshaped
    rw [checkElement]
    cases hread : checkItems (item :: rest)
    rw [hread] at hitems
    cases hitems with
    | accept haccepted => exact .accept haccepted
    | drop hrefused herror => exact .drop hrefused herror
  | bool flag => .drop (fun h => by cases h.1) ⟨_, List.mem_singleton_self _, rfl⟩
  | map pairs => .drop (fun h => by cases h.1) ⟨_, List.mem_singleton_self _, rfl⟩
  | other kindName => .drop (fun h => by cases h.1) ⟨_, List.mem_singleton_self _, rfl⟩

/-- The elements of a sequence are read by the grammar, where strings may be blank. -/
theorem verdict_checkItems : (items : List Value) →
    Verdict (∀ item ∈ items, Shaped item) (toPatterns items) [] (checkItems items)
  | [] => .accept (by simp)
  | item :: rest => by
    rw [checkItems_cons]
    exact ((verdict_checkItem (verdict_checkElement item)).both List.cons
      (verdict_checkItems rest)).congr List.forall_mem_cons.symm

end

/-- A key is read when it is a shape without blank texts. -/
theorem verdict_checkKey (key : Value) :
    Verdict (Elemental key ∧ "" ∉ key.toPattern.leaves) key.toPattern [] (checkKey key) := by
  have helement := verdict_checkElement key
  rw [checkKey]
  cases hread : checkElement key
  rw [hread] at helement
  cases helement with
  | drop hrefused herror => exact .drop (fun h => hrefused h.1) herror
  | accept haccepted =>
    by_cases hblank : "" ∈ key.toPattern.leaves
    · simp only [if_pos hblank]
      exact .drop (fun h => h.2 hblank) ⟨emptyPatternFinding, by simp, rfl⟩
    · simp only [if_neg hblank]
      exact .accept ⟨haccepted, hblank⟩

/-- What is found about a value that is read: only whether it has more texts than are stored. -/
def valueFindings (value : Value) : List Finding :=
  if value.toPattern.leaves.length > maxValues then [extraValuesFinding value] else []

/-- A value is read when it is a shape whose first text is not blank. -/
theorem verdict_checkValue (value : Value) :
    Verdict (Elemental value ∧ value.toPattern.leaves.headD "" ≠ "") value.toPattern
      (valueFindings value) (checkValue value) := by
  have helement := verdict_checkElement value
  rw [checkValue]
  cases hread : checkElement value
  rw [hread] at helement
  cases helement with
  | drop hrefused herror => exact .drop (fun h => hrefused h.1) herror
  | accept haccepted =>
    by_cases hblank : value.toPattern.leaves.headD "" = ""
    · simp only [if_pos hblank]
      exact .drop (fun h => h.2 hblank) ⟨emptyValueFinding, by simp, rfl⟩
    · have hfound : (if value.toPattern.leaves.length > maxValues then
            (some value.toPattern, [] ++ [extraValuesFinding value])
          else (some value.toPattern, [])) = (some value.toPattern, valueFindings value) := by
        rw [valueFindings]
        split <;> rfl
      simp only [if_neg hblank, hfound]
      exact .accept ⟨haccepted, hblank⟩

/-- A pair is read by the grammar. -/
theorem verdict_checkPair (key value : Value) :
    Verdict (Readable key value) (key.toPattern, value.toPattern) (valueFindings value)
      (checkPair key value) :=
  ((verdict_checkKey key).both Prod.mk (verdict_checkValue value)).congr
    ⟨fun ⟨⟨hkey, htexts⟩, hvalue, hfirst⟩ => ⟨hkey, hvalue, htexts, hfirst⟩,
      fun h => ⟨⟨h.key_shape, h.key_texts⟩, h.value_shape, h.first_value⟩⟩

/-- Whether a pair is one of the grammar is found out by reading it. -/
instance (key value : Value) : Decidable (Readable key value) :=
  decidable_of_iff _ (verdict_checkPair key value).isSome_iff

end TranslitScheme.Value
