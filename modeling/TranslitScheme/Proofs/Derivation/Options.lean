import TranslitScheme.Derivation.Compound
import TranslitScheme.Proofs.Repetition.Template
import TranslitScheme.Proofs.Store.Admission
import TranslitScheme.Value.Setting

/-!
# Canonical options

A named code and a raw code of the same number are told apart by equality and not by the order of
priorities. On canonical options, which use the name where there is one, the two agree. Options are
canonical when they are read from a scheme, and a compound or a stored form of a token only takes
over options that are there.

`Priority.ofSetting_int` says what becomes of an integer: it is read as the one canonical priority
of that engine value, if there is one. That there is one means that the integer has 32 bits.
-/

namespace TranslitScheme

/-- A priority uses the name of its engine value if there is one. -/
def Priority.Canonical (priority : Priority) : Prop := ofValue priority.value = priority

/-- A condition uses the name of its engine code if there is one. -/
def Acceptance.Canonical (acceptance : Acceptance) : Prop := ofCode acceptance.code = acceptance

namespace Value

/-- An integer is read as the engine code of the same number. -/
theorem engineCode?_eq_some_iff (number : Int) (code : Int32) :
    engineCode? number = some code ↔ code.toInt = number := by
  unfold engineCode?
  constructor
  · intro h
    split at h
    · rename_i hbounds
      obtain rfl := Option.some.inj h
      exact Int32.toInt_ofInt_of_le hbounds.1 (by omega)
    · contradiction
  · rintro rfl
    have hlower := code.le_toInt
    have hupper := code.toInt_lt
    rw [if_pos (by omega), Int32.ofInt_toInt]

/-- An integer is read as an engine code when it has 32 bits. -/
theorem isSome_engineCode? (number : Int) :
    (engineCode? number).isSome ↔ -2147483648 ≤ number ∧ number ≤ 2147483647 := by
  unfold engineCode?
  split <;> simp [*]

end Value

namespace Priority

/-- The priority that is made of a value is canonical. -/
theorem canonical_ofValue (value : Int32) : (ofValue value).Canonical := by
  rw [Canonical, value_ofValue]

/-- A priority with a name is canonical. -/
theorem canonical_of_priorityNamed? {text : String} {priority : Priority}
    (h : Value.priorityNamed? text = some priority) : priority.Canonical := by
  unfold Value.priorityNamed? at h
  split at h
  · obtain rfl := Option.some.inj h
    rfl
  · obtain rfl := Option.some.inj h
    rfl
  · obtain rfl := Option.some.inj h
    rfl
  · contradiction

/-- A setting that stands for a priority is accepted. -/
theorem ofSetting_some_iff (setting : Value) (priority : Priority) :
    ofSetting (some setting) = .ok priority ↔ setting.priority? = some priority := by
  unfold ofSetting
  cases hread : setting.priority? <;> simp [hread]

/-- An integer is accepted as the canonical priority whose engine value it is. -/
theorem ofSetting_int (number : Int) (priority : Priority) :
    ofSetting (some (.int number)) = .ok priority ↔
      priority.Canonical ∧ priority.value.toInt = number := by
  rw [ofSetting_some_iff, Value.priority?, Option.map_eq_some_iff]
  constructor
  · rintro ⟨code, hcode, rfl⟩
    rw [value_ofValue]
    exact ⟨canonical_ofValue code, (Value.engineCode?_eq_some_iff number code).mp hcode⟩
  · rintro ⟨hcanonical, hvalue⟩
    exact ⟨priority.value, (Value.engineCode?_eq_some_iff number _).mpr hvalue, hcanonical⟩

/-- An integer is accepted as a priority when it has 32 bits. -/
theorem exists_ofSetting_int (number : Int) :
    (∃ priority, ofSetting (some (.int number)) = .ok priority) ↔
      -2147483648 ≤ number ∧ number ≤ 2147483647 := by
  simp only [ofSetting_some_iff, Value.priority?, ← Option.isSome_iff_exists, Option.isSome_map,
    Value.isSome_engineCode?]

/-- The priority of a declaration is canonical. -/
theorem canonical_of_ofSetting {setting : Option Value} {priority : Priority}
    (h : ofSetting setting = .ok priority) : priority.Canonical := by
  cases setting with
  | none =>
    obtain rfl := Except.ok.inj h
    rfl
  | some setting =>
    cases setting with
    | str text => exact canonical_of_priorityNamed? ((ofSetting_some_iff _ _).mp h)
    | int number => exact ((ofSetting_int number priority).mp h).1
    | _ => simp [ofSetting_some_iff, Value.priority?] at h

/-- The smaller of two priorities is one of them. -/
theorem min_eq_or (a b : Priority) : a.min b = a ∨ a.min b = b := by
  unfold min
  split
  · exact Or.inr rfl
  · exact Or.inl rfl

/-- Two priorities compare as equal when their values are. -/
theorem compare_eq_iff (a b : Priority) : compare a b = .eq ↔ a.value = b.value := by
  unfold compare
  rw [← Int32.toInt_inj]
  split
  · simp only [reduceCtorEq, false_iff]
    omega
  · split <;> simp [*]

/-- Canonical priorities compare as equal when they are. -/
theorem Canonical.compare_eq_iff {a b : Priority} (ha : a.Canonical) (hb : b.Canonical) :
    compare a b = .eq ↔ a = b := by
  rw [Priority.compare_eq_iff]
  constructor
  · intro hvalue
    rw [← ha, hvalue, hb]
  · rintro rfl
    rfl

end Priority

namespace Acceptance

/-- The condition that is made of a code is canonical. -/
theorem canonical_ofCode (code : Int32) : (ofCode code).Canonical := by
  rw [Canonical, code_ofCode]

/-- A condition with a name is canonical. -/
theorem canonical_of_acceptanceNamed? {text : String} {acceptance : Acceptance}
    (h : Value.acceptanceNamed? text = some acceptance) : acceptance.Canonical := by
  unfold Value.acceptanceNamed? at h
  split at h
  · obtain rfl := Option.some.inj h
    rfl
  · obtain rfl := Option.some.inj h
    rfl
  · obtain rfl := Option.some.inj h
    rfl
  · obtain rfl := Option.some.inj h
    rfl
  · contradiction

/-- A setting that stands for a condition is accepted. -/
theorem ofSetting_some_iff (setting : Value) (acceptance : Acceptance) :
    ofSetting (some setting) = .ok acceptance ↔ setting.acceptance? = some acceptance := by
  unfold ofSetting
  cases hread : setting.acceptance? <;> simp [hread]

/-- An integer is accepted as the canonical condition whose engine code it is. -/
theorem ofSetting_int (number : Int) (acceptance : Acceptance) :
    ofSetting (some (.int number)) = .ok acceptance ↔
      acceptance.Canonical ∧ acceptance.code.toInt = number := by
  rw [ofSetting_some_iff, Value.acceptance?, Option.map_eq_some_iff]
  constructor
  · rintro ⟨code, hcode, rfl⟩
    rw [code_ofCode]
    exact ⟨canonical_ofCode code, (Value.engineCode?_eq_some_iff number code).mp hcode⟩
  · rintro ⟨hcanonical, hcode⟩
    exact ⟨acceptance.code, (Value.engineCode?_eq_some_iff number _).mpr hcode, hcanonical⟩

/-- An integer is accepted as a condition when it has 32 bits. -/
theorem exists_ofSetting_int (number : Int) :
    (∃ acceptance, ofSetting (some (.int number)) = .ok acceptance) ↔
      -2147483648 ≤ number ∧ number ≤ 2147483647 := by
  simp only [ofSetting_some_iff, Value.acceptance?, ← Option.isSome_iff_exists, Option.isSome_map,
    Value.isSome_engineCode?]

/-- The condition of a declaration is canonical. -/
theorem canonical_of_ofSetting {setting : Option Value} {acceptance : Acceptance}
    (h : ofSetting setting = .ok acceptance) : acceptance.Canonical := by
  cases setting with
  | none =>
    obtain rfl := Except.ok.inj h
    rfl
  | some setting =>
    cases setting with
    | str text => exact canonical_of_acceptanceNamed? ((ofSetting_some_iff _ _).mp h)
    | int number => exact ((ofSetting_int number acceptance).mp h).1
    | _ => simp [ofSetting_some_iff, Value.acceptance?] at h

end Acceptance

namespace Token

/-- The options of a token are canonical. -/
def Canonical (token : Token) : Prop := token.priority.Canonical ∧ token.acceptance.Canonical

/-- Two tokens have the same options. -/
def SameOptions (token other : Token) : Prop :=
  other.priority = token.priority ∧ other.acceptance = token.acceptance

/-- A compound has the options of its parts. -/
theorem Canonical.compound? {consonant vowel compound : Token} {inherent : Char}
    (hconsonant : consonant.Canonical) (hvowel : vowel.Canonical)
    (h : Token.compound? consonant vowel inherent = some compound) : compound.Canonical := by
  unfold Token.compound? at h
  split at h
  · contradiction
  · obtain rfl := Option.some.inj h
    constructor
    · change (consonant.priority.min vowel.priority).Canonical
      rcases Priority.min_eq_or consonant.priority vowel.priority with hmin | hmin
      · rw [hmin]
        exact hconsonant.1
      · rw [hmin]
        exact hvowel.1
    · dsimp only
      split
      · exact hconsonant.2
      · exact hvowel.2

/-- Compounds have the options of their parts. -/
theorem canonical_of_mem_compounds {consonants vowels : List Token} {inherent : Char}
    (hconsonants : ∀ consonant ∈ consonants, consonant.Canonical)
    (hvowels : ∀ vowel ∈ vowels, vowel.Canonical) :
    ∀ compound ∈ compounds consonants vowels inherent, compound.Canonical := by
  intro compound hcompound
  obtain ⟨consonant, hconsonant, hvowel⟩ := List.mem_flatMap.mp hcompound
  obtain ⟨vowel, hvowel, hmade⟩ := List.mem_filterMap.mp hvowel
  exact (hconsonants consonant hconsonant).compound? (hvowels vowel hvowel) hmade

/-- Zero-width values change no options. -/
theorem sameOptions_withZeroWidth (token : Token) : token.SameOptions token.withZeroWidth := by
  unfold withZeroWidth
  split <;> exact ⟨rfl, rfl⟩

end Token

/-- Whatever is stored for a token has its options. -/
theorem TokenStore.sameOptions_of_mem_entries {store : TokenStore} {token entry : Token}
    (h : entry ∈ store.entries token) : token.SameOptions entry := by
  rcases List.mem_append.mp h with hderived | hnormal
  · have hdead := Option.mem_toList.mp hderived
    unfold derived? at hdead
    split at hdead
    · obtain ⟨virama, -, rfl⟩ := Option.map_eq_some_iff.mp hdead
      exact ⟨rfl, rfl⟩
    · contradiction
  · rw [List.mem_singleton.mp hnormal, normalForm]
    split
    · exact ⟨rfl, rfl⟩
    · exact token.sameOptions_withZeroWidth

/-- The tokens of a mapping have the options of the declaration. -/
theorem Session.options_of_mem_mappingTokens {category : Category} {mapping : Mapping}
    {priority : Priority} {acceptance : Acceptance} {token : Token}
    (h : token ∈ mappingTokens category mapping priority acceptance) :
    token.priority = priority ∧ token.acceptance = acceptance := by
  obtain ⟨pair, _, hpair⟩ := List.mem_flatMap.mp h
  rw [pairTokens_eq] at hpair
  obtain ⟨pattern, _, rfl⟩ := List.mem_map.mp hpair
  exact ⟨rfl, rfl⟩

end TranslitScheme
