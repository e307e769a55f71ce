import Mathlib.Data.List.ProdSigma
import TranslitScheme.Proofs.Derivation.InherentVowel
import TranslitScheme.Proofs.Repetition.Operation
import TranslitScheme.Proofs.Session.Submission

/-!
# The compounds of a session

The compounds of a session are the product of its consonants and of those of its vowels that have a
combining form, consonants outermost. `Token.IsCompound` says what a compound takes from either part
without the functions that make it. Priorities and conditions are compared as engine codes, since a
code may be written by its name or as a number.

Each compound goes to the sink like any declared token, so that it is accepted or reported. A sink
that refuses some of them does not keep the others from being considered.
-/

namespace TranslitScheme

/-- The stricter of two priorities has the smaller engine value. -/
theorem Priority.toInt_value_min (first second : Priority) :
    (first.min second).value.toInt = Min.min first.value.toInt second.value.toInt := by
  unfold Priority.min Priority.compare
  by_cases hless : second.value.toInt < first.value.toInt
  · rw [if_pos hless]
    change second.value.toInt = _
    omega
  · have hfirst : first.value.toInt = Min.min first.value.toInt second.value.toInt := by omega
    rw [if_neg hless]
    by_cases hsame : second.value.toInt = first.value.toInt
    · rw [if_pos hsame]
      exact hfirst
    · rw [if_neg hsame]
      exact hfirst

namespace Token

/-- A token is the compound of a consonant and a vowel, by what it takes from them. -/
structure IsCompound (letter : Char) (consonant vowel compound : Token) : Prop where
  category : compound.category = .consonantVowel
  stripped : ∀ front before, consonant.pattern.toList = front ++ [before, letter] →
    before ≠ letter → compound.pattern = String.ofList (front ++ [before]) ++ vowel.pattern
  whole : (¬ ∃ front before, consonant.pattern.toList = front ++ [before, letter] ∧
    before ≠ letter) → compound.pattern = consonant.pattern ++ vowel.pattern
  value1 : compound.value1 = consonant.value1 ++ vowel.value2
  value2 : compound.value2 = ""
  value3 : compound.value3 = ""
  matching : compound.matching = .possibility ↔
    consonant.matching = .possibility ∨ vowel.matching = .possibility
  priority : compound.priority.value.toInt =
    min consonant.priority.value.toInt vowel.priority.value.toInt
  acceptance : compound.acceptance.code =
    if vowel.acceptance.code = 0 then consonant.acceptance.code else vowel.acceptance.code

variable {letter : Char} {consonant vowel : Token}

/-- Under another tag a compound is a compound of the same parts. -/
theorem IsCompound.with_tag {compound : Token} (h : IsCompound letter consonant vowel compound)
    (tag : String) : IsCompound letter consonant vowel { compound with tag } :=
  ⟨h.category, h.stripped, h.whole, h.value1, h.value2, h.value3, h.matching, h.priority,
    h.acceptance⟩

/-- A vowel with a combining form has a compound with every consonant. -/
theorem exists_isCompound (letter : Char) (consonant vowel : Token) (h : vowel.value2 ≠ "") :
    ∃ compound, compound? consonant vowel letter = some compound ∧
      IsCompound letter consonant vowel compound := by
  refine ⟨_, if_neg h, ?_⟩
  exact {
    category := rfl
    stripped := fun front before hpattern hbefore => by
      have hshown := (Pattern.hasInherentVowel_iff _ _).mpr ⟨front, before, hpattern, hbefore⟩
      rw [Pattern.stem, if_pos hshown, Pattern.withoutLast_of_toList hpattern]
    whole := fun hplain => by
      have hnot := fun hshown => hplain ((Pattern.hasInherentVowel_iff _ _).mp hshown)
      rw [Pattern.stem, if_neg hnot]
    value1 := rfl
    value2 := rfl
    value3 := rfl
    matching := by
      by_cases hconsonant : consonant.matching = .possibility
      · simp [isPossibility, hconsonant]
      · simp [isPossibility, hconsonant]
    priority := Priority.toInt_value_min _ _
    acceptance := by
      by_cases hall : vowel.acceptance.code = 0
      · simp [Acceptance.isAll, hall]
      · simp [Acceptance.isAll, hall] }

/-- The compounds of one consonant, one for each vowel with a combining form. -/
theorem forall₂_filterMap_compound? (letter : Char) (consonant : Token) (vowels : List Token) :
    List.Forall₂ (fun pair compound => IsCompound letter pair.1 pair.2 compound)
      ((vowels.filter fun vowel => vowel.value2 ≠ "").map (Prod.mk consonant))
      (vowels.filterMap fun vowel => compound? consonant vowel letter) := by
  induction vowels with
  | nil => exact .nil
  | cons vowel rest ih =>
    by_cases hform : vowel.value2 = ""
    · have hnone : compound? consonant vowel letter = none := if_pos hform
      rw [List.filter_cons_of_neg (by simpa using hform), List.filterMap_cons, hnone]
      exact ih
    · obtain ⟨compound, hsome, hcompound⟩ := exists_isCompound letter consonant vowel hform
      rw [List.filter_cons_of_pos (by simpa using hform), List.filterMap_cons, hsome]
      exact .cons hcompound ih

/-- The compounds of consonants and vowels are those of the pairs of a product. -/
theorem forall₂_compounds (letter : Char) (consonants vowels : List Token) :
    List.Forall₂ (fun pair compound => IsCompound letter pair.1 pair.2 compound)
      (consonants ×ˢ vowels.filter fun vowel => vowel.value2 ≠ "")
      (compounds consonants vowels letter) := by
  induction consonants with
  | nil => exact .nil
  | cons consonant rest ih =>
    rw [List.product_cons]
    exact List.rel_append (forall₂_filterMap_compound? letter consonant vowels) ih

end Token

namespace Session

variable {σ : Type} [TokenSink σ]

/-- Compounds are submitted like any tokens. -/
theorem generateCompounds_eq (session : Session σ) :
    session.generateCompounds =
      let considered := TokenSink.considerAll session.sink
        ((Token.compounds (session.tokens .consonant .all) (session.tokens .vowel .all)
          session.settings.inherentVowel).map session.tagged)
      ((Ruling.accepted considered.1).length, session.absorb considered) :=
  submitAll_eq session _

/-- Generating compounds adds tokens of one category only. -/
theorem tokens_generateCompounds (session : Session σ) {category : Category}
    (h : category ≠ .consonantVowel) :
    session.generateCompounds.2.tokens category .all = session.tokens category .all := by
  rw [generateCompounds_eq]
  refine (tokens_absorb_of_category session fun token htoken => ?_).2 category h
  rw [TokenSink.tokens_considerAll] at htoken
  obtain ⟨compound, hcompound, rfl⟩ := List.mem_map.mp htoken
  have hcategory : compound.category = .consonantVowel :=
    Token.category_of_mem_compounds hcompound
  exact hcategory

/-- The compounds of a session are the product of its consonants and of its vowels with a combining
form. One is considered for each pair, consonants outermost and in order, under the active tag. It
is accepted or there is one diagnostic for it, so that the accepted compounds and the new
diagnostics are as many as the pairs, and the consonants and the vowels are what they were. -/
theorem generateCompounds_product (session : Session σ) :
    let letter := session.settings.inherentVowel
    let consonants := session.tokens .consonant .all
    let vowels := session.tokens .vowel .all
    let combining := vowels.filter fun vowel => vowel.value2 ≠ ""
    let considered := (Token.compounds consonants vowels letter).map session.tagged
    let rulings := (TokenSink.considerAll session.sink considered).1
    let accepted := Ruling.accepted rulings
    let found := Ruling.diagnostics session.journal rulings
    let count := session.generateCompounds.1
    let left := session.generateCompounds.2
    List.Forall₂
      (fun pair compound => Token.IsCompound letter pair.1 pair.2 compound ∧
        compound.tag = session.journal.tag.getD "")
      (consonants ×ˢ combining) considered ∧
    rulings.map Ruling.token = considered ∧
    left = session.absorb (TokenSink.considerAll session.sink considered) ∧
    left.journal.entries = session.journal.entries ++ found ∧
    count = accepted.length ∧
    count + found.length = consonants.length * combining.length ∧
    left.tokens .consonant .all = consonants ∧ left.tokens .vowel .all = vowels := by
  intro letter consonants vowels combining considered rulings accepted found count left
  have hpairs : List.Forall₂
      (fun pair compound => Token.IsCompound letter pair.1 pair.2 compound ∧
        compound.tag = session.journal.tag.getD "")
      (consonants ×ˢ combining) considered :=
    List.forall₂_map_right_iff.mpr <|
      (Token.forall₂_compounds letter consonants vowels).imp fun _ compound hcompound =>
        ⟨hcompound.with_tag _, rfl⟩
  have hleft : left = session.absorb (TokenSink.considerAll session.sink considered) :=
    congrArg Prod.snd (generateCompounds_eq session)
  have hcount : count = accepted.length := congrArg Prod.fst (generateCompounds_eq session)
  refine ⟨hpairs, TokenSink.tokens_considerAll session.sink considered, hleft, hleft ▸ rfl, hcount,
    ?_, tokens_generateCompounds session nofun, tokens_generateCompounds session nofun⟩
  calc
    count + found.length = considered.length := by
      rw [hcount]
      exact Ruling.length_accepted_considerAll session.sink considered session.journal
    _ = consonants.length * combining.length := by
      rw [← hpairs.length_eq, List.length_product]

end Session

end TranslitScheme
