import TranslitScheme.Proofs.Session.Remembered

/-!
# What decides about a token

Whether a store takes a token, and what it appends for it, depends on its switches and on the tokens
of few categories: those of the token's own category, among which duplicates are searched, and for a
consonant also the dead consonants and the viramas. Which of these tokens are flushed does not
matter, nor where the tokens of other categories stand between them.

`createToken_congr` says so for two stores that agree in this respect. What a token appends is of
its own category or a dead consonant, so that stores go on agreeing when either takes tokens of
categories that do not decide.
-/

namespace TranslitScheme.TokenStore

/-- The categories whose stored tokens decide about a token of a given category. -/
def footprint (category : Category) : List Category :=
  if category = .consonant then [.consonant, .deadConsonant, .virama] else [category]

/-- Two stores have the same switches and the same tokens of some categories. -/
structure Agrees (categories : List Category) (store other : TokenStore) : Prop where
  infers : other.infersDeadConsonants = store.infersDeadConsonants
  ignores : other.ignoresDuplicates = store.ignoresDuplicates
  inherentVowel : other.inherentVowel = store.inherentVowel
  rejections : other.rejections = store.rejections
  tokensOf : ∀ category ∈ categories, other.tokensOf category = store.tokensOf category

/-- Tokens of a category are decided by their own kind. -/
theorem mem_footprint_self (category : Category) : category ∈ footprint category := by
  unfold footprint
  split
  · rename_i hconsonant
    simp [hconsonant]
  · simp

variable {store other : TokenStore} {token : Token}

/-- The first virama is the first token of its category. -/
theorem virama?_eq_head? (store : TokenStore) :
    store.virama? = (store.tokensOf .virama).head? :=
  List.head?_filter.symm

/-- What a token appends is of a category that decides about it. -/
theorem mem_footprint_of_mem_entries {entry : Token} (h : entry ∈ store.entries token) :
    entry.category ∈ footprint token.category := by
  rcases category_of_mem_entries store token entry h with hsame | ⟨hconsonant, hdead⟩
  · rw [hsame]
    exact mem_footprint_self token.category
  · simp [footprint, hconsonant, hdead]

namespace Agrees

/-- Stores that agree find the same virama for a consonant. -/
theorem virama? (h : Agrees (footprint token.category) store other)
    (hconsonant : token.category = .consonant) : other.virama? = store.virama? := by
  rw [virama?_eq_head?, virama?_eq_head?, h.tokensOf .virama (by simp [footprint, hconsonant])]

/-- Stores that agree take the same consonants for dead ones. -/
theorem takesForDead (h : Agrees (footprint token.category) store other) :
    other.takesForDead token = store.takesForDead token := by
  by_cases hconsonant : token.category = .consonant
  · simp only [TokenStore.takesForDead, h.infers, h.virama? hconsonant]
  · have hother : (token.category == .consonant) = false := beq_eq_false_iff_ne.mpr hconsonant
    simp [TokenStore.takesForDead, hother]

/-- Stores that agree derive the same dead form. -/
theorem derived? (h : Agrees (footprint token.category) store other) :
    other.derived? token = store.derived? token := by
  by_cases hconsonant : token.category = .consonant
  · rw [TokenStore.derived?, TokenStore.derived?, h.takesForDead, h.infers, h.inherentVowel,
      h.virama? hconsonant]
  · rw [(derived?_of_not_inferring store token fun hboth => hconsonant hboth.1).1,
      (derived?_of_not_inferring other token fun hboth => hconsonant hboth.1).1]

/-- Stores that agree keep a token in the same form. -/
theorem normalForm (h : Agrees (footprint token.category) store other) :
    other.normalForm token = store.normalForm token := by
  rw [TokenStore.normalForm, TokenStore.normalForm, h.takesForDead]

/-- Stores that agree have the same entries for a token. -/
theorem entries (h : Agrees (footprint token.category) store other) :
    other.entries token = store.entries token := by
  rw [TokenStore.entries, TokenStore.entries, h.derived?, h.normalForm]

/-- Stores that agree make the same checks. -/
theorem vet (h : Agrees (footprint token.category) store other) :
    other.vet token = store.vet token := by
  have hinspect : other.inspect token = store.inspect token := by
    rw [inspect, inspect, h.rejections]
  have hvirama : (token.category = .consonant ∧ other.infersDeadConsonants = true ∧
        other.virama? = none) ↔
      (token.category = .consonant ∧ store.infersDeadConsonants = true ∧
        store.virama? = none) :=
    and_congr_right fun hconsonant => by rw [h.infers, h.virama? hconsonant]
  rw [vet_eq, vet_eq, hinspect, h.derived?]
  simp only [hvirama]

/-- Stores that agree hold the same entries of a token. -/
theorem holds (h : Agrees (footprint token.category) store other) {entry : Token}
    (hentry : entry ∈ store.entries token) : other.holds entry = store.holds entry := by
  rw [holds_eq_any_tokensOf, holds_eq_any_tokensOf,
    h.tokensOf entry.category (mem_footprint_of_mem_entries hentry)]

end Agrees

/-- What a token appends to a store, and whether it is taken, is the same for every store that
agrees on what decides about it. -/
theorem createToken_congr (store : TokenStore) (token : Token) :
    ∃ new ⊆ store.entries token, ∀ other, Agrees (footprint token.category) store other →
      other.createToken token = ((store.createToken token).1, other.append new) := by
  cases hvet : store.vet token with
  | error refusal =>
    refine ⟨[], List.nil_subset _, fun other h => ?_⟩
    rw [createToken_eq, createToken_eq, h.vet, hvet, append_nil]
  | ok _ =>
    have hmissing (other : TokenStore) (h : Agrees (footprint token.category) store other) :
        other.missing (store.entries token) = store.missing (store.entries token) :=
      List.filter_congr fun entry hentry => by rw [h.holds hentry]
    have hfind (other : TokenStore) (h : Agrees (footprint token.category) store other) :
        (store.entries token).find? other.holds = (store.entries token).find? store.holds := by
      rw [← List.head?_filter, ← List.head?_filter,
        List.filter_congr fun entry hentry => h.holds hentry]
    by_cases hignore : store.ignoresDuplicates = true
    · refine ⟨store.missing (store.entries token), List.filter_subset_self _, fun other h => ?_⟩
      rw [createToken_eq, createToken_eq, h.vet, hvet, h.entries, h.ignores, hmissing other h]
      simp [hignore]
    · cases hheld : (store.entries token).find? store.holds with
      | some entry =>
        refine ⟨[], List.nil_subset _, fun other h => ?_⟩
        rw [createToken_eq, createToken_eq, h.vet, hvet, h.entries, h.ignores, hfind other h, hheld,
          append_nil]
        simp [hignore]
      | none =>
        refine ⟨store.entries token, List.Subset.refl _, fun other h => ?_⟩
        rw [createToken_eq, createToken_eq, h.vet, hvet, h.entries, h.ignores, hfind other h, hheld]
        simp [hignore]

namespace Agrees

variable {categories : List Category}

/-- A store agrees with itself. -/
theorem refl (store : TokenStore) : Agrees categories store store :=
  ⟨rfl, rfl, rfl, rfl, fun _ _ => rfl⟩

/-- Stores that agree go on agreeing when both store the same. -/
theorem append (h : Agrees categories store other) (new : List Token) :
    Agrees categories (store.append new) (other.append new) :=
  ⟨h.infers, h.ignores, h.inherentVowel, h.rejections, fun category hcategory => by
    rw [tokensOf_append, tokensOf_append, h.tokensOf category hcategory]⟩

/-- Stores that agree go on agreeing when one of them stores tokens of other categories. -/
theorem append_right (h : Agrees categories store other) {new : List Token}
    (hnew : ∀ token ∈ new, token.category ∉ categories) :
    Agrees categories store (other.append new) :=
  ⟨h.infers, h.ignores, h.inherentVowel, h.rejections, fun category hcategory => by
    have hnone : (new.filter fun token => token.category == category) = [] :=
      List.filter_eq_nil_iff.mpr fun token htoken hsame =>
        hnew token htoken (beq_iff_eq.mp hsame ▸ hcategory)
    rw [tokensOf_append, hnone, List.append_nil, h.tokensOf category hcategory]⟩

end Agrees

end TranslitScheme.TokenStore
