import Mathlib.Data.List.Forall2
import TranslitScheme.Proofs.Store.Operation

/-!
# Stores that differ in the way of matching

Two stores are compared position by position, where a token of some categories may be one of
several spellings in the second store although it is exact in the first one. The store never
looks at the way of matching, so creating related tokens has the same result in both and leaves
them related.

A store digests a token once: creating it again, even after other tokens of its category, changes
nothing, whether duplicates are passed over or refused.
-/

namespace TranslitScheme

/-- The same token, or the same token as one of several spellings where that is allowed. -/
def Token.Loosens (loose : Prop) (token other : Token) : Prop :=
  other = token ∨ loose ∧ other = { token with matching := .possibility }

namespace Token.Loosens

variable {loose : Prop} {token other : Token}

/-- Every token is the same as itself. -/
theorem refl (token : Token) : token.Loosens loose token := Or.inl rfl

/-- At most the way of matching is different. -/
theorem exists_matching (h : token.Loosens loose other) :
    ∃ matching, other = { token with matching } := by
  rcases h with rfl | ⟨_, rfl⟩
  · exact ⟨other.matching, rfl⟩
  · exact ⟨.possibility, rfl⟩

/-- The category is the same. -/
theorem category_eq (h : token.Loosens loose other) : other.category = token.category := by
  obtain ⟨matching, rfl⟩ := h.exists_matching
  rfl

/-- Where nothing is loose the token is the same. -/
theorem eq_of_not (h : token.Loosens loose other) (hnot : ¬ loose) : other = token :=
  h.resolve_right fun hloose => hnot hloose.1

/-- What is allowed here may be allowed elsewhere. -/
theorem imp {laxer : Prop} (h : token.Loosens loose other) (himp : loose → laxer) :
    token.Loosens laxer other :=
  h.imp_right fun hloose => ⟨himp hloose.1, hloose.2⟩

/-- What changes no way of matching keeps tokens related. -/
theorem change (h : token.Loosens loose other) (f : Token → Token)
    (hmatching : ∀ token matching, f { token with matching } = { f token with matching }) :
    (f token).Loosens loose (f other) := by
  rcases h with rfl | ⟨hloose, rfl⟩
  · exact Or.inl rfl
  · exact Or.inr ⟨hloose, hmatching token .possibility⟩

/-- Related tokens are the same entries. -/
theorem sameEntry_eq {loose' : Prop} {token' other' : Token} (h : token.Loosens loose other)
    (h' : token'.Loosens loose' other') : other.sameEntry other' = token.sameEntry token' := by
  obtain ⟨matching, rfl⟩ := h.exists_matching
  obtain ⟨matching', rfl⟩ := h'.exists_matching
  rfl

end Token.Loosens

/-- The same token, or in loose categories the same token as one of several spellings. -/
def Token.LoosensIn (loose : Category → Prop) (token other : Token) : Prop :=
  token.Loosens (loose token.category) other

namespace TokenStore

/-- Stores that are the same but for the ways of matching in loose categories. -/
structure Loosens (loose : Category → Prop) (store other : TokenStore) : Prop where
  flushed : List.Forall₂ (Token.LoosensIn loose) store.flushed other.flushed
  buffer : List.Forall₂ (Token.LoosensIn loose) store.buffer other.buffer
  rest : other = { store with flushed := other.flushed, buffer := other.buffer }

namespace Loosens

variable {loose : Category → Prop} {may : Prop} {store other : TokenStore} {token token' : Token}

/-- Every store is the same as itself. -/
theorem refl (store : TokenStore) : store.Loosens loose store where
  flushed := List.forall₂_same.mpr fun token _ => Token.Loosens.refl token
  buffer := List.forall₂_same.mpr fun token _ => Token.Loosens.refl token
  rest := rfl

/-- Where no category is loose the store is the same. -/
theorem eq_of_not (h : store.Loosens loose other) (hnot : ∀ category, ¬ loose category) :
    other = store := by
  have heq {tokens tokens' : List Token}
      (htokens : List.Forall₂ (Token.LoosensIn loose) tokens tokens') : tokens' = tokens := by
    induction htokens with
    | nil => rfl
    | cons htoken _ ih => rw [ih, Token.Loosens.eq_of_not htoken (hnot _)]
  rw [h.rest, heq h.flushed, heq h.buffer]

/-- The tables are the same but for the tokens. -/
theorem toTable_eq (h : store.Loosens loose other) :
    other.toTable = { store.toTable with tokens := other.toTable.tokens } := by
  rw [h.rest]
  rfl

/-- Whether dead consonants are inferred is the same. -/
theorem infers_eq (h : store.Loosens loose other) :
    other.infersDeadConsonants = store.infersDeadConsonants := by
  rw [h.rest]

/-- Whether duplicates are passed over is the same. -/
theorem ignores_eq (h : store.Loosens loose other) :
    other.ignoresDuplicates = store.ignoresDuplicates := by
  rw [h.rest]

/-- The stored tokens are related position by position. -/
theorem stored (h : store.Loosens loose other) :
    List.Forall₂ (Token.LoosensIn loose) store.stored other.stored :=
  List.rel_append h.flushed h.buffer

/-- Tokens of a category are related position by position. -/
theorem tokensOf (h : store.Loosens loose other) (category : Category) :
    List.Forall₂ (Token.Loosens (loose category)) (store.tokensOf category)
      (other.tokensOf category) := by
  have hfilter : ∀ {tokens tokens' : List Token},
      List.Forall₂ (Token.LoosensIn loose) tokens tokens' →
      List.Forall₂ (Token.Loosens (loose category))
        (tokens.filter fun held => held.category == category)
        (tokens'.filter fun held => held.category == category) := by
    intro tokens tokens' htokens
    induction htokens with
    | nil => exact .nil
    | @cons held held' _ _ hheld _ ih =>
      rw [List.filter_cons, List.filter_cons, Token.Loosens.category_eq hheld]
      split
      · rename_i hcategory
        have hsame : held.category = category := by simpa using hcategory
        exact .cons (hsame ▸ hheld) ih
      · exact ih
  exact hfilter h.stored

/-- The same entries are held. -/
theorem holds_eq (h : store.Loosens loose other) (htoken : token.Loosens may token') :
    other.holds token' = store.holds token := by
  have hany : ∀ {tokens tokens' : List Token},
      List.Forall₂ (Token.LoosensIn loose) tokens tokens' →
      tokens'.any (fun held => held.sameEntry token') =
        tokens.any fun held => held.sameEntry token := by
    intro tokens tokens' htokens
    induction htokens with
    | nil => rfl
    | cons hheld _ ih =>
      rw [List.any_cons, List.any_cons, ih, Token.Loosens.sameEntry_eq hheld htoken]
  exact hany h.stored

/-- The first viramas are related. -/
theorem virama? (h : store.Loosens loose other) :
    Option.Rel (Token.LoosensIn loose) store.virama? other.virama? := by
  have hfind : ∀ {tokens tokens' : List Token},
      List.Forall₂ (Token.LoosensIn loose) tokens tokens' →
      Option.Rel (Token.LoosensIn loose) (tokens.find? fun held => held.category == .virama)
        (tokens'.find? fun held => held.category == .virama) := by
    intro tokens tokens' htokens
    induction htokens with
    | nil => exact .none
    | cons hheld _ ih =>
      rw [List.find?_cons, List.find?_cons, Token.Loosens.category_eq hheld]
      split
      · exact .some hheld
      · exact ih
  exact hfind h.stored

/-- The first viramas have the same value, or there is none in either store. -/
theorem value_virama? (h : store.Loosens loose other) :
    other.virama?.map Token.value1 = store.virama?.map Token.value1 := by
  have hvirama := h.virama?
  generalize store.virama? = first, other.virama? = second at hvirama
  cases hvirama with
  | none => rfl
  | some hsame =>
    obtain ⟨matching, rfl⟩ := Token.Loosens.exists_matching hsame
    rfl

/-- Consonants are taken for dead ones alike. -/
theorem takesForDead_eq (h : store.Loosens loose other) (htoken : token.Loosens may token') :
    other.takesForDead token' = store.takesForDead token := by
  have hany (store : TokenStore) (value : String) :
      (store.virama?.any fun virama => Text.endsWith value virama.value1) =
        (store.virama?.map Token.value1).any fun virama => Text.endsWith value virama := by
    cases store.virama? <;> rfl
  obtain ⟨matching, rfl⟩ := htoken.exists_matching
  simp only [takesForDead, hany, h.infers_eq, h.value_virama?]

/-- Related tokens have related dead forms. -/
theorem derived? (h : store.Loosens loose other) (htoken : token.Loosens may token') :
    Option.Rel (Token.Loosens may) (store.derived? token) (other.derived? token') := by
  have hdead (store : TokenStore) (token : Token) :
      (store.virama?.map fun virama => token.deadForm virama.value1) =
        (store.virama?.map Token.value1).map token.deadForm := by
    cases store.virama? <;> rfl
  have hinherent : other.inherentVowel = store.inherentVowel := by rw [h.rest]
  have hpattern : token'.pattern = token.pattern := by
    obtain ⟨matching, rfl⟩ := htoken.exists_matching
    rfl
  unfold TokenStore.derived?
  rw [htoken.category_eq, h.infers_eq, h.takesForDead_eq htoken, hinherent, hpattern, hdead, hdead,
    h.value_virama?]
  split
  · cases store.virama?.map Token.value1 with
    | none => exact .none
    | some virama =>
      exact .some (htoken.change (fun consonant => consonant.deadForm virama) fun _ _ => rfl)
  · exact .none

/-- Related tokens have related normal forms. -/
theorem normalForm (h : store.Loosens loose other) (htoken : token.Loosens may token') :
    (store.normalForm token).Loosens may (other.normalForm token') := by
  have hzero (token : Token) (matching : Matching) :
      Token.withZeroWidth { token with matching } = { token.withZeroWidth with matching } := by
    cases token with
    | mk category => cases category <;> rfl
  unfold TokenStore.normalForm
  rw [h.takesForDead_eq htoken]
  split
  · exact htoken.change (fun consonant => { consonant with category := .deadConsonant })
      fun _ _ => rfl
  · exact htoken.change Token.withZeroWidth hzero

/-- Related tokens have related entries. -/
theorem entries (h : store.Loosens loose other) (htoken : token.Loosens may token') :
    List.Forall₂ (Token.Loosens may) (store.entries token) (other.entries token') := by
  have hderived := h.derived? htoken
  refine List.rel_append ?_ (.cons (h.normalForm htoken) .nil)
  generalize store.derived? token = first, other.derived? token' = second at hderived
  cases hderived with
  | none => exact .nil
  | some hsame => exact .cons hsame .nil

/-- Related tokens pass the same checks, or fail the same one. -/
theorem vet_eq (h : store.Loosens loose other) (htoken : token.Loosens may token') :
    other.vet token' = store.vet token := by
  have hvirama : other.virama? = none ↔ store.virama? = none := by
    rw [← Option.map_eq_none_iff (f := Token.value1), h.value_virama?, Option.map_eq_none_iff]
  have hfits : (other.derived? token').all Token.fits = (store.derived? token).all Token.fits := by
    have hderived := h.derived? htoken
    generalize store.derived? token = first, other.derived? token' = second at hderived
    cases hderived with
    | none => rfl
    | some hsame =>
      obtain ⟨matching, rfl⟩ := hsame.exists_matching
      rfl
  have hinspect : other.inspect token' = store.inspect token := by
    obtain ⟨matching, rfl⟩ := htoken.exists_matching
    rw [h.rest]
    rfl
  simp only [TokenStore.vet_eq, hinspect, htoken.category_eq, h.infers_eq, hvirama, hfits]

/-- Entries are related in loose categories when tokens of the category are. -/
theorem entriesIn (h : store.Loosens loose other) (htoken : token.Loosens may token')
    (hmay : may → loose token.category) (hdead : loose .consonant → loose .deadConsonant) :
    List.Forall₂ (Token.LoosensIn loose) (store.entries token) (other.entries token') := by
  have hcategories : ∀ entry ∈ store.entries token, may → loose entry.category := by
    intro entry hentry hloose
    rcases category_of_mem_entries store token entry hentry with hsame | ⟨hconsonant, hentryDead⟩
    · exact hsame ▸ hmay hloose
    · exact hentryDead ▸ hdead (hconsonant ▸ hmay hloose)
  refine List.Forall₂.imp (fun _ _ hboth => hboth.2.imp hboth.1)
    ((List.forall₂_and_left _ _).mpr ⟨hcategories, h.entries htoken⟩)

/-- Appending related tokens keeps stores related. -/
theorem append (h : store.Loosens loose other) {tokens tokens' : List Token}
    (htokens : List.Forall₂ (Token.LoosensIn loose) tokens tokens') :
    (store.append tokens).Loosens loose (other.append tokens') where
  flushed := h.flushed
  buffer := List.rel_append h.buffer htokens
  rest := by
    rw [h.rest]
    rfl

/-- The same entries are missing. -/
theorem missing (h : store.Loosens loose other) {tokens tokens' : List Token}
    (htokens : List.Forall₂ (Token.LoosensIn loose) tokens tokens') :
    List.Forall₂ (Token.LoosensIn loose) (store.missing tokens) (other.missing tokens') := by
  induction htokens with
  | nil => exact .nil
  | cons htoken _ ih =>
    simp only [TokenStore.missing, List.filter_cons, h.holds_eq htoken] at ih ⊢
    split
    · exact .cons htoken ih
    · exact ih

/-- Creating related tokens has the same result, and leaves stores that pass over duplicates
related. -/
theorem createToken (h : store.Loosens loose other) (htoken : token.Loosens may token')
    (hmay : may → loose token.category) (hdead : loose .consonant → loose .deadConsonant)
    (hignores : store.ignoresDuplicates = true) :
    (other.createToken token').1 = (store.createToken token).1 ∧
      (store.createToken token).2.Loosens loose (other.createToken token').2 := by
  have hignores' : other.ignoresDuplicates = true := h.ignores_eq.trans hignores
  rw [createToken_eq, createToken_eq, h.vet_eq htoken, hignores, hignores']
  cases store.vet token with
  | error refusal => exact ⟨rfl, h⟩
  | ok _ => exact ⟨rfl, h.append (h.missing (h.entriesIn htoken hmay hdead))⟩

/-- Operations have the same result in related stores that pass over duplicates, and leave them
related. -/
theorem perform (h : store.Loosens loose other) (operation : Operation)
    (hdead : loose .consonant → loose .deadConsonant) (hignores : store.ignoresDuplicates = true) :
    (other.perform operation).1 = (store.perform operation).1 ∧
      (store.perform operation).2.Loosens loose (other.perform operation).2 := by
  rcases perform_cases store operation with ⟨token, rfl, -⟩ | ⟨rfl, -⟩ | ⟨option, rfl, -⟩ |
    ⟨_, _, _, _, hdescribed⟩
  · exact h.createToken (.refl token) False.elim hdead hignores
  · have hfails : other.failsFlush = store.failsFlush := by rw [h.rest]
    simp only [TokenStore.perform, TokenStore.flush, hfails]
    split
    · exact ⟨rfl, h⟩
    · exact ⟨rfl, { flushed := h.stored, buffer := .nil, rest := by rw [h.rest] }⟩
  · refine ⟨rfl, ?_⟩
    cases option <;>
      exact { flushed := h.flushed, buffer := h.buffer, rest := by rw [h.rest]; rfl }
  · have hstore : store.perform operation = _ := hdescribed store.flushed store.buffer
    have hother := hdescribed other.flushed other.buffer
    rw [← h.rest] at hother
    rw [hstore, hother]
    exact ⟨rfl, { flushed := h.flushed, buffer := h.buffer, rest := rfl }⟩

end Loosens

variable {store : TokenStore} {token other : Token}

/-- Appended tokens matter to the forms of a consonant only if there is a virama among them. -/
theorem forms_append (store : TokenStore) (token : Token) (tokens : List Token)
    (h : token.category = .consonant → ∀ added ∈ tokens, added.category ≠ .virama) :
    (store.append tokens).vet token = store.vet token ∧
      (store.append tokens).entries token = store.entries token := by
  by_cases hconsonant : token.category = .consonant
  · have hnone : (tokens.find? fun added => added.category == .virama) = none :=
      List.find?_eq_none.mpr fun added hadded => by simpa using h hconsonant added hadded
    have hvirama : (store.append tokens).virama? = store.virama? := by
      rw [virama?, stored_append, List.find?_append, hnone, Option.or_none]
      rfl
    have htakes : (store.append tokens).takesForDead token = store.takesForDead token := by
      unfold takesForDead
      rw [hvirama]
      rfl
    have hderived : (store.append tokens).derived? token = store.derived? token := by
      unfold derived?
      rw [htakes, hvirama]
      rfl
    refine ⟨?_, ?_⟩
    · simp only [vet_eq, hvirama, hderived]
      rfl
    · rw [entries, entries, hderived, normalForm, normalForm, htakes]
  · obtain ⟨hnone, hnormal⟩ :=
      derived?_of_not_inferring store token fun hboth => hconsonant hboth.1
    obtain ⟨hnone', hnormal'⟩ :=
      derived?_of_not_inferring (store.append tokens) token fun hboth => hconsonant hboth.1
    refine ⟨?_, ?_⟩
    · simp only [vet_eq, hconsonant, hnone, hnone']
      rfl
    · rw [entries, entries, hnone, hnone', hnormal, hnormal']

/-- Creating a token leaves a store as it is. -/
def Digests (store : TokenStore) (token : Token) : Prop := (store.createToken token).2 = store

/-- A token is digested when it is refused or has nothing to add: all its entries are held, or one
of them is, where duplicates are refused. -/
theorem digests_iff (store : TokenStore) (token : Token) :
    store.Digests token ↔
      (store.vet token = .ok () →
        if store.ignoresDuplicates then ∀ entry ∈ store.entries token, store.holds entry = true
        else ∃ entry ∈ store.entries token, store.holds entry = true) := by
  have hbuffer (tokens : List Token) : store.append tokens = store ↔ tokens = [] := by
    constructor
    · intro heq
      simpa [append] using congrArg TokenStore.buffer heq
    · rintro rfl
      exact append_nil store
  rw [Digests, createToken_eq]
  cases store.vet token with
  | error refusal => simp
  | ok _ =>
    by_cases hignores : store.ignoresDuplicates = true
    · simp [hignores, hbuffer, missing, List.filter_eq_nil_iff]
    · cases hfound : (store.entries token).find? store.holds with
      | some entry =>
        have hheld : ∃ entry ∈ store.entries token, store.holds entry = true :=
          ⟨entry, List.mem_of_find?_eq_some hfound, List.find?_some hfound⟩
        simpa [hignores] using hheld
      | none =>
        have hsome : store.entries token ≠ [] := by simp [entries]
        simpa [hignores, hbuffer, hsome] using List.find?_eq_none.mp hfound

/-- No virama is stored for a consonant. -/
theorem ne_virama_of_mem_entries (store : TokenStore) {token entry : Token}
    (hconsonant : token.category = .consonant) (hentry : entry ∈ store.entries token) :
    entry.category ≠ .virama := by
  rcases category_of_mem_entries store token entry hentry with hsame | ⟨_, hdead⟩
  · simp [hsame, hconsonant]
  · simp [hdead]

/-- A digested token stays digested when tokens are appended, but for a consonant and viramas. -/
theorem Digests.append (h : store.Digests token) {tokens : List Token}
    (hsteady : token.category = .consonant → ∀ added ∈ tokens, added.category ≠ .virama) :
    (store.append tokens).Digests token := by
  obtain ⟨hvet, hentries⟩ := forms_append store token tokens hsteady
  have hstill (entry : Token) (hheld : store.holds entry = true) :
      (store.append tokens).holds entry = true := by
    rw [holds_append, hheld, Bool.true_or]
  have hsame : (store.append tokens).ignoresDuplicates = store.ignoresDuplicates := rfl
  rw [digests_iff] at h ⊢
  rw [hvet, hentries, hsame]
  intro hok
  have hheld := h hok
  by_cases hignores : store.ignoresDuplicates = true
  · rw [if_pos hignores] at hheld ⊢
    exact fun entry hentry => hstill entry (hheld entry hentry)
  · rw [if_neg hignores] at hheld ⊢
    obtain ⟨entry, hentry, hfound⟩ := hheld
    exact ⟨entry, hentry, hstill entry hfound⟩

/-- Creating a token changes no switch. -/
theorem ignores_createToken (store : TokenStore) (token : Token) :
    (store.createToken token).2.ignoresDuplicates = store.ignoresDuplicates := by
  obtain ⟨new, -, hleft⟩ := store.exists_append_createToken token
  rw [hleft]
  rfl

/-- No operation makes a store refuse duplicates, but the one that sets this switch. -/
theorem ignores_perform (store : TokenStore) (operation : Operation)
    (hignores : store.ignoresDuplicates = true)
    (hnot : operation ≠ .configure (.ignoreDuplicates false)) :
    (store.perform operation).2.ignoresDuplicates = true := by
  rcases perform_cases store operation with ⟨_, -, _, -, hleft⟩ | ⟨-, hleft | hleft⟩ |
    ⟨option, rfl, hleft⟩ | ⟨_, _, _, _, hdescribed⟩
  · rw [hleft]; exact hignores
  · rw [hleft]; exact hignores
  · rw [hleft]; exact hignores
  · rw [hleft]
    cases option with
    | inferDeadConsonants enabled => exact hignores
    | inherentVowel letter => exact hignores
    | ignoreDuplicates enabled =>
      cases enabled with
      | true => rfl
      | false => exact absurd rfl hnot
  · have hleft := hdescribed store.flushed store.buffer
    exact (congrArg (fun ran => ran.2.ignoresDuplicates) hleft).trans hignores

/-- A token that was created is digested. -/
theorem digests_createToken (store : TokenStore) (token : Token) :
    (store.createToken token).2.Digests token := by
  cases hresult : (store.createToken token).1 with
  | error refusal =>
    rw [createToken_of_error store token hresult]
    exact createToken_of_error store token hresult
  | ok _ =>
    obtain ⟨new, hnew, hleft⟩ := store.exists_append_createToken token
    have hheld := holds_of_createToken_ok store token hresult
    rw [hleft] at hheld ⊢
    -- What the token added does not change what it would add now.
    have hentries := (forms_append store token new fun hconsonant added hadded =>
      ne_virama_of_mem_entries store hconsonant (hnew hadded)).2
    rw [digests_iff, hentries]
    intro _
    split
    · exact hheld
    · have hnormal : store.normalForm token ∈ store.entries token :=
        List.mem_append_right _ (List.mem_singleton_self _)
      exact ⟨_, hnormal, hheld _ hnormal⟩

/-- A digested token stays digested when another one of its category is created. -/
theorem Digests.createToken (h : store.Digests token)
    (hcategory : other.category = token.category) :
    (store.createToken other).2.Digests token := by
  obtain ⟨new, hnew, hleft⟩ := store.exists_append_createToken other
  rw [hleft]
  exact h.append fun hconsonant added hadded =>
    ne_virama_of_mem_entries store (hcategory.trans hconsonant) (hnew hadded)

/-- Where duplicates are passed over, whether a token is accepted does not depend on others of its
category that were created before. -/
theorem result_createToken_of_ignores (store : TokenStore)
    (hignores : store.ignoresDuplicates = true) (hcategory : other.category = token.category) :
    ((store.createToken other).2.createToken token).1 = (store.createToken token).1 := by
  obtain ⟨new, hnew, hleft⟩ := store.exists_append_createToken other
  have hvet := (forms_append store token new fun hconsonant added hadded =>
    ne_virama_of_mem_entries store (hcategory.trans hconsonant) (hnew hadded)).1
  have hignores' : (store.append new).ignoresDuplicates = true := hignores
  rw [hleft, createToken_eq, createToken_eq, hvet, hignores, hignores']
  cases store.vet token <;> rfl

end TokenStore

end TranslitScheme
