import TranslitScheme.Proofs.Store.Invariant

/-!
# Where stored tokens come from

A store can be told to refuse the tokens of a pattern. It looks at the pattern of the token that is
handed in, so that every token that is stored under a pattern of its own was handed in under one
that is not refused. A dead form is the only token that is stored under another pattern, and nobody
looks at that one again: `rejected_patterns_from_deadForms` says that it is the only way for a
refused pattern into the store.
-/

namespace TranslitScheme.TokenStore

/-- The patterns whose tokens a store refuses. -/
def rejectedPatterns (store : TokenStore) : List String := store.rejections.map Prod.fst

/-- Where a stored token comes from: from a token that was handed in with the same pattern, or from
a consonant that was handed in, as its dead form. The pattern that was handed in is not refused. -/
inductive Origin (store : TokenStore) (handedIn : Token → Prop) : Token → Prop where
  | own {token given : Token} : handedIn given → given.pattern ∉ store.rejectedPatterns →
      token.pattern = given.pattern → Origin store handedIn token
  | deadForm {consonant virama : Token} : handedIn consonant →
      consonant.pattern ∉ store.rejectedPatterns → consonant.category = .consonant →
      virama ∈ store.stored → virama.category = .virama →
      Origin store handedIn (consonant.deadForm virama.value1)

variable {store : TokenStore} {handedIn : Token → Prop} {token : Token}

/-- A token that passes its inspection has no refused pattern. -/
theorem pattern_of_inspect_ok (h : store.inspect token = .ok ()) :
    token.pattern ∉ store.rejectedPatterns := by
  intro hmem
  obtain ⟨rejection, hrejection, hpattern⟩ := List.mem_map.mp hmem
  have hfound : store.rejections.lookup token.pattern ≠ none := by
    intro hnone
    have hother := List.lookup_eq_none_iff.mp hnone rejection hrejection
    exact absurd hpattern.symm (by simpa using hother)
  unfold inspect at h
  split at h
  · contradiction
  · rename_i hnone
    exact hfound hnone

/-- A dead form is made with a virama that is stored. -/
theorem exists_virama_of_derived? {dead : Token} (h : store.derived? token = some dead) :
    token.category = .consonant ∧ ∃ virama ∈ store.stored, virama.category = .virama ∧
      dead = token.deadForm virama.value1 := by
  unfold derived? at h
  split at h
  · rename_i hall
    obtain ⟨virama, hvirama, rfl⟩ := Option.map_eq_some_iff.mp h
    exact ⟨hall.1, virama, List.mem_of_find?_eq_some hvirama,
      by simpa using List.find?_some hvirama, rfl⟩
  · contradiction

/-- What is stored for an admitted token comes from it. -/
theorem origin_of_mem_entries (hvet : store.vet token = .ok ()) (hgiven : handedIn token)
    {entry : Token} (hentry : entry ∈ store.entries token) : store.Origin handedIn entry := by
  have hpattern := pattern_of_inspect_ok (of_vet_ok store token hvet).1
  rcases List.mem_append.mp hentry with hderived | hnormal
  · obtain ⟨hconsonant, virama, hstored, hvirama, rfl⟩ :=
      exists_virama_of_derived? (Option.mem_toList.mp hderived)
    exact .deadForm hgiven hpattern hconsonant hstored hvirama
  · refine .own hgiven hpattern ?_
    rw [List.mem_singleton.mp hnormal, pattern_normalForm]

/-- An origin stays one in a store that refuses the same and holds no less. -/
theorem Origin.mono (h : store.Origin handedIn token) {later : TokenStore}
    (hrejections : later.rejections = store.rejections) (hstored : store.stored ⊆ later.stored) :
    later.Origin handedIn token := by
  have hrejected : later.rejectedPatterns = store.rejectedPatterns :=
    congrArg (List.map Prod.fst) hrejections
  cases h with
  | own hgiven hpattern hsame => exact .own hgiven (hrejected ▸ hpattern) hsame
  | deadForm hgiven hpattern hconsonant hvirama hcategory =>
    exact .deadForm hgiven (hrejected ▸ hpattern) hconsonant (hstored hvirama) hcategory

/-- A token that is handed in adds only tokens that come from it. -/
theorem origin_createToken (hgiven : handedIn token)
    (hstore : ∀ other ∈ store.stored, store.Origin handedIn other) :
    ∀ other ∈ (store.createToken token).2.stored,
      (store.createToken token).2.Origin handedIn other := by
  cases hresult : (store.createToken token).1 with
  | error refusal =>
    rw [createToken_of_error store token hresult]
    exact hstore
  | ok _ =>
    obtain ⟨hvet, hleft, -⟩ := createToken_of_ok store token hresult
    rw [hleft]
    have hgrows : store.stored ⊆ (store.append (store.missing (store.entries token))).stored := by
      rw [stored_append]
      exact List.subset_append_left _ _
    intro other hother
    rw [stored_append] at hother
    rcases List.mem_append.mp hother with hold | hnew
    · exact (hstore other hold).mono rfl hgrows
    · exact (origin_of_mem_entries hvet hgiven (List.mem_filter.mp hnew).1).mono rfl hgrows

/-- After any run of operations on a new store, whatever it refuses, all stored tokens come from
tokens that were handed in. -/
theorem origin_of_mem_stored (rejections : List (String × String)) (failsFlush : Bool)
    (operations : List Operation) :
    let store := TokenStore.run { rejections, failsFlush } operations
    store.rejections = rejections ∧ ∀ token ∈ store.stored,
      store.Origin (fun given => .createToken given ∈ operations) token := by
  refine run_invariant_of_mem (fun store : TokenStore =>
    store.rejections = rejections ∧ ∀ token ∈ store.stored,
      store.Origin (fun given => .createToken given ∈ operations) token)
    (fun store operation hoperation ⟨hrejections, hstored⟩ => ?_) ⟨rfl, by simp [stored]⟩
  have hkept := (rejections_perform store operation).1
  refine ⟨hkept.trans hrejections, ?_⟩
  by_cases hcreate : ∃ token, operation = .createToken token
  · obtain ⟨token, rfl⟩ := hcreate
    exact origin_createToken hoperation hstored
  · have hsame := stored_perform store operation fun token htoken => hcreate ⟨token, htoken⟩
    intro token htoken
    exact (hstored token (hsame ▸ htoken)).mono hkept (hsame ▸ List.Subset.refl _)

/-- Refused patterns get into a store only through dead forms. After any run of operations on a new
store, a stored token whose pattern is refused is the dead form of a consonant that was handed in
under another pattern, which is not refused, made with a virama that is stored. -/
theorem rejected_patterns_from_deadForms (rejections : List (String × String)) (failsFlush : Bool)
    (operations : List Operation) :
    let store := TokenStore.run { rejections, failsFlush } operations
    ∀ token ∈ store.stored, token.pattern ∈ rejections.map Prod.fst →
      ∃ consonant virama, .createToken consonant ∈ operations ∧
        consonant.category = .consonant ∧ consonant.pattern ∉ rejections.map Prod.fst ∧
        virama ∈ store.stored ∧ virama.category = .virama ∧
        token = consonant.deadForm virama.value1 := by
  intro store token htoken hrejected
  obtain ⟨hrejections, hstored⟩ := origin_of_mem_stored rejections failsFlush operations
  have hpatterns : store.rejectedPatterns = rejections.map Prod.fst :=
    congrArg (List.map Prod.fst) hrejections
  have horigin := hstored token htoken
  cases horigin with
  | own _ hpattern hsame => exact absurd (hpatterns ▸ hsame ▸ hrejected) hpattern
  | deadForm hgiven hpattern hconsonant hvirama hcategory =>
    exact ⟨_, _, hgiven, hconsonant, hpatterns ▸ hpattern, hvirama, hcategory, rfl⟩

/-- A virama and a consonant are declared while dead consonants are derived. -/
def derivingOne : List Operation :=
  [.configure (.inferDeadConsonants true),
    .createToken { category := .virama, pattern := "~", value1 := "x" },
    .createToken { category := .consonant, pattern := "ka", value1 := "K" }]

/-- The dead form of `ka` is stored although its pattern is refused, and comes from `ka`. -/
theorem rejected_patterns_from_deadForms_derivingOne :
    let store := TokenStore.run { rejections := [("k", "no")] } derivingOne
    let dead : Token := { category := .deadConsonant, pattern := "k", value1 := "Kx" }
    dead ∈ store.stored ∧ dead.pattern ∈ [("k", "no")].map Prod.fst ∧
      ∃ consonant virama, .createToken consonant ∈ derivingOne ∧
        consonant.category = .consonant ∧ consonant.pattern ∉ [("k", "no")].map Prod.fst ∧
        virama ∈ store.stored ∧ virama.category = .virama ∧
        dead = consonant.deadForm virama.value1 := by
  intro store dead
  have hstored : dead ∈ store.stored := by decide +kernel
  have hrejected : dead.pattern ∈ [("k", "no")].map Prod.fst := by decide
  exact ⟨hstored, hrejected,
    rejected_patterns_from_deadForms [("k", "no")] false derivingOne dead hstored hrejected⟩

/-- A store that refuses the pattern `k` holds a token with that pattern. -/
theorem stores_rejected_pattern :
    ¬ ∀ token ∈ (TokenStore.run { rejections := [("k", "no")] } derivingOne).stored,
      token.pattern ∉ ["k"] := by
  decide +kernel

end TranslitScheme.TokenStore
