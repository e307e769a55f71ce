import TranslitScheme.Proofs.Derivation.InherentVowel
import TranslitScheme.Proofs.Store.Invariant

/-!
# Dead forms of stored consonants

While dead consonants are inferred, no consonant is stored without its dead form. The store looks
the virama up anew for every consonant, and it finds the same one each time, as tokens are only
stored behind others. So what was checked and derived when a consonant came in still fits all that
came in later, and a dead form that was passed over as a duplicate is there as well.

`run_covers_consonants` says so for every moment of a run in which the inference and the inherent
vowel are settled before the first consonant.
-/

namespace TranslitScheme.TokenStore

/-- The inference of dead consonants stays on, and the inherent vowel stays the same letter. -/
def Operation.KeepsInference (letter : Char) : Operation → Prop
  | .configure (.inferDeadConsonants enabled) => enabled = true
  | .configure (.inherentVowel other) => other = letter
  | _ => True

/-- A consonant is open, as its value does not end in the first virama, and its dead form is held
if its pattern shows the inherent vowel. -/
def Covers (store : TokenStore) (letter : Char) (consonant : Token) : Prop :=
  ∃ virama, store.virama? = some virama ∧
    Text.endsWith consonant.value1 virama.value1 = false ∧
    (Pattern.hasInherentVowel consonant.pattern letter = true →
      store.holds (consonant.deadForm virama.value1) = true)

/-- Dead consonants are inferred by an inherent vowel, and all stored consonants are covered. -/
structure Inferring (store : TokenStore) (letter : Char) : Prop where
  infers : store.infersDeadConsonants = true
  inherentVowel : store.inherentVowel = letter
  covers : ∀ consonant ∈ store.stored, consonant.category = .consonant →
    store.Covers letter consonant

/-- The first virama remains the first when more tokens are stored. -/
theorem virama?_append {store : TokenStore} {virama : Token} (tokens : List Token)
    (h : store.virama? = some virama) : (store.append tokens).virama? = some virama := by
  rw [virama?] at h ⊢
  rw [stored_append, List.find?_append, h]
  rfl

/-- A consonant stays covered when more tokens are stored. -/
theorem Covers.append {store : TokenStore} {letter : Char} {consonant : Token}
    (tokens : List Token) (h : store.Covers letter consonant) :
    (store.append tokens).Covers letter consonant := by
  obtain ⟨virama, hvirama, hopen, hdead⟩ := h
  refine ⟨virama, virama?_append tokens hvirama, hopen, fun hshown => ?_⟩
  rw [holds_append, hdead hshown, Bool.true_or]

/-- No consonant is admitted before there is a virama, while dead consonants are inferred. -/
theorem exists_virama_of_vet_ok {store : TokenStore} {token : Token}
    (hvet : store.vet token = .ok ()) (hconsonant : token.category = .consonant)
    (hinfers : store.infersDeadConsonants = true) : ∃ virama, store.virama? = some virama := by
  cases hvirama : store.virama? with
  | some virama => exact ⟨virama, rfl⟩
  | none =>
    have hinspect := (of_vet_ok store token hvet).1
    simp [vet_eq, hinspect, hconsonant, hinfers, hvirama] at hvet

/-- Among the entries of a token, a consonant is the token itself, which is then not taken for a
dead one. -/
theorem eq_of_mem_entries_consonant {store : TokenStore} {token entry : Token}
    (hentry : entry ∈ store.entries token) (hconsonant : entry.category = .consonant) :
    entry = token ∧ store.takesForDead token = false := by
  rcases List.mem_append.mp hentry with hderived | hnormal
  · have hdead := (category_of_derived? store token entry (Option.mem_toList.mp hderived)).1
    simp [hdead] at hconsonant
  · rw [List.mem_singleton.mp hnormal] at hconsonant ⊢
    unfold normalForm at hconsonant ⊢
    split at hconsonant
    · contradiction
    · rename_i htakes
      rw [category_withZeroWidth] at hconsonant
      rw [if_neg htakes]
      exact ⟨withZeroWidth_eq_self token (by simp [hconsonant]) (by simp [hconsonant]),
        by simpa using htakes⟩

/-- The dead form of an open consonant that shows the inherent vowel is derived. -/
theorem derived?_of_open {store : TokenStore} {token virama : Token}
    (hconsonant : token.category = .consonant) (hinfers : store.infersDeadConsonants = true)
    (hvirama : store.virama? = some virama) (hopen : store.takesForDead token = false)
    (hshown : Pattern.hasInherentVowel token.pattern store.inherentVowel = true) :
    store.derived? token = some (token.deadForm virama.value1) := by
  simp [derived?, hconsonant, hinfers, hopen, hshown, hvirama]

/-- A consonant that is accepted is covered afterwards, whether its dead form was missing or held
before. -/
theorem covers_of_createToken_ok {store : TokenStore} {letter : Char} {token : Token}
    (h : store.Inferring letter) (hok : (store.createToken token).1 = .ok ())
    (hconsonant : token.category = .consonant) (hopen : store.takesForDead token = false) :
    (store.createToken token).2.Covers letter token := by
  obtain ⟨hvet, happended, -⟩ := createToken_of_ok store token hok
  obtain ⟨virama, hvirama⟩ := exists_virama_of_vet_ok hvet hconsonant h.infers
  refine ⟨virama, ?_, ?_, fun hshown => ?_⟩
  · rw [happended]
    exact virama?_append _ hvirama
  · simpa [takesForDead, hconsonant, h.infers, hvirama] using hopen
  · rw [← h.inherentVowel] at hshown
    have hderived := derived?_of_open hconsonant h.infers hvirama hopen hshown
    apply holds_of_createToken_ok store token hok
    simp [entries, hderived]

/-- An operation stores tokens behind those that are stored already, and they are entries of a token
that it creates. -/
theorem exists_append_perform (store : TokenStore) (operation : Operation) :
    ∃ new, (store.perform operation).2.stored = store.stored ++ new ∧
      ∀ entry ∈ new, ∃ token, operation = .createToken token ∧ entry ∈ store.entries token := by
  by_cases hcreate : ∃ token, operation = .createToken token
  · obtain ⟨token, rfl⟩ := hcreate
    obtain ⟨new, hnew, hleft⟩ := store.exists_append_createToken token
    exact ⟨new, (congrArg stored hleft).trans (stored_append store new),
      fun entry hentry => ⟨token, rfl, hnew hentry⟩⟩
  · rw [stored_perform store operation fun token htoken => hcreate ⟨token, htoken⟩]
    exact ⟨[], (List.append_nil _).symm, by simp⟩

/-- What is stored stays stored in a run. -/
theorem stored_subset_run (store : TokenStore) (operations : List Operation) :
    store.stored ⊆ (store.run operations).stored := by
  induction operations generalizing store with
  | nil => exact List.Subset.refl _
  | cons operation rest ih =>
    obtain ⟨new, hstored, -⟩ := exists_append_perform store operation
    intro token htoken
    apply ih
    rw [hstored]
    exact List.mem_append_left new htoken

/-- Only configuring a store sets its switches. -/
theorem switches_perform (store : TokenStore) (operation : Operation)
    (h : ∀ option, operation ≠ .configure option) :
    (store.perform operation).2.infersDeadConsonants = store.infersDeadConsonants ∧
      (store.perform operation).2.inherentVowel = store.inherentVowel := by
  rcases perform_cases store operation with ⟨_, -, _, -, hleft⟩ | ⟨-, hleft | hleft⟩ |
    ⟨option, hoption, -⟩ | ⟨_, _, _, _, hdescribed⟩
  · rw [hleft]; exact ⟨rfl, rfl⟩
  · rw [hleft]; exact ⟨rfl, rfl⟩
  · rw [hleft]; exact ⟨rfl, rfl⟩
  · exact absurd hoption (h option)
  · have hleft := hdescribed store.flushed store.buffer
    exact ⟨congrArg (fun ran => ran.2.infersDeadConsonants) hleft,
      congrArg (fun ran => ran.2.inherentVowel) hleft⟩

/-- Creating a token leaves all stored consonants covered. -/
theorem Inferring.createToken {store : TokenStore} {letter : Char} (h : store.Inferring letter)
    (token : Token) : (store.createToken token).2.Inferring letter where
  infers := (switches_perform store (.createToken token) (by simp)).1.trans h.infers
  inherentVowel := (switches_perform store (.createToken token) (by simp)).2.trans h.inherentVowel
  covers := by
    cases hresult : (store.createToken token).1 with
    | error refusal =>
      rw [createToken_of_error store token hresult]
      exact h.covers
    | ok _ =>
      obtain ⟨new, hstored, hnew⟩ := exists_append_perform store (.createToken token)
      intro consonant hmem hconsonant
      change consonant ∈ (store.perform (.createToken token)).2.stored at hmem
      rw [hstored] at hmem
      rcases List.mem_append.mp hmem with hold | hadded
      · rw [(createToken_of_ok store token hresult).2.1]
        exact (h.covers consonant hold hconsonant).append _
      · obtain ⟨created, hcreated, hentry⟩ := hnew consonant hadded
        cases hcreated
        obtain ⟨rfl, hopen⟩ := eq_of_mem_entries_consonant hentry hconsonant
        exact covers_of_createToken_ok h hresult hconsonant hopen

/-- What stores the same tokens under the same switches leaves them covered. -/
theorem Inferring.congr {store changed : TokenStore} {letter : Char} (h : store.Inferring letter)
    (hstored : changed.stored = store.stored) (hinfers : changed.infersDeadConsonants = true)
    (hletter : changed.inherentVowel = letter) : changed.Inferring letter where
  infers := hinfers
  inherentVowel := hletter
  covers := by
    have hvirama : changed.virama? = store.virama? := by rw [virama?, virama?, hstored]
    have hholds : changed.holds = store.holds := by
      funext token
      rw [holds, holds, hstored]
    rw [hstored]
    intro consonant hmem hconsonant
    have hcovers := h.covers consonant hmem hconsonant
    rwa [Covers, ← hvirama, ← hholds] at hcovers

/-- Every operation leaves all stored consonants covered, if it leaves the inference on and the
inherent vowel as it is. -/
theorem Inferring.perform {store : TokenStore} {letter : Char} (h : store.Inferring letter)
    (operation : Operation) (hkeeps : operation.KeepsInference letter) :
    (store.perform operation).2.Inferring letter := by
  have hstored := stored_perform store operation
  have hswitches := switches_perform store operation
  cases operation with
  | createToken token => exact h.createToken token
  | configure option =>
    cases option with
    | inferDeadConsonants enabled => exact h.congr (hstored (by simp)) hkeeps h.inherentVowel
    | ignoreDuplicates enabled => exact h.congr (hstored (by simp)) h.infers h.inherentVowel
    | inherentVowel other => exact h.congr (hstored (by simp)) h.infers hkeeps
  | _ =>
    obtain ⟨hinfers, hletter⟩ := hswitches (by simp)
    exact h.congr (hstored (by simp)) (hinfers.trans h.infers) (hletter.trans h.inherentVowel)

/-- So does a run of such operations. -/
theorem Inferring.run {store : TokenStore} {letter : Char} (h : store.Inferring letter)
    (operations : List Operation)
    (hkeeps : ∀ operation ∈ operations, operation.KeepsInference letter) :
    (store.run operations).Inferring letter := by
  induction operations generalizing store with
  | nil => exact h
  | cons operation rest ih =>
    apply ih (h.perform operation (hkeeps operation List.mem_cons_self))
    intro other hother
    exact hkeeps other (List.mem_cons_of_mem _ hother)

/-- A run in two parts. -/
theorem run_append (store : TokenStore) (first second : List Operation) :
    store.run (first ++ second) = (store.run first).run second := by
  simp [TokenStore.run, List.foldl_append]

/-- While dead consonants are inferred, every stored consonant has its dead form. Take a run on a
new store in which the inference is on and the inherent vowel is a given letter before the first
consonant is stored, and in which neither is changed afterwards. At every moment of it, if there
is a consonant then there is a virama. The value of no consonant ends in the value of the first
virama, and if the pattern of a consonant shows the inherent vowel, then a dead consonant is stored
whose pattern lacks that last letter and whose value has the value of the virama behind it. -/
theorem run_covers_consonants (rejections : List (String × String)) (failsFlush : Bool)
    (before after : List Operation) (letter : Char)
    (hbefore : ∀ token ∈ (TokenStore.run { rejections, failsFlush } before).stored,
      token.category ≠ .consonant)
    (hinfers : (TokenStore.run { rejections, failsFlush } before).infersDeadConsonants = true)
    (hletter : (TokenStore.run { rejections, failsFlush } before).inherentVowel = letter)
    (hafter : ∀ operation ∈ after, operation.KeepsInference letter)
    (seen : List Operation) (hseen : seen <+: before ++ after) :
    let store := TokenStore.run { rejections, failsFlush } seen
    ∀ consonant ∈ store.stored, consonant.category = .consonant →
      ∃ virama, store.virama? = some virama ∧
        ¬ virama.value1.toList <:+ consonant.value1.toList ∧
        ∀ front last, consonant.pattern.toList = front ++ [last, letter] → last ≠ letter →
          ∃ dead ∈ store.stored, dead.category = .deadConsonant ∧
            dead.pattern = String.ofList (front ++ [last]) ∧
            dead.value1 = consonant.value1 ++ virama.value1 := by
  intro store consonant hstored hconsonant
  have hcovers : store.Covers letter consonant := by
    rcases List.prefix_or_prefix_of_prefix hseen (List.prefix_append before after) with
      ⟨rest, rfl⟩ | ⟨rest, rfl⟩
    · -- The inference need not be settled yet, but there is no consonant either.
      rw [run_append] at hbefore
      exact absurd hconsonant (hbefore consonant (stored_subset_run _ rest hstored))
    · have hrest : rest <+: after := (List.prefix_append_right_inj before).mp hseen
      have hsettled : (TokenStore.run { rejections, failsFlush } before).Inferring letter :=
        ⟨hinfers, hletter, fun token hmem htoken => absurd htoken (hbefore token hmem)⟩
      have hinferring := hsettled.run rest fun operation hmem =>
        hafter operation (hrest.subset hmem)
      rw [← run_append] at hinferring
      exact hinferring.covers consonant hstored hconsonant
  obtain ⟨virama, hvirama, hopen, hdead⟩ := hcovers
  refine ⟨virama, hvirama, ?_, fun front last hpattern hlast => ?_⟩
  · intro hends
    rw [← List.isSuffixOf_iff_suffix] at hends
    exact absurd hends (Bool.eq_false_iff.mp hopen)
  · have hshown : Pattern.hasInherentVowel consonant.pattern letter = true :=
      (Pattern.hasInherentVowel_iff _ _).mpr ⟨front, last, hpattern, hlast⟩
    obtain ⟨dead, hmem, hsame⟩ := List.any_eq_true.mp (hdead hshown)
    obtain ⟨hcategory, hdeadPattern, hvalue⟩ := (sameEntry_iff _ _).mp hsame
    refine ⟨dead, hmem, hcategory, ?_, hvalue⟩
    rw [hdeadPattern]
    exact Pattern.withoutLast_of_toList hpattern

/-- The inference is switched on, with an inherent vowel of its own, and a virama is there. -/
def settling : List Operation :=
  [.configure (.inferDeadConsonants true), .configure (.inherentVowel 'o'),
    .createToken { category := .virama, pattern := "~", value1 := "x" }]

/-- A dead consonant is declared before its consonant is, and another virama comes in between. -/
def declaring : List Operation :=
  [.createToken { category := .deadConsonant, pattern := "k", value1 := "Kx" },
    .createToken { category := .consonant, pattern := "ko", value1 := "K" }, .flush,
    .createToken { category := .virama, pattern := "^", value1 := "y" },
    .createToken { category := .consonant, pattern := "go", value1 := "G" },
    .createToken { category := .consonant, pattern := "noo", value1 := "Nx" }]

/-- The later consonant has a dead form as well, by the first of the two viramas. -/
theorem run_covers_consonants_twoViramas :
    let store := TokenStore.run { rejections := [("q", "none")] } (settling ++ declaring)
    let consonant : Token := { category := .consonant, pattern := "go", value1 := "G" }
    consonant ∈ store.stored ∧ ∃ dead ∈ store.stored, dead.category = .deadConsonant ∧
      dead.pattern = "g" ∧ dead.value1 = "Gx" := by
  intro store consonant
  have hmem : consonant ∈ store.stored := by decide +kernel
  have hvirama : store.virama? = some { category := .virama, pattern := "~", value1 := "x" } := by
    decide +kernel
  obtain ⟨virama, hfirst, -, hdead⟩ := run_covers_consonants [("q", "none")] false settling
    declaring 'o' (by decide +kernel) (by decide +kernel) (by decide +kernel)
    (by simp [declaring, Operation.KeepsInference]) _ List.prefix_rfl consonant hmem rfl
  obtain rfl : _ = virama := Option.some.inj (hvirama.symm.trans hfirst)
  exact ⟨hmem, hdead [] 'g' (by decide) (by decide)⟩

end TranslitScheme.TokenStore
