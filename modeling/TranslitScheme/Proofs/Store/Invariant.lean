import TranslitScheme.Proofs.Store.Operation

/-!
# What a store holds

The invariant of the token store: stored tokens are different entries, none has a blank pattern
or first value, all their texts are short enough, and joiners have their zero-width values.

Creating a token checks the token before it changes it, so the invariant is shown entry by entry:
`storable_of_mem_entries` covers the dead form, the consonant that is taken for a dead one and the
joiners. Runs of operations keep the invariant by `run_invariant`.
-/

namespace TranslitScheme

/-- What is true of every stored token by itself. -/
structure Token.Storable (token : Token) : Prop where
  pattern_ne : token.pattern ≠ ""
  value1_ne : token.value1 ≠ ""
  bytes_le : ∀ text ∈ [token.pattern, token.value1, token.value2, token.value3, token.tag],
    text.utf8ByteSize ≤ 30
  nonJoiner : token.category = .nonJoiner → token.value1 = "\u200c" ∧ token.value2 = "\u200c"
  joiner : token.category = .joiner → token.value1 = "\u200d" ∧ token.value2 = "\u200d"

namespace TokenStore

/-- What is true of every store: no entry is stored twice, and all stored tokens are storable. -/
structure Sound (store : TokenStore) : Prop where
  distinct : store.stored.Pairwise fun token other =>
    ¬ (token.category = other.category ∧ token.pattern = other.pattern ∧
      token.value1 = other.value1)
  storable : ∀ token ∈ store.stored, token.Storable

/-- Fitting is a bound on each text. -/
theorem fits_iff (token : Token) :
    token.fits = true ↔
      ∀ text ∈ [token.pattern, token.value1, token.value2, token.value3, token.tag],
        text.utf8ByteSize ≤ 30 := by
  simp only [Token.fits, List.all_eq_true, decide_eq_true_eq]
  rfl

/-- A token passes its inspection only when it is neither blank nor too long. -/
theorem of_inspect_ok (store : TokenStore) (token : Token) (h : store.inspect token = .ok ()) :
    token.pattern ≠ "" ∧ token.value1 ≠ "" ∧ token.fits = true := by
  unfold inspect at h
  split at h
  · contradiction
  · split at h
    · contradiction
    · rename_i hblank
      split at h
      · rename_i hfits
        exact ⟨fun hp => hblank (Or.inl hp), fun hv => hblank (Or.inr hv), hfits⟩
      · contradiction

/-- An admitted token has passed its inspection, and so has the length of its dead form. -/
theorem of_vet_ok (store : TokenStore) (token : Token) (h : store.vet token = .ok ()) :
    store.inspect token = .ok () ∧ ∀ dead, store.derived? token = some dead → dead.fits = true := by
  rw [vet_eq] at h
  cases hinspect : store.inspect token with
  | error refusal => simp [hinspect] at h
  | ok _ =>
    refine ⟨rfl, fun dead hdead => ?_⟩
    simp only [hinspect, hdead] at h
    split at h
    · contradiction
    · split at h
      · rename_i hfits
        simpa using hfits
      · contradiction

/-- A text that shows an inherent vowel has a letter besides it. -/
theorem withoutLast_ne_of_hasInherentVowel (text : String) (inherent : Char)
    (h : Pattern.hasInherentVowel text inherent = true) : Pattern.withoutLast text ≠ "" := by
  unfold Pattern.hasInherentVowel at h
  intro hblank
  have hlast : text.toList.dropLast = [] := by
    simpa [Pattern.withoutLast] using congrArg String.toList hblank
  rw [← List.reverse_reverse text.toList, List.dropLast_reverse, List.reverse_eq_nil_iff] at hlast
  cases hletters : text.toList.reverse with
  | nil => simp [hletters, Pattern.endsInSingle] at h
  | cons last letters =>
    rw [hletters, List.tail_cons] at hlast
    simp [hletters, hlast, Pattern.endsInSingle] at h

/-- A derived dead form is storable. -/
theorem storable_of_derived? (store : TokenStore) (token dead : Token)
    (hvet : store.vet token = .ok ()) (h : store.derived? token = some dead) :
    dead.Storable := by
  obtain ⟨hinspect, hfits⟩ := of_vet_ok store token hvet
  obtain ⟨_, hvalue, _⟩ := of_inspect_ok store token hinspect
  have hcategory := (category_of_derived? store token dead h).1
  have hdeadFits := hfits dead h
  unfold derived? at h
  split at h
  · rename_i hall
    obtain ⟨virama, _, rfl⟩ := Option.map_eq_some_iff.mp h
    exact {
      pattern_ne := withoutLast_ne_of_hasInherentVowel _ _ hall.2.2.2
      value1_ne := by simp [Token.deadForm, hvalue]
      bytes_le := (fits_iff _).mp hdeadFits
      nonJoiner := fun hnon => by simp [hcategory] at hnon
      joiner := fun hjoiner => by simp [hcategory] at hjoiner }
  · contradiction

/-- Zero-width values make a token of any category storable that is short and not blank. -/
theorem storable_withZeroWidth (token : Token) (hpattern : token.pattern ≠ "")
    (hvalue : token.value1 ≠ "") (hfits : token.fits = true) : token.withZeroWidth.Storable := by
  have hbytes := (fits_iff token).mp hfits
  simp only [List.mem_cons, List.not_mem_nil, or_false, forall_eq_or_imp, forall_eq] at hbytes
  obtain ⟨hp, h1, h2, h3, htag⟩ := hbytes
  unfold Token.withZeroWidth
  split
  · rename_i hcategory
    exact {
      pattern_ne := hpattern
      value1_ne := by simp [Token.zeroWidthNonJoiner]
      bytes_le := by simp [hp, h3, htag, Token.zeroWidthNonJoiner]; decide
      nonJoiner := fun _ => ⟨rfl, rfl⟩
      joiner := fun hjoiner => by simp [hcategory] at hjoiner }
  · rename_i hcategory
    exact {
      pattern_ne := hpattern
      value1_ne := by simp [Token.zeroWidthJoiner]
      bytes_le := by simp [hp, h3, htag, Token.zeroWidthJoiner]; decide
      nonJoiner := fun hnon => by simp [hcategory] at hnon
      joiner := fun _ => ⟨rfl, rfl⟩ }
  · rename_i hnon hjoiner
    exact {
      pattern_ne := hpattern
      value1_ne := hvalue
      bytes_le := (fits_iff token).mp hfits
      nonJoiner := fun h => absurd h hnon
      joiner := fun h => absurd h hjoiner }

/-- All entries of an admitted token are storable. -/
theorem storable_of_mem_entries (store : TokenStore) (token entry : Token)
    (hvet : store.vet token = .ok ()) (hentry : entry ∈ store.entries token) :
    entry.Storable := by
  obtain ⟨hinspect, _⟩ := of_vet_ok store token hvet
  obtain ⟨hpattern, hvalue, hfits⟩ := of_inspect_ok store token hinspect
  rcases List.mem_append.mp hentry with hdead | hnormal
  · exact storable_of_derived? store token entry hvet (Option.mem_toList.mp hdead)
  · rw [List.mem_singleton.mp hnormal, normalForm]
    split
    · exact {
        pattern_ne := hpattern
        value1_ne := hvalue
        bytes_le := (fits_iff token).mp hfits
        nonJoiner := fun hnon => by simp at hnon
        joiner := fun hjoiner => by simp at hjoiner }
    · exact storable_withZeroWidth token hpattern hvalue hfits

/-- Being the same entry is agreement of category, pattern and first value. -/
theorem sameEntry_iff (token other : Token) :
    token.sameEntry other = true ↔
      token.category = other.category ∧ token.pattern = other.pattern ∧
        token.value1 = other.value1 := by
  simp [Token.sameEntry, and_assoc]

/-- The entries of a token are different ones. -/
theorem entries_pairwise (store : TokenStore) (token : Token) :
    (store.entries token).Pairwise fun first second => ¬ first.sameEntry second = true := by
  unfold entries
  cases hderived : store.derived? token with
  | none => simp
  | some dead => simp [not_sameEntry_of_derived? store token dead hderived]

/-- Appending what is missing of storable tokens that are different entries keeps the invariant. -/
theorem sound_append_missing (store : TokenStore) (tokens : List Token) (hstore : store.Sound)
    (hdistinct : tokens.Pairwise fun first second => ¬ first.sameEntry second = true)
    (hstorable : ∀ token ∈ tokens, token.Storable) :
    (store.append (store.missing tokens)).Sound where
  distinct := by
    rw [stored_append, List.pairwise_append]
    refine ⟨hstore.distinct, ?_, fun token htoken entry hentry => ?_⟩
    · exact (hdistinct.sublist List.filter_sublist).imp fun hne => by rwa [← sameEntry_iff]
    · have hfree : store.holds entry = false := by
        simpa using (List.mem_filter.mp hentry).2
      rw [← sameEntry_iff]
      exact List.any_eq_false.mp hfree token htoken
  storable := by
    intro token htoken
    rw [stored_append] at htoken
    rcases List.mem_append.mp htoken with hold | hnew
    · exact hstore.storable token hold
    · exact hstorable token (List.mem_filter.mp hnew).1

/-- Creating a token keeps the invariant, whether it is refused or stores one or two tokens. -/
theorem sound_createToken (store : TokenStore) (token : Token) (hstore : store.Sound) :
    (store.createToken token).2.Sound := by
  cases hresult : (store.createToken token).1 with
  | error refusal =>
    rw [createToken_of_error store token hresult]
    exact hstore
  | ok _ =>
    obtain ⟨hvet, happended, _⟩ := createToken_of_ok store token hresult
    rw [happended]
    exact sound_append_missing store (store.entries token) hstore (entries_pairwise store token)
      fun entry hentry => storable_of_mem_entries store token entry hvet hentry

/-- An operation that stores the same tokens keeps the invariant. -/
theorem sound_of_stored_eq (store changed : TokenStore) (hstore : store.Sound)
    (hstored : changed.stored = store.stored) : changed.Sound where
  distinct := hstored ▸ hstore.distinct
  storable := hstored ▸ hstore.storable

/-- Every operation but the creation of a token stores the same tokens as before. -/
theorem stored_perform (store : TokenStore) (operation : Operation)
    (h : ∀ token, operation ≠ .createToken token) :
    (store.perform operation).2.stored = store.stored := by
  rcases perform_cases store operation with ⟨token, htoken, -⟩ | ⟨-, hleft | hleft⟩ |
    ⟨option, -, hleft⟩ | ⟨_, _, _, _, hdescribed⟩
  · exact absurd htoken (h token)
  · rw [hleft]
  · rw [hleft]; exact List.append_nil store.stored
  · rw [hleft]; cases option <;> rfl
  · exact congrArg (fun ran => ran.2.stored) (hdescribed store.flushed store.buffer)

/-- Every operation keeps the invariant. -/
theorem sound_perform (store : TokenStore) (operation : Operation) (hstore : store.Sound) :
    (store.perform operation).2.Sound := by
  by_cases hcreate : ∃ token, operation = .createToken token
  · obtain ⟨token, rfl⟩ := hcreate
    exact sound_createToken store token hstore
  · exact sound_of_stored_eq store _ hstore
      (stored_perform store operation fun token htoken => hcreate ⟨token, htoken⟩)

/-- After any run of operations on a new store, whatever it rejects and whatever was refused,
stored tokens are different entries, not blank, short enough, and zero-width where they join. -/
theorem run_new_sound (rejections : List (String × String)) (failsFlush : Bool)
    (operations : List Operation) :
    (TokenStore.run { rejections, failsFlush } operations).Sound :=
  run_invariant Sound sound_perform _ operations
    { distinct := List.Pairwise.nil, storable := by simp [stored] }

end TokenStore

end TranslitScheme
