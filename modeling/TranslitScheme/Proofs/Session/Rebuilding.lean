import TranslitScheme.Proofs.Derivation.Filling
import TranslitScheme.Proofs.Repetition.Operation
import TranslitScheme.Proofs.Session.Operation

/-!
# Building what was combined

The mapping that `combine` gives is handed to `build`, which takes it for a mapping as a scheme
would write it and checks it once more. `builds_combined` says that this second check passes
everything: the same mapping is read, and for each token that was selected, each pair of the
template and each text of that pair's key, one token is submitted that is not blank.

A blank token would spoil this, since it is filled in as a blank text. No session has one: what it
remembers was checked before, and so was what its sink stores, dead consonants among it.
-/

namespace TranslitScheme

namespace Session

/-- No token of a session is blank, in its sink, among the built ones and in the lists. -/
structure Filled (session : Session TokenStore) : Prop where
  stored : ∀ token ∈ session.sink.stored, ¬ Blank token
  built : ∀ token ∈ session.built, ¬ Blank token
  lists : ∀ list ∈ session.lists.lists, ∀ token ∈ list.tokens, ¬ Blank token

namespace Filled

variable {session after : Session TokenStore}

/-- Only the tokens count that are stored, built and listed. -/
theorem congr (h : session.Filled) (hstored : after.sink.stored = session.sink.stored)
    (hbuilt : after.built = session.built) (hlists : after.lists = session.lists) :
    after.Filled where
  stored := hstored ▸ h.stored
  built := hbuilt ▸ h.built
  lists := hlists ▸ h.lists

/-- A token that is not blank is remembered along with the others. -/
theorem remember (h : session.Filled) {token : Token} (htoken : ¬ Blank token) :
    (session.remember token).Filled where
  stored := h.stored
  built := by
    intro other hother
    rcases List.mem_append.mp hother with hold | hnew
    · exact h.built other hold
    · rwa [List.mem_singleton.mp hnew]
  lists := by
    intro list hlist other hother
    rcases NamedLists.mem_lists_record hlist hother with rfl | ⟨old, hold, hkept⟩
    · exact htoken
    · exact h.lists old hold other hkept

/-- What the sink stores of a token is not blank. -/
theorem createToken (h : session.Filled) (token : Token) :
    ∀ other ∈ (session.sink.createToken token).2.stored, ¬ Blank other := by
  intro other hother
  cases hcreated : (session.sink.createToken token).1 with
  | error refusal =>
    rw [TokenStore.createToken_of_error session.sink token hcreated] at hother
    exact h.stored other hother
  | ok _ =>
    obtain ⟨hvet, hkept, _⟩ := TokenStore.createToken_of_ok session.sink token hcreated
    rw [hkept, TokenStore.stored_append] at hother
    rcases List.mem_append.mp hother with hold | hnew
    · exact h.stored other hold
    · have hstorable := TokenStore.storable_of_mem_entries session.sink token other hvet
        (List.mem_filter.mp hnew).1
      exact fun hblank => hblank.elim hstorable.pattern_ne hstorable.value1_ne

/-- Submitting a token stores and remembers none that is blank. -/
theorem submit (h : session.Filled) (token : Token) : (session.submit token).2.Filled := by
  have hcreated : ({ session with
      sink := (session.sink.createToken (session.tagged token)).2 } : Session TokenStore).Filled :=
    { h with stored := h.createToken _ }
  rcases submit_cases session token with ⟨-, journal, -, heq⟩ | ⟨-, -, journal, -, heq⟩ |
    ⟨hblank, -, heq⟩
  · rw [heq]
    exact h.congr rfl rfl rfl
  · rw [heq]
    exact hcreated.congr rfl rfl rfl
  · rw [heq]
    exact hcreated.remember hblank

/-- What a move leaves is not blank. -/
theorem move (hmove : session.Move after) (h : session.Filled) : after.Filled := by
  have hsink (operation : TokenStore.Operation)
      (hnot : ∀ token, operation ≠ .createToken token) :=
    TokenStore.stored_perform session.sink operation hnot
  cases hmove with
  | note _ => exact h.congr rfl rfl rfl
  | submit token => exact h.submit token
  | configure option => exact h.congr (hsink (.configure option) fun _ => by simp) rfl rfl
  | refresh =>
    refine { h with built := fun token htoken => ?_ }
    rcases List.mem_append.mp htoken with hkept | hread
    · exact h.built token (List.mem_filter.mp hkept).1
    · exact h.stored token (List.mem_filter.mp hread).1
  | stemRule rule => exact h.congr (hsink (.createStemRule rule) fun _ => by simp) rfl rfl
  | stemException exempt =>
    exact h.congr (hsink (.createStemException exempt) fun _ => by simp) rfl rfl
  | openLists hopened =>
    refine { h with lists := fun list hlist token htoken => ?_ }
    rcases NamedLists.mem_of_openScope hopened hlist with hold | hempty
    · exact h.lists list hold token htoken
    · rw [hempty] at htoken
      contradiction
  | closeLists => exact ⟨h.stored, h.built, h.lists⟩
  | own _ _ => exact h.congr rfl rfl rfl

/-- Neither details nor a flush bring blank tokens. -/
theorem outerMove (hmove : session.OuterMove after) (h : session.Filled) : after.Filled := by
  obtain ⟨hbuilt, hlists⟩ := remembered_of_outerMove hmove
  exact h.congr (stored_of_outerMove hmove) hbuilt hlists

/-- Operations come by no session with a blank token. -/
theorem visits (h : session.Filled) (hvisits : session.Visits after) : after.Filled :=
  hvisits.reaches.keeps move outerMove h

/-- No token of a source is blank. -/
theorem sourceTokens (h : session.Filled) {source : TokenSource} {tokens : List Token}
    (htokens : (session.sourceTokens source).1 = .ok tokens) :
    ∀ token ∈ tokens, ¬ Blank token := by
  have hbuilt (session : Session TokenStore) (hsession : session.Filled) (category : Category) :
      ∀ token ∈ session.tokens category .all, ¬ Blank token :=
    fun token htoken => hsession.built token (List.mem_filter.mp htoken).1
  cases source with
  | category category =>
    by_cases hdead : category = .deadConsonant
    · subst hdead
      obtain rfl := Except.ok.inj htokens
      exact hbuilt _ (h.move (.refresh session)) _
    · have hasked : (session.sourceTokens (.category category)).1 =
          .ok (session.tokens category .all) := by
        cases category <;> first | rfl | contradiction
      obtain rfl := Except.ok.inj (hasked.symm.trans htokens)
      exact hbuilt session h category
  | list name =>
    simp only [Session.sourceTokens, customList] at htokens
    cases hfound : session.lists.get? name with
    | none => simp [hfound, abort] at htokens
    | some list =>
      rw [hfound] at htokens
      obtain rfl := Except.ok.inj htokens
      exact h.lists list (List.mem_of_find?_eq_some hfound)

end Filled

section

variable {σ : Type} [TokenSink σ]

/-- The tokens of a source are the same whatever is in the journal. -/
theorem sourceTokens_note (session : Session σ) (journal : Journal) (source : TokenSource) :
    ({ session with journal }.sourceTokens source).1 = (session.sourceTokens source).1 := by
  cases source with
  | category category =>
    by_cases hdead : category = .deadConsonant
    · subst hdead
      simp only [sourceTokens, deadConsonants, refreshDeadConsonants]
      cases TokenSink.tokensOf session.sink .deadConsonant <;> rfl
    · cases category <;> first | rfl | contradiction
  | list name =>
    simp only [sourceTokens, customList]
    cases session.lists.get? name <;> rfl

/-- A mapping is combined from a template that was read and from the tokens of a source. -/
theorem of_combine_ok (session : Session σ) {source : TokenSource} {filter : TokenFilter}
    {template : Value} {mapping : Mapping}
    (h : (session.combine source filter template).1 = .ok mapping) :
    ∃ pairs tokens, (template.toMapping session.journal).1 = .ok pairs ∧
      (session.sourceTokens source).1 = .ok tokens ∧
      mapping = Template.combine (tokens.filter filter.selects) pairs := by
  unfold combine at h
  rcases hread : template.toMapping session.journal with ⟨fault | pairs, journal⟩
  · simp [hread] at h
  · have hasked := session.sourceTokens_note journal source
    rw [hread] at h
    dsimp only at h
    generalize ({ session with journal } : Session σ).sourceTokens source = asked at h hasked
    obtain ⟨fault | tokens, asked⟩ := asked
    · simp at h
    · exact ⟨pairs, tokens, rfl, hasked.symm, (Except.ok.inj h).symm⟩

/-- Building a mapping that is read as itself submits its tokens. -/
theorem build_of_toMapping (session : Session σ) {category : Category} {options : TokenOptions}
    {mapping : Mapping} {priority : Priority} {acceptance : Acceptance}
    (hread : (mapping.toValue.toMapping session.journal).1 = .ok mapping)
    (hpriority : Priority.ofSetting options.priority = .ok priority)
    (hacceptance : Acceptance.ofSetting options.acceptIf = .ok acceptance) :
    session.build category options mapping.toValue =
      (.ok (), ({ session with
        journal := (mapping.toValue.toMapping session.journal).2 }.submitAll
          (mappingTokens category mapping priority acceptance)).2) := by
  unfold build
  generalize mapping.toValue.toMapping session.journal = outcome at hread ⊢
  obtain ⟨result, journal⟩ := outcome
  obtain rfl : result = .ok mapping := hread
  simp only [hpriority, hacceptance]
  rfl

end

/-- Whatever was done before, a mapping that is combined survives being built. It is read as
itself, with no finding but that values will be ignored, and in any session it makes one attempt
to store a token for each token that was selected, each pair of the template that was read and
each text of that pair's key. No attempt is one with a blank text, which would not reach the
sink. -/
theorem builds_combined (store : TokenStore) (settings : Settings)
    (hstore : ∀ token ∈ store.stored, token.pattern ≠ "" ∧ token.value1 ≠ "")
    (session : Session TokenStore) (hsession : (Session.start store settings).Visits session)
    (source : TokenSource) (filter : TokenFilter) (template : Value) (mapping : Mapping)
    (hcombined : (session.combine source filter template).1 = .ok mapping) :
    (∀ journal : Journal,
      (mapping.toValue.toMapping journal).1 = .ok mapping ∧
        ∃ found, (mapping.toValue.toMapping journal).2.entries = journal.entries ++ found ∧
          ∀ diagnostic ∈ found, diagnostic.code = .shapeExtraValues) ∧
    ∃ pairs tokens,
      (template.toMapping session.journal).1 = .ok pairs ∧
      (session.sourceTokens source).1 = .ok tokens ∧
      ∀ (later : Session TokenStore) (category : Category) (options : TokenOptions)
        (priority : Priority) (acceptance : Acceptance),
        Priority.ofSetting options.priority = .ok priority →
        Acceptance.ofSetting options.acceptIf = .ok acceptance →
        ∃ attempts,
          later.build category options mapping.toValue =
            (.ok (), ({ later with
              journal := (mapping.toValue.toMapping later.journal).2 }.submitAll attempts).2) ∧
          (attempts.map fun token => { token with matching := .exact }).Perm
            (Template.attempts category priority acceptance (tokens.filter filter.selects) pairs) ∧
          ∀ token ∈ attempts, token.pattern ≠ "" ∧ token.value1 ≠ "" := by
  obtain ⟨pairs, tokens, hread, hasked, rfl⟩ := of_combine_ok session hcombined
  obtain ⟨hfull, hcan⟩ := canRead_of_toMapping hread
  have hstart : (Session.start store settings).Filled :=
    { stored := fun token htoken hblank =>
        hblank.elim (hstore token htoken).1 (hstore token htoken).2
      built := fun _ htoken => by contradiction
      lists := fun _ hlist => by contradiction }
  have hfilled := (hstart.visits hsession).sourceTokens hasked
  have hselected : ∀ token ∈ tokens.filter filter.selects,
      token.pattern ≠ "" ∧ token.value1 ≠ "" :=
    fun token htoken => not_or.mp (hfilled token (List.mem_filter.mp htoken).1)
  have hcombinedFull := Template.full_combine (tokens.filter filter.selects) hfull
  have hcombinedCan : ∀ pair ∈ Template.combine (tokens.filter filter.selects) pairs,
      Value.canRead pair = true :=
    fun pair hpair => Template.canRead_of_mem_combine hselected hcan hpair
  have hsurvives := Mapping.toMapping_toValue hcombinedFull hcombinedCan
  refine ⟨hsurvives, pairs, tokens, hread, hasked, ?_⟩
  intro later category options priority acceptance hpriority hacceptance
  refine ⟨_, build_of_toMapping later (hsurvives later.journal).1 hpriority hacceptance,
    Template.attempts_perm category priority acceptance _ pairs, fun token htoken => ?_⟩
  exact Template.ne_of_mem_mappingTokens category priority acceptance hcombinedCan htoken

/-- Two consonants of one value, of which dead consonants are derived. -/
def twoConsonants : List Operation :=
  [.build .virama { } (.map [(.str "~", .str "x")]), .inferDeadConsonants true,
    .build .consonant { } (.map [(.list [.str "ka", .str "ca"], .str "K")])]

/-- Their dead forms have one value, and so a template with one pair gives one group of keys. Each
of its texts is submitted. -/
theorem builds_combined_twoConsonants :
    let session := Operation.after twoConsonants (Session.start ({ } : TokenStore) { })
    let template := Value.map
      [(.list [.str "*o", .str "*u"], .list [.str "*1O", .str "", .str "*"])]
    let token (pattern : String) : Token :=
      { category := .consonantVowel, pattern, value1 := "KxO", value3 := "*" }
    ∃ mapping, (session.combine (.category .deadConsonant) .all template).1 = .ok mapping ∧
      (mapping.toValue.toMapping session.journal).1 = .ok mapping ∧
      ∃ attempts,
        session.build .consonantVowel { } mapping.toValue =
          (.ok (), ({ session with
            journal := (mapping.toValue.toMapping session.journal).2 }.submitAll attempts).2) ∧
        (attempts.map fun token => { token with matching := .exact }).Perm
          [token "ko", token "ku", token "co", token "cu"] := by
  intro session template token
  have hcombined : ∃ mapping,
      (session.combine (.category .deadConsonant) .all template).1 = .ok mapping := ⟨_, rfl⟩
  obtain ⟨mapping, hcombined⟩ := hcombined
  obtain ⟨hsurvives, pairs, tokens, hread, hasked, hbuild⟩ :=
    builds_combined { } { } (fun _ htoken => by contradiction) session
      (Visits.start.after twoConsonants) (.category .deadConsonant) .all template mapping hcombined
  obtain ⟨attempts, hsubmits, hperm, -⟩ := hbuild session .consonantVowel { } .normal .all rfl rfl
  obtain rfl := Except.ok.inj hread
  obtain rfl := Except.ok.inj hasked
  refine ⟨mapping, hcombined, (hsurvives session.journal).1, attempts, hsubmits, hperm.trans ?_⟩
  decide +kernel

end Session

end TranslitScheme
