import TranslitScheme.Proofs.Repetition.Session

/-!
# Operations of sessions in which work was done twice

Every operation that a step of a scheme can ask of a session keeps sessions the same under a spread
and has the same result in both. Operations that derive tokens need that the spread covers these:
compounds may be repeated, or be spellings, when consonants or vowels may, and what comes of a
template when the tokens may that it is expanded over.

A template with a plain key makes spellings of repeated tokens. A template that only selects exact
tokens, or only spellings, tells exact tokens from spellings, so that its source must not be loose.
-/

namespace TranslitScheme

/-- The same failure, or related results. -/
inductive Alike {ε α β : Type} (same : α → β → Prop) : Except ε α → Except ε β → Prop where
  | error (failure : ε) : Alike same (.error failure) (.error failure)
  | ok {a : α} {b : β} : same a b → Alike same (.ok a) (.ok b)

variable {spread : Spread}

/-- The compounds of related tokens are related. -/
theorem Token.Loosens.compound? {loose : Prop} {consonant consonant' vowel vowel' : Token}
    (hconsonant : consonant.Loosens loose consonant') (hvowel : vowel.Loosens loose vowel')
    (inherent : Char) :
    Option.Rel (Token.Loosens loose) (compound? consonant vowel inherent)
      (compound? consonant' vowel' inherent) := by
  have hvalue : vowel'.value2 = vowel.value2 := by
    obtain ⟨matching, rfl⟩ := hvowel.exists_matching
    rfl
  unfold Token.compound?
  rw [hvalue]
  split
  · exact .none
  · refine .some ?_
    rcases hconsonant with rfl | ⟨hloose, rfl⟩
    · rcases hvowel with rfl | ⟨hloose, rfl⟩
      · exact .refl _
      · exact Or.inr ⟨hloose, by simp [Token.isPossibility]⟩
    · rcases hvowel with rfl | ⟨_, rfl⟩ <;> exact Or.inr ⟨hloose, by simp [Token.isPossibility]⟩

/-- The compounds of repeated tokens are repeated. -/
theorem Token.compounds_repeats {again loose : Prop}
    {consonants consonants' vowels vowels' : List Token}
    (hconsonants : Repeats again (Token.Loosens loose) consonants consonants')
    (hvowels : Repeats again (Token.Loosens loose) vowels vowels') (inherent : Char) :
    Repeats again (Token.Loosens loose) (compounds consonants vowels inherent)
      (compounds consonants' vowels' inherent) :=
  hconsonants.flatMap fun _ _ _ hconsonant => hvowels.filterMap fun _ _ _ hvowel =>
    hconsonant.compound? hvowel inherent

/-- A compound is a compound. -/
theorem Token.category_of_mem_compounds {consonants vowels : List Token} {inherent : Char}
    {token : Token} (h : token ∈ compounds consonants vowels inherent) :
    token.category = .consonantVowel := by
  obtain ⟨consonant, _, hvowels⟩ := List.mem_flatMap.mp h
  obtain ⟨vowel, _, hcompound⟩ := List.mem_filterMap.mp hvowels
  unfold Token.compound? at hcompound
  split at hcompound
  · contradiction
  · obtain rfl := Option.some.inj hcompound
    rfl

namespace Session

/-- The same result, in sessions that are the same under a spread. -/
def Agrees {ε α : Type} (spread : Spread)
    (outcome outcome' : Except ε α × Session TokenStore) : Prop :=
  outcome'.1 = outcome.1 ∧ outcome.2.Echoes spread outcome'.2

/-- The tokens that a declaration hands to the sink, or the fault that it ends with. -/
def declaredTokens (category : Category) (options : TokenOptions) :
    Value → Except Fault (List Token)
  | .map pairs =>
    match Priority.ofSetting options.priority, Acceptance.ofSetting options.acceptIf with
    | .error fault, _ => .error fault
    | .ok _, .error fault => .error fault
    | .ok priority, .ok acceptance =>
      .ok (mappingTokens category (Value.readPairs pairs) priority acceptance)
  | value => .error (.notAMapping value.kind)

/-- Building ends with a fault or submits the declared tokens, after writing to the journal. -/
theorem build_eq {σ : Type} [TokenSink σ] (session : Session σ) (category : Category)
    (options : TokenOptions) (value : Value) :
    ∃ journal, journal.tag = session.journal.tag ∧
      session.build category options value =
        match declaredTokens category options value with
        | .error fault => (.error fault, { session with journal })
        | .ok tokens => (.ok (), ({ session with journal }.submitAll tokens).2) := by
  obtain ⟨hread, htag⟩ := Value.toMapping_eq value session.journal
  unfold build
  rcases hmapping : value.toMapping session.journal with ⟨result, journal⟩
  rw [hmapping] at hread htag
  cases value with
  | map pairs =>
    obtain rfl : result = .ok (Value.readPairs pairs) := hread
    unfold declaredTokens
    cases hpriority : Priority.ofSetting options.priority with
    | error fault => exact ⟨journal.record fault.finding, htag, rfl⟩
    | ok priority =>
      cases hacceptance : Acceptance.ofSetting options.acceptIf with
      | error fault => exact ⟨journal.record fault.finding, htag, rfl⟩
      | ok acceptance => exact ⟨journal, htag, rfl⟩
  | _ =>
    obtain rfl := hread
    exact ⟨journal, htag, rfl⟩

/-- The tokens of a mapping are of the category that they are built for. -/
theorem category_of_mem_mappingTokens {category : Category} {mapping : Mapping}
    {priority : Priority} {acceptance : Acceptance} {token : Token}
    (h : token ∈ mappingTokens category mapping priority acceptance) :
    token.category = category := by
  obtain ⟨pair, _, hpair⟩ := List.mem_flatMap.mp h
  rw [pairTokens_eq] at hpair
  obtain ⟨pattern, _, rfl⟩ := List.mem_map.mp hpair
  rfl

/-- Declared tokens are of the declared category. -/
theorem category_of_mem_declaredTokens {category : Category} {options : TokenOptions}
    {value : Value} {tokens : List Token} (h : declaredTokens category options value = .ok tokens) :
    ∀ token ∈ tokens, token.category = category := by
  unfold declaredTokens at h
  split at h
  · split at h
    · contradiction
    · contradiction
    · obtain rfl := Except.ok.inj h
      exact fun _ => category_of_mem_mappingTokens
  · contradiction

/-- What building leaves as it was. -/
theorem frames_build (session : Session TokenStore) (category : Category)
    (options : TokenOptions) (value : Value) :
    session.Frames (session.build category options value).2 := by
  obtain ⟨journal, htag, heq⟩ := build_eq session category options value
  have hjournal : session.Frames { session with journal } := ⟨rfl, htag, rfl, rfl, rfl⟩
  rw [heq]
  cases declaredTokens category options value with
  | error fault => exact hjournal
  | ok tokens => exact hjournal.trans (frames_submitAll _ tokens)

/-- Expanding a template leaves the same lists open. -/
theorem openNames_combine (session : Session TokenStore) (source : TokenSource)
    (filter : TokenFilter) (template : Value) :
    (session.combine source filter template).2.openNames = session.openNames := by
  have hsource (session : Session TokenStore) :
      (session.sourceTokens source).2.openNames = session.openNames := by
    unfold sourceTokens
    split
    · rfl
    · rfl
    · unfold customList
      split <;> rfl
  unfold combine
  rcases template.toMapping session.journal with ⟨_ | mapping, journal⟩
  · rfl
  · have hasked := hsource { session with journal }
    simp only
    generalize ({ session with journal } : Session TokenStore).sourceTokens source = asked
      at hasked ⊢
    rcases asked with ⟨_ | tokens, after⟩
    · exact hasked
    · exact hasked

/-- Handing pairs to the sink leaves the same lists open. -/
theorem openNames_createPairs (session : Session TokenStore) (value : Value)
    (create : TokenStore → String × String → Except SinkError Unit × TokenStore) (what : String) :
    (session.createPairs value create what).2.openNames = session.openNames := by
  have hpairs (pairs : List (String × String)) (session : Session TokenStore) :
      (submitPairs create what pairs session).openNames = session.openNames := by
    induction pairs generalizing session with
    | nil => rfl
    | cons pair rest ih =>
      unfold submitPairs
      split
      · exact ih _
      · exact ih _
  unfold createPairs
  split
  · rfl
  · exact hpairs _ _

namespace Echoes

variable {session other : Session TokenStore}

/-- Building from values that declare tokens and repetitions of them keeps sessions the same. -/
theorem build_of (h : session.Echoes spread other) (hclosed : spread.Closed) {again may : Prop}
    {category : Category} {options : TokenOptions} {value value' : Value}
    (hdeclared : Alike (Repeats again (Token.Loosens may)) (declaredTokens category options value)
      (declaredTokens category options value'))
    (hcovers : spread.Covers again may category session.openNames) :
    Agrees spread (session.build category options value) (other.build category options value') := by
  obtain ⟨journal, htag, heq⟩ := build_eq session category options value
  obtain ⟨journal', htag', heq'⟩ := build_eq other category options value'
  have hjournal := h.journal (htag'.trans (h.tag.trans htag.symm))
  rw [heq, heq']
  have hcategory (tokens : List Token)
      (htokens : declaredTokens category options value = .ok tokens) :=
    category_of_mem_declaredTokens htokens
  generalize declaredTokens category options value = declared,
    declaredTokens category options value' = declared' at hdeclared hcategory
  cases hdeclared with
  | error fault => exact ⟨rfl, hjournal⟩
  | @ok tokens _ htokens =>
    exact ⟨rfl, hjournal.submitAll hclosed htokens (hcategory tokens rfl) hcovers⟩

/-- Building from the same value keeps sessions the same. -/
theorem build (h : session.Echoes spread other) (hclosed : spread.Closed) (category : Category)
    (options : TokenOptions) (value : Value) :
    Agrees spread (session.build category options value) (other.build category options value) := by
  refine h.build_of hclosed ?_ (spread.covers_nothing _ _)
  cases declaredTokens category options value with
  | error fault => exact .error fault
  | ok tokens => exact .ok (.refl Token.Loosens.refl tokens)

/-- Building once more on the other side has the same result and keeps sessions the same. -/
theorem build_again (hclosed : spread.Closed) {category : Category} {options : TokenOptions}
    {value : Value} (hok : (session.build category options value).1 = .ok ())
    (hbuilt : (session.build category options value).2.Echoes spread other)
    (hignores : session.sink.ignoresDuplicates = true)
    (hcovers : spread.Covers True False category session.openNames) :
    Agrees spread (session.build category options value)
      (other.build category options value) := by
  have hnames := (frames_build session category options value).openNames
  obtain ⟨journal, htag, heq⟩ := build_eq session category options value
  obtain ⟨journal', htag', heq'⟩ := build_eq other category options value
  cases hdeclared : declaredTokens category options value with
  | error fault =>
    rw [heq, hdeclared] at hok
    contradiction
  | ok tokens =>
    have hcategory := category_of_mem_declaredTokens hdeclared
    have hdigests : ∀ token ∈ tokens, (session.build category options value).2.Digests token := by
      rw [heq, hdeclared]
      exact digests_submitAll _ tokens hignores hcategory
    rw [heq', hdeclared]
    refine ⟨hok.symm, ?_⟩
    exact (hbuilt.journal_right htag').submitAll_again hclosed hcategory
      (hnames.symm ▸ hcovers) hdigests

/-- Declaring the joiner keeps sessions the same. -/
theorem joiner (h : session.Echoes spread other) (hclosed : spread.Closed) (value : Value) :
    Agrees spread (session.joiner value) (other.joiner value) := by
  have hflag : ({ session with ownJoiner := true } : Session TokenStore).Echoes spread
      { other with ownJoiner := true } := { h with ownJoiner := rfl }
  exact hflag.build hclosed .joiner { } value

/-- Declaring the joiner once more keeps sessions the same. It is declared already, so that the
flag does not change. -/
theorem joiner_again (hclosed : spread.Closed) {value : Value}
    (hok : (session.joiner value).1 = .ok ())
    (hbuilt : (session.joiner value).2.Echoes spread other)
    (hignores : session.sink.ignoresDuplicates = true)
    (hcovers : spread.Covers True False .joiner session.openNames) :
    Agrees spread (session.joiner value) (other.joiner value) := by
  have hflag := (frames_build { session with ownJoiner := true } .joiner { } value).ownJoiner
  have hother : (session.joiner value).2.Echoes spread { other with ownJoiner := true } :=
    { hbuilt with ownJoiner := hflag.symm }
  unfold Session.joiner at hok hother ⊢
  exact build_again hclosed hok hother hignores hcovers

/-- Declaring the non-joiner keeps sessions the same. -/
theorem nonJoiner (h : session.Echoes spread other) (hclosed : spread.Closed) (value : Value) :
    Agrees spread (session.nonJoiner value) (other.nonJoiner value) := by
  have hflag : ({ session with ownNonJoiner := true } : Session TokenStore).Echoes spread
      { other with ownNonJoiner := true } := { h with ownNonJoiner := rfl }
  exact hflag.build hclosed .nonJoiner { } value

/-- Declaring the non-joiner once more keeps sessions the same. -/
theorem nonJoiner_again (hclosed : spread.Closed) {value : Value}
    (hok : (session.nonJoiner value).1 = .ok ())
    (hbuilt : (session.nonJoiner value).2.Echoes spread other)
    (hignores : session.sink.ignoresDuplicates = true)
    (hcovers : spread.Covers True False .nonJoiner session.openNames) :
    Agrees spread (session.nonJoiner value) (other.nonJoiner value) := by
  have hflag :=
    (frames_build { session with ownNonJoiner := true } .nonJoiner { } value).ownNonJoiner
  have hother : (session.nonJoiner value).2.Echoes spread { other with ownNonJoiner := true } :=
    { hbuilt with ownNonJoiner := hflag.symm }
  unfold Session.nonJoiner at hok hother ⊢
  exact build_again hclosed hok hother hignores hcovers

/-- Building the compounds keeps sessions the same, when they are covered. -/
theorem generateCompounds (h : session.Echoes spread other) (hclosed : spread.Closed)
    (hcovers : spread.Covers
      (spread.again (.category .consonant) ∨ spread.again (.category .vowel))
      (spread.loose (.category .consonant) ∨ spread.loose (.category .vowel))
      .consonantVowel session.openNames) :
    session.generateCompounds.2.Echoes spread other.generateCompounds.2 := by
  unfold Session.generateCompounds
  rw [h.settings]
  refine h.submitAll hclosed ?_ (fun _ => Token.category_of_mem_compounds) hcovers
  refine Token.compounds_repeats ?_ ?_ _
  · exact (h.built .consonant).imp Or.inl fun _ _ htoken => htoken.imp Or.inl
  · exact (h.built .vowel).imp Or.inr fun _ _ htoken => htoken.imp Or.inr

/-- The dead consonants that the sink knows take the place of the remembered ones. -/
theorem tokens_refreshDeadConsonants (session : Session TokenStore) (category : Category) :
    session.refreshDeadConsonants.tokens category .all =
      if category = .deadConsonant then session.sink.tokensOf .deadConsonant
      else session.tokens category .all := by
  have hrefresh : session.refreshDeadConsonants =
      { session with
        built := (session.built.filter fun token => token.category != .deadConsonant) ++
          session.sink.tokensOf .deadConsonant } := rfl
  rw [hrefresh]
  by_cases hdead : category = .deadConsonant
  · subst hdead
    simp [tokens, TokenStore.tokensOf, TokenFilter.selects, List.filter_filter]
  · have hother (token : Token) : (token.category == category && token.category != .deadConsonant) =
        (token.category == category) := by
      by_cases hcategory : token.category = category <;> simp [hcategory, hdead]
    have hnone : ((session.sink.tokensOf .deadConsonant).filter fun token =>
        token.category == category) = [] := by
      refine List.filter_eq_nil_iff.mpr fun token htoken => ?_
      have hcategory := (List.mem_filter.mp htoken).2
      rw [beq_iff_eq] at hcategory
      simpa [hcategory] using Ne.symm hdead
    simp [tokens, TokenFilter.selects, hdead, List.filter_filter, hother, hnone]

/-- Reading the dead consonants back keeps sessions the same. -/
theorem refreshDeadConsonants (h : session.Echoes spread other) :
    session.refreshDeadConsonants.Echoes spread other.refreshDeadConsonants := by
  refine { h with built := fun category => ?_ }
  rw [tokens_refreshDeadConsonants, tokens_refreshDeadConsonants]
  by_cases hdead : category = .deadConsonant
  · rw [if_pos hdead, if_pos hdead, hdead]
    exact .of_forall₂ (h.sink.tokensOf .deadConsonant)
  · rw [if_neg hdead, if_neg hdead]
    exact h.built category

/-- A list of a given name is there in both sessions, with related tokens, or in neither. -/
theorem get? (h : session.Echoes spread other) (name : String) :
    (session.lists.get? name = none ∧ other.lists.get? name = none) ∨
      ∃ list list', session.lists.get? name = some list ∧ other.lists.get? name = some list' ∧
        spread.Relates (.list name) list.tokens list'.tokens := by
  have hlists := h.lists
  unfold NamedLists.get?
  generalize session.lists.lists = lists, other.lists.lists = lists' at hlists
  induction hlists with
  | nil => exact Or.inl ⟨rfl, rfl⟩
  | @cons list list' _ _ hlist _ ih =>
    obtain ⟨hname, htokens⟩ := hlist
    rw [List.find?_cons, List.find?_cons, hname]
    by_cases hfound : list.name = name
    · subst hfound
      simp only [beq_self_eq_true]
      exact Or.inr ⟨list, list', rfl, rfl, htokens⟩
    · simp only [beq_false_of_ne hfound]
      exact ih

/-- The tokens of a source are related, or asking for them is the same fault. -/
theorem sourceTokens (h : session.Echoes spread other) (source : TokenSource) :
    (session.sourceTokens source).2.Echoes spread (other.sourceTokens source).2 ∧
      Alike (spread.Relates source) (session.sourceTokens source).1
        (other.sourceTokens source).1 := by
  cases source with
  | category category =>
    by_cases hdead : category = .deadConsonant
    · subst hdead
      exact ⟨h.refreshDeadConsonants, .ok (h.refreshDeadConsonants.built .deadConsonant)⟩
    · have hsource (session : Session TokenStore) : session.sourceTokens (.category category) =
          (.ok (session.tokens category .all), session) := by
        cases category <;> first | contradiction | rfl
      rw [hsource, hsource]
      exact ⟨h, .ok (h.built category)⟩
  | list name =>
    have hsource (session : Session TokenStore) :
        session.sourceTokens (.list name) = session.customList name := rfl
    rw [hsource, hsource]
    unfold customList
    rcases h.get? name with ⟨hlist, hlist'⟩ | ⟨list, list', hlist, hlist', htokens⟩
    · rw [hlist, hlist']
      exact ⟨h.journal h.tag, .error _⟩
    · rw [hlist, hlist']
      exact ⟨h, .ok htokens⟩

/-- Mappings that come of a template over related tokens of a source. -/
def Combined (spread : Spread) (source : TokenSource) (template : Value)
    (mapping mapping' : Mapping) : Prop :=
  ∃ pairs tokens tokens', template = .map pairs ∧ spread.Relates source tokens tokens' ∧
    mapping = Template.combine tokens (Value.readPairs pairs) ∧
    mapping' = Template.combine tokens' (Value.readPairs pairs)

/-- Expanding a template ends with the same fault in both sessions, or is done over related
tokens. -/
theorem combine (h : session.Echoes spread other) (source : TokenSource) (filter : TokenFilter)
    (template : Value) (hfilter : filter = .all ∨ ¬ spread.loose source) :
    (session.combine source filter template).2.Echoes spread
        (other.combine source filter template).2 ∧
      Alike (Combined spread source template) (session.combine source filter template).1
        (other.combine source filter template).1 := by
  obtain ⟨hread, htag⟩ := Value.toMapping_eq template session.journal
  obtain ⟨hread', htag'⟩ := Value.toMapping_eq template other.journal
  unfold Session.combine
  rcases hmapping : template.toMapping session.journal with ⟨result, journal⟩
  rcases hmapping' : template.toMapping other.journal with ⟨result', journal'⟩
  rw [hmapping] at hread htag
  rw [hmapping'] at hread' htag'
  have hjournal := h.journal (htag'.trans (h.tag.trans htag.symm))
  cases template with
  | map pairs =>
    obtain rfl : result = .ok (Value.readPairs pairs) := hread
    obtain rfl : result' = .ok (Value.readPairs pairs) := hread'
    obtain ⟨hsource, htokens⟩ := hjournal.sourceTokens source
    simp only
    generalize ({ session with journal } : Session TokenStore).sourceTokens source = asked
      at hsource htokens ⊢
    generalize ({ other with journal := journal' } : Session TokenStore).sourceTokens source =
      asked' at hsource htokens ⊢
    obtain ⟨found, after⟩ := asked
    obtain ⟨found', after'⟩ := asked'
    cases htokens with
    | error fault => exact ⟨hsource, .error fault⟩
    | ok htokens =>
      refine ⟨hsource, .ok ⟨pairs, _, _, rfl, ?_, rfl, rfl⟩⟩
      refine htokens.filter fun token _ token' htoken => ?_
      rcases hfilter with rfl | hexact
      · rfl
      · rw [htoken.eq_of_not hexact]
  | _ =>
    obtain rfl := hread
    obtain rfl := hread'
    exact ⟨hjournal, .error _⟩

/-- An operation of the sink that does not make it refuse duplicates keeps sessions the same. -/
theorem perform (h : session.Echoes spread other) (hclosed : spread.Closed)
    (operation : TokenStore.Operation)
    (hnot : operation ≠ .configure (.ignoreDuplicates false)) :
    (other.sink.perform operation).1 = (session.sink.perform operation).1 ∧
      ({ session with sink := (session.sink.perform operation).2 } : Session TokenStore).Echoes
        spread { other with sink := (other.sink.perform operation).2 } := by
  obtain ⟨hresult, hsink⟩ := h.sink.perform operation hclosed h.ignores
  exact ⟨hresult, h.stores hsink (TokenStore.ignores_perform _ _ h.ignores hnot)⟩

/-- An operation of the sink is carried out in both sessions, or refused in both for the same
reason. -/
theorem perform_cases (h : session.Echoes spread other) (hclosed : spread.Closed)
    (operation : TokenStore.Operation)
    (hnot : operation ≠ .configure (.ignoreDuplicates false)) :
    (∃ sink sink', session.sink.perform operation = (.ok (), sink) ∧
      other.sink.perform operation = (.ok (), sink') ∧
      ({ session with sink } : Session TokenStore).Echoes spread { other with sink := sink' }) ∨
    ∃ refusal sink sink', session.sink.perform operation = (.error refusal, sink) ∧
      other.sink.perform operation = (.error refusal, sink') ∧
      ({ session with sink } : Session TokenStore).Echoes spread
        { other with sink := sink' } := by
  obtain ⟨hresult, hkept⟩ := h.perform hclosed operation hnot
  rcases hdone : session.sink.perform operation with ⟨result, sink⟩
  rcases hdone' : other.sink.perform operation with ⟨result', sink'⟩
  rw [hdone, hdone'] at hresult hkept
  obtain rfl : result' = result := hresult
  cases result' with
  | ok _ => exact Or.inl ⟨sink, sink', rfl, rfl, hkept⟩
  | error refusal => exact Or.inr ⟨refusal, sink, sink', rfl, rfl, hkept⟩

/-- Setting a switch keeps sessions the same, unless duplicates are refused from then on. -/
theorem configure (h : session.Echoes spread other) (hclosed : spread.Closed) (option : SinkOption)
    (hnot : option ≠ .ignoreDuplicates false) :
    (session.configure option).Echoes spread (other.configure option) :=
  (h.perform hclosed (.configure option) fun heq => hnot (by injection heq)).2

/-- Handing pairs to an operation of the sink keeps sessions the same. -/
theorem submitPairs (h : session.Echoes spread other) (hclosed : spread.Closed) (what : String)
    (operation : String × String → TokenStore.Operation)
    (hnot : ∀ pair, operation pair ≠ .configure (.ignoreDuplicates false))
    (pairs : List (String × String)) :
    (Session.submitPairs (fun sink pair => sink.perform (operation pair)) what pairs session).Echoes
      spread
      (Session.submitPairs (fun sink pair => sink.perform (operation pair)) what pairs other) := by
  induction pairs generalizing session other with
  | nil => exact h
  | cons pair rest ih =>
    unfold Session.submitPairs
    rcases h.perform_cases hclosed (operation pair) (hnot pair) with
      ⟨sink, sink', hdone, hdone', hkept⟩ | ⟨refusal, sink, sink', hdone, hdone', hkept⟩
    · rw [hdone, hdone']
      exact ih hkept
    · rw [hdone, hdone']
      exact ih (hkept.journal h.tag)

/-- Reporting pairs with a group on either side keeps the tag. -/
theorem tag_reportGroups (mapping : Mapping) (journal : Journal) :
    (reportGroups mapping journal).tag = journal.tag := by
  induction mapping generalizing journal with
  | nil => rfl
  | cons pair rest ih =>
    unfold reportGroups
    split
    · exact ih journal
    · exact ih _

/-- Declaring stem rules or exceptions keeps sessions the same. -/
theorem createPairs (h : session.Echoes spread other) (hclosed : spread.Closed) (value : Value)
    (what : String) (operation : String × String → TokenStore.Operation)
    (hnot : ∀ pair, operation pair ≠ .configure (.ignoreDuplicates false)) :
    Agrees spread
      (session.createPairs value (fun sink pair => sink.perform (operation pair)) what)
      (other.createPairs value (fun sink pair => sink.perform (operation pair)) what) := by
  obtain ⟨hread, htag⟩ := Value.toMapping_eq value session.journal
  obtain ⟨hread', htag'⟩ := Value.toMapping_eq value other.journal
  unfold Session.createPairs
  rcases hmapping : value.toMapping session.journal with ⟨result, journal⟩
  rcases hmapping' : value.toMapping other.journal with ⟨result', journal'⟩
  rw [hmapping] at hread htag
  rw [hmapping'] at hread' htag'
  obtain rfl : result' = result := hread'.trans hread.symm
  have htags : journal'.tag = journal.tag := htag'.trans (h.tag.trans htag.symm)
  cases result' with
  | error fault => exact ⟨rfl, h.journal htags⟩
  | ok mapping =>
    refine ⟨rfl, (h.journal ?_).submitPairs hclosed what operation hnot _⟩
    rw [tag_reportGroups, tag_reportGroups, htags]

/-- Declaring stem rules keeps sessions the same. -/
theorem stemRules (h : session.Echoes spread other) (hclosed : spread.Closed) (value : Value) :
    Agrees spread (session.stemRules value) (other.stemRules value) :=
  h.createPairs hclosed value "stem rule" (fun pair => .createStemRule ⟨pair.1, pair.2⟩)
    fun _ => nofun

/-- Declaring stem exceptions keeps sessions the same. -/
theorem stemExceptions (h : session.Echoes spread other) (hclosed : spread.Closed)
    (value : Value) : Agrees spread (session.stemExceptions value) (other.stemExceptions value) :=
  h.createPairs hclosed value "stem exception" (fun pair => .createStemException ⟨pair.1, pair.2⟩)
    fun _ => nofun

/-- Adding a default symbol keeps sessions the same. -/
theorem buildDefaultIf (h : session.Echoes spread other) (hclosed : spread.Closed)
    (condition : Bool) (category : Category) (symbol : String) :
    (session.buildDefaultIf condition category symbol).Echoes spread
      (other.buildDefaultIf condition category symbol) := by
  unfold Session.buildDefaultIf
  split
  · exact h.submitAll hclosed (.refl Token.Loosens.refl _)
      (fun _ => category_of_mem_mappingTokens) (spread.covers_nothing _ _)
  · exact h

/-- Adding the default symbols keeps sessions the same. -/
theorem injectDefaults (h : session.Echoes spread other) (hclosed : spread.Closed) :
    session.injectDefaults.Echoes spread other.injectDefaults := by
  have hnonJoiner := h.buildDefaultIf hclosed (!session.ownNonJoiner) .nonJoiner
    session.settings.defaults.nonJoiner
  have hjoiner := hnonJoiner.buildDefaultIf hclosed
    (!(session.buildDefaultIf (!session.ownNonJoiner) .nonJoiner
      session.settings.defaults.nonJoiner).ownJoiner) .joiner session.settings.defaults.joiner
  have hseparator :=
    hjoiner.buildDefaultIf hclosed true .symbol session.settings.defaults.separator
  unfold Session.injectDefaults
  rw [h.settings, h.ownNonJoiner]
  simp only [hnonJoiner.ownJoiner]
  split
  · exact hseparator
  · exact h

/-- Flushing the sink keeps sessions the same. -/
theorem flush (h : session.Echoes spread other) (hclosed : spread.Closed) :
    session.flush.Echoes spread other.flush := by
  have hflush (store : TokenStore) : TokenSink.flush store = store.perform .flush := rfl
  unfold Session.flush
  rw [hflush, hflush]
  rcases h.perform_cases hclosed .flush nofun with
    ⟨sink, sink', hdone, hdone', hkept⟩ | ⟨refusal, sink, sink', hdone, hdone', hkept⟩
  · rw [hdone, hdone']
    exact hkept
  · rw [hdone, hdone']
    exact hkept.journal h.tag

/-- Storing the details keeps sessions the same. -/
theorem storeDetails (h : session.Echoes spread other) (hclosed : spread.Closed) (now : String) :
    (session.storeDetails now).Echoes spread (other.storeDetails now) := by
  have hdated (details : Details) : ({ session with details } : Session TokenStore).Echoes spread
      { other with details } := { h with details := rfl }
  have hstore (store : TokenStore) (details : Details) :
      TokenSink.setDetails store details = store.perform (.setDetails details) := rfl
  unfold Session.storeDetails
  simp only [h.details, hstore]
  generalize ({ session.details with compiledDate := now } : Details) = details
  rcases (hdated details).perform_cases hclosed (.setDetails details) nofun with
    ⟨sink, sink', hdone, hdone', hkept⟩ | ⟨refusal, sink, sink', hdone, hdone', hkept⟩
  · simp only at hdone hdone'
    rw [hdone, hdone']
    exact hkept
  · simp only at hdone hdone'
    rw [hdone, hdone']
    exact hkept.journal h.tag

/-- Finishing keeps sessions the same. -/
theorem finish (h : session.Echoes spread other) (hclosed : spread.Closed) (now : String) :
    (session.finish now).Echoes spread (other.finish now) :=
  ((h.injectDefaults hclosed).flush hclosed).storeDetails hclosed now

end Echoes

end Session

end TranslitScheme
