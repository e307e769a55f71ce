import TranslitScheme.Proofs.Store.Footprint

/-!
# Declarations that do not affect each other

Building the tokens of a category reads little of a session: the journal's overrides, location and
tag, and in the store the tokens that decide about tokens of that category. `LooksAs` says that two
sessions are the same in this. And building changes nothing of what is there, while no list scope is
open: it only gains tokens and diagnostics. So a declaration gains the same from all sessions that
look alike to it, which is `build_gain`.

What is gained is of the category that was declared, or a dead consonant made of a consonant. Hence
a declaration looks the same after one of another category, unless both are among the consonants,
the dead consonants and the viramas, and `build_comm` is read off the two gains.
-/

namespace TranslitScheme

/-- Reading pairs adds the same diagnostics to all journals with the same overrides and location,
and changes nothing else but the active expression. -/
theorem Value.checkPairs_adds (pairs : List (Value × Value)) (journal : Journal) :
    ∃ found, ∀ other : Journal, other.overrides = journal.overrides →
      other.location = journal.location → ∃ expression, (checkPairs pairs other).2 =
        { other with entries := other.entries ++ found, expression } := by
  refine ⟨pairs.flatMap fun pair =>
    (checkPair pair.1 pair.2).2.map (stampPair journal pair.1 pair.2),
    fun other hoverrides hlocation => ⟨if pairs = [] then other.expression else none, ?_⟩⟩
  have hstamp : stampPair other = stampPair journal := by
    funext key value finding
    simp only [stampPair, Journal.stamp, hoverrides, hlocation]
  rw [checkPairs_eq, hstamp]

/-- Without an open scope, lists record nothing. -/
theorem NamedLists.record_of_scope_none {registry : NamedLists} (h : registry.scope = none)
    (token : Token) : registry.record token = registry := by
  refine NamedLists.ext ?_ rfl
  change NamedList.pushAll token (registry.scope.getD []) registry.lists = registry.lists
  rw [h]
  rfl

/-- What a declaration adds to a session: stored tokens, remembered ones and diagnostics. -/
structure Gain where
  stored : List Token := []
  built : List Token := []
  found : List Diagnostic := []

/-- One gain after another. -/
def Gain.andThen (gain next : Gain) : Gain :=
  ⟨gain.stored ++ next.stored, gain.built ++ next.built, gain.found ++ next.found⟩

/-- Stored tokens come from a category, and remembered ones are of that category. -/
structure Gain.From (category : Category) (gain : Gain) : Prop where
  stored : ∀ token ∈ gain.stored, token.category = category ∨
    category = .consonant ∧ token.category = .deadConsonant
  built : ∀ token ∈ gain.built, token.category = category

/-- Two gains are apart when they have no category in common. -/
structure Gain.Apart (gain next : Gain) : Prop where
  stored : ∀ token ∈ gain.stored, ∀ other ∈ next.stored, token.category ≠ other.category
  built : ∀ token ∈ gain.built, ∀ other ∈ next.built, token.category ≠ other.category

/-- Two gains from a category are one. -/
theorem Gain.From.andThen {category : Category} {gain next : Gain} (h : gain.From category)
    (h' : next.From category) : (gain.andThen next).From category where
  stored := by
    intro token htoken
    exact (List.mem_append.mp htoken).elim (h.stored token) (h'.stored token)
  built := by
    intro token htoken
    exact (List.mem_append.mp htoken).elim (h.built token) (h'.built token)

namespace Session

variable {session other : Session TokenStore} {category : Category}

/-- A session with something added, and another active expression. -/
def gain (session : Session TokenStore) (gain : Gain) (expression : Option String) :
    Session TokenStore :=
  { session with
    sink := session.sink.append gain.stored
    journal :=
      { session.journal with entries := session.journal.entries ++ gain.found, expression }
    built := session.built ++ gain.built
    tokensCreated := session.tokensCreated + gain.built.length }

/-- Two gains in a row. -/
theorem gain_gain (session : Session TokenStore) (first second : Gain)
    (expression last : Option String) :
    (session.gain first expression).gain second last =
      session.gain (first.andThen second) last := by
  simp [gain, Gain.andThen, TokenStore.append, List.append_assoc, Nat.add_assoc]

/-- Nothing is gained. -/
theorem gain_nothing (session : Session TokenStore) (expression : Option String) :
    session.gain { } expression =
      { session with journal := { session.journal with expression } } := by
  simp [gain, TokenStore.append]

/-- Two sessions are the same in what the declaration of a category reads, and no list scope is open
in the second. -/
structure LooksAs (category : Category) (session other : Session TokenStore) : Prop where
  sink : TokenStore.Agrees (TokenStore.footprint category) session.sink other.sink
  scope : other.lists.scope = none
  overrides : other.journal.overrides = session.journal.overrides
  location : other.journal.location = session.journal.location
  tag : other.journal.tag = session.journal.tag

namespace LooksAs

/-- A session without an open list scope looks as itself. -/
theorem refl (hscope : session.lists.scope = none) : LooksAs category session session :=
  ⟨.refl _, hscope, rfl, rfl, rfl⟩

/-- Sessions that look alike go on doing so when both gain the same. -/
theorem gain (h : LooksAs category session other) (gain : Gain)
    (expression expression' : Option String) :
    LooksAs category (session.gain gain expression) (other.gain gain expression') :=
  ⟨h.sink.append gain.stored, h.scope, h.overrides, h.location, h.tag⟩

/-- A session looks the same after it gained stored tokens that do not decide. -/
theorem gain_right (hscope : session.lists.scope = none) {gain : Gain}
    (hgain : ∀ token ∈ gain.stored, token.category ∉ TokenStore.footprint category)
    (expression : Option String) : LooksAs category session (session.gain gain expression) :=
  ⟨(TokenStore.Agrees.refl _).append_right hgain, hscope, rfl, rfl, rfl⟩

end LooksAs

/-- The report of a problem with a token, as it is recorded. -/
def complaint (session : Session TokenStore) (code : DiagnosticCode) (token : Token)
    (message : String) : Diagnostic :=
  { session.journal with expression := some token.expression }.stamp ⟨code, .error, message⟩

/-- A problem with a token is one more diagnostic. -/
theorem refuse_eq_gain (session : Session TokenStore) (code : DiagnosticCode) (token : Token)
    (message : String) :
    session.refuse code token message =
      session.gain { found := [session.complaint code token message] }
        session.journal.expression := by
  simp [refuse, Journal.errorIn, Journal.error, Journal.record, complaint, Journal.stamp, gain,
    TokenStore.append]

/-- Without an open list scope, a token is remembered among the built ones only. -/
theorem remember_eq_gain (session : Session TokenStore) (hscope : session.lists.scope = none)
    (token : Token) :
    session.remember token = session.gain { built := [token] } session.journal.expression := by
  rw [remember, NamedLists.record_of_scope_none hscope]
  simp [gain, TokenStore.append]

/-- The same problem is reported in the same way. -/
theorem LooksAs.complaint (h : LooksAs category session other) (code : DiagnosticCode)
    (token : Token) (message : String) :
    other.complaint code token message = session.complaint code token message := by
  simp only [Session.complaint, Journal.stamp, h.overrides, h.location]

/-- The same token is handed to the sink. -/
theorem LooksAs.tagged (h : LooksAs category session other) (token : Token) :
    other.tagged token = session.tagged token := by
  rw [Session.tagged, Session.tagged, h.tag]

/-- A token that is submitted gains the same for all sessions that look alike. -/
theorem submit_gain (session : Session TokenStore) (token : Token) :
    ∃ accepted gain, gain.From token.category ∧ ∀ other, LooksAs token.category session other →
      other.submit token = (accepted, other.gain gain other.journal.expression) := by
  by_cases hblank : Blank (session.tagged token)
  · refine ⟨false, { found := [session.complaint .shapeEmptyValue (session.tagged token)
      "Empty patterns and values are not allowed"] }, ⟨by simp, by simp⟩, fun other h => ?_⟩
    rw [← h.tagged] at hblank ⊢
    rw [submit_of_blank other token hblank, refuse_eq_gain, h.complaint]
  · obtain ⟨new, hnew, hcreated⟩ := session.sink.createToken_congr (session.tagged token)
    have hstored : ({ stored := new } : Gain).From token.category :=
      ⟨fun entry hentry =>
        TokenStore.category_of_mem_entries _ (session.tagged token) entry (hnew hentry), by simp⟩
    have hsubmit (other : Session TokenStore) (h : LooksAs token.category session other) :=
      submit_of_not_blank other token (h.tagged token ▸ hblank)
    cases hresult : (session.sink.createToken (session.tagged token)).1 with
    | error refusal =>
      refine ⟨false, Gain.andThen { stored := new } { found := [session.complaint .sinkRejected
        (session.tagged token) refusal.message] }, hstored.andThen ⟨by simp, by simp⟩,
        fun other h => ?_⟩
      rw [hsubmit other h, h.tagged, hcreated other.sink h.sink, hresult, ← h.complaint,
        ← gain_gain _ _ _ other.journal.expression]
      dsimp only
      rw [refuse_eq_gain]
      simp [gain, TokenStore.append, complaint]
    | ok _ =>
      refine ⟨true, Gain.andThen { stored := new } { built := [session.tagged token] },
        hstored.andThen ⟨by simp, by simp [tagged]⟩, fun other h => ?_⟩
      rw [hsubmit other h, h.tagged, hcreated other.sink h.sink, hresult,
        ← gain_gain _ _ _ other.journal.expression]
      dsimp only
      rw [remember_eq_gain { other with sink := other.sink.append new } h.scope]
      simp [gain, TokenStore.append]

/-- Tokens that are submitted gain the same for all sessions that look alike. -/
theorem submitAll_gain (session : Session TokenStore) (tokens : List Token)
    (htokens : ∀ token ∈ tokens, token.category = category) :
    ∃ count gain, gain.From category ∧ ∀ other, LooksAs category session other →
      other.submitAll tokens = (count, other.gain gain other.journal.expression) := by
  induction tokens generalizing session with
  | nil => exact ⟨0, { }, ⟨by simp, by simp⟩, fun other _ => by rw [gain_nothing]; rfl⟩
  | cons token rest ih =>
    rw [List.forall_mem_cons] at htokens
    obtain ⟨rfl, hrest⟩ := htokens
    obtain ⟨accepted, first, hfirst, hsubmit⟩ := submit_gain session token
    obtain ⟨count, later, hlater, hall⟩ :=
      ih (session.gain first session.journal.expression) hrest
    refine ⟨if accepted then count + 1 else count, first.andThen later, hfirst.andThen hlater,
      fun other h => ?_⟩
    rw [submitAll, hsubmit other h]
    dsimp only
    rw [hall _ (h.gain first _ _), gain_gain]
    rfl

/-- A declaration that does not fail gains the same for all sessions that look alike. -/
theorem build_gain (session : Session TokenStore) {options : TokenOptions} {value : Value}
    (hok : (session.build category options value).1 = .ok ()) :
    ∃ gain, gain.From category ∧ ∀ other, LooksAs category session other → ∃ expression,
      other.build category options value = (.ok (), other.gain gain expression) := by
  cases value with
  | map pairs =>
    obtain ⟨found, hread⟩ := Value.checkPairs_adds pairs session.journal
    cases hpriority : Priority.ofSetting options.priority with
    | error fault => simp [build, Value.toMapping, hpriority, abort] at hok
    | ok priority =>
      cases hacceptance : Acceptance.ofSetting options.acceptIf with
      | error fault => simp [build, Value.toMapping, hpriority, hacceptance, abort] at hok
      | ok acceptance =>
        obtain ⟨count, later, hlater, hall⟩ := submitAll_gain (session.gain { found } none)
          (mappingTokens category (Value.readPairs pairs) priority acceptance)
          fun token => category_of_mem_mappingTokens
        refine ⟨({ found } : Gain).andThen later, Gain.From.andThen ⟨by simp, by simp⟩ hlater,
          fun other h => ?_⟩
        obtain ⟨expression, hjournal⟩ := hread other.journal h.overrides h.location
        have hother : ({ other with journal := (Value.checkPairs pairs other.journal).2 } :
            Session TokenStore) = other.gain { found } expression := by
          rw [hjournal]
          simp [gain, TokenStore.append]
        refine ⟨expression, ?_⟩
        simp only [build, Value.toMapping, hpriority, hacceptance, buildTokens,
          congrArg Prod.fst (Value.checkPairs_eq pairs other.journal), hother]
        rw [hall _ (h.gain _ _ _), gain_gain]
        rfl
  | _ => simp [build, Value.toMapping] at hok

/-- Two categories are independent when they are different and not both among those between which
the store derives tokens or looks for the virama. -/
structure Independent (first second : Category) : Prop where
  ne : first ≠ second
  apart : ¬ (first ∈ [.consonant, .deadConsonant, .virama] ∧
    second ∈ [.consonant, .deadConsonant, .virama])

/-- Independence goes both ways. -/
theorem Independent.symm {first second : Category} (h : Independent first second) :
    Independent second first :=
  ⟨h.ne.symm, fun hboth => h.apart hboth.symm⟩

/-- What is gained from a category decides about no tokens of an independent one. -/
theorem Independent.not_mem_footprint {first second : Category} (h : Independent first second)
    {gain : Gain} (hgain : gain.From first) :
    ∀ token ∈ gain.stored, token.category ∉ TokenStore.footprint second := by
  intro token htoken hmem
  have hne := h.ne
  have hapart := h.apart
  unfold TokenStore.footprint at hmem
  rcases hgain.stored token htoken with hsame | ⟨hconsonant, hdead⟩
  · rw [hsame] at hmem
    split at hmem
    · rename_i hsecond
      exact hapart ⟨hmem, by simp [hsecond]⟩
    · exact hne (List.mem_singleton.mp hmem)
  · rw [hdead] at hmem
    split at hmem
    · rename_i hsecond
      exact hne (hconsonant.trans hsecond.symm)
    · exact hapart ⟨by simp [hconsonant], by simp [← List.mem_singleton.mp hmem]⟩

/-- Tokens of one list that are of none of the categories of another can be selected before or
after these. -/
theorem filter_append_comm {tokens others : List Token}
    (h : ∀ token ∈ tokens, ∀ other ∈ others, token.category ≠ other.category)
    {selects : Token → Bool} {category : Category}
    (hselects : ∀ token, selects token = true → token.category = category) :
    (tokens ++ others).filter selects = (others ++ tokens).filter selects := by
  rw [List.filter_append, List.filter_append]
  by_cases hfound : ∃ token ∈ tokens, selects token = true
  · obtain ⟨token, htoken, hselected⟩ := hfound
    have hnone : others.filter selects = [] :=
      List.filter_eq_nil_iff.mpr fun other hother hselectedToo => h token htoken other hother
        ((hselects token hselected).trans (hselects other hselectedToo).symm)
    rw [hnone, List.append_nil, List.nil_append]
  · have hnone : tokens.filter selects = [] :=
      List.filter_eq_nil_iff.mpr fun token htoken hselected => hfound ⟨token, htoken, hselected⟩
    rw [hnone, List.append_nil, List.nil_append]

/-- What is gained from independent categories is apart. -/
theorem Independent.gains_apart {first second : Category} (h : Independent first second)
    {gain next : Gain} (hgain : gain.From first) (hnext : next.From second) :
    gain.Apart next where
  stored := by
    intro token htoken other hother hsame
    refine h.not_mem_footprint hgain token htoken (hsame ▸ ?_)
    rcases hnext.stored other hother with hkind | ⟨hconsonant, hdead⟩
    · rw [hkind]
      exact TokenStore.mem_footprint_self second
    · simp [TokenStore.footprint, hconsonant, hdead]
  built := by
    intro token htoken other hother
    rw [hgain.built token htoken, hnext.built other hother]
    exact h.ne

/-- The order of gains that are apart does not matter to the tokens of a category in the store. -/
theorem tokensOf_gain_comm (session : Session TokenStore) {gain next : Gain} (h : gain.Apart next)
    (expression expression' : Option String) (category : Category) :
    (session.gain (gain.andThen next) expression).sink.tokensOf category =
      (session.gain (next.andThen gain) expression').sink.tokensOf category := by
  change (session.sink.append (gain.stored ++ next.stored)).tokensOf category =
    (session.sink.append (next.stored ++ gain.stored)).tokensOf category
  rw [TokenStore.tokensOf_append, TokenStore.tokensOf_append,
    filter_append_comm h.stored fun token hselected => beq_iff_eq.mp hselected]

/-- Nor does it matter to those that the session remembers. -/
theorem tokens_gain_comm (session : Session TokenStore) {gain next : Gain} (h : gain.Apart next)
    (expression expression' : Option String) (category : Category) (filter : TokenFilter) :
    (session.gain (gain.andThen next) expression).tokens category filter =
      (session.gain (next.andThen gain) expression').tokens category filter := by
  change (session.built ++ (gain.built ++ next.built)).filter _ =
    (session.built ++ (next.built ++ gain.built)).filter _
  rw [List.filter_append session.built, List.filter_append session.built,
    filter_append_comm h.built fun token hselected =>
      beq_iff_eq.mp (Bool.and_eq_true_iff.mp hselected).1]

/-- Nor does it matter to their number. -/
theorem tokensCreated_gain_comm (session : Session TokenStore) (gain next : Gain)
    (expression expression' : Option String) :
    (session.gain (gain.andThen next) expression).tokensCreated =
      (session.gain (next.andThen gain) expression').tokensCreated := by
  change session.tokensCreated + (gain.built ++ next.built).length =
    session.tokensCreated + (next.built ++ gain.built).length
  rw [List.length_append, List.length_append, Nat.add_comm gain.built.length]

/-- A declaration gains the same after another one of an independent category. -/
theorem build_after_gain (hscope : session.lists.scope = none) {first second : Category}
    (h : Independent first second) {gain : Gain} (hgain : gain.From first)
    {options : TokenOptions} {value : Value} {next : Gain}
    (hnext : ∀ other, LooksAs second session other → ∃ expression,
      other.build second options value = (.ok (), other.gain next expression))
    (expression : Option String) :
    ∃ last, (session.gain gain expression).build second options value =
      (.ok (), session.gain (gain.andThen next) last) := by
  obtain ⟨last, hbuild⟩ :=
    hnext _ (LooksAs.gain_right hscope (h.not_mem_footprint hgain) expression)
  exact ⟨last, by rw [hbuild, gain_gain]⟩

/-- Independent declarations commute. Take any session without an open list scope and two
declarations that do not fail in it, of different categories that are not both among the consonants,
the dead consonants and the viramas. In either order they succeed, and leave the same tokens of
every category in the store, the same built ones in the same order, the same count and the same
lists, and the same new diagnostics but for their order. -/
theorem build_comm (session : Session TokenStore) (hscope : session.lists.scope = none)
    (first second : Category) (hdistinct : first ≠ second)
    (hapart : ¬ (first ∈ [.consonant, .deadConsonant, .virama] ∧
      second ∈ [.consonant, .deadConsonant, .virama]))
    (options options' : TokenOptions) (value value' : Value)
    (hfirst : (session.build first options value).1 = .ok ())
    (hsecond : (session.build second options' value').1 = .ok ()) :
    let one := (session.build first options value).2.build second options' value'
    let other := (session.build second options' value').2.build first options value
    one.1 = .ok () ∧ other.1 = .ok () ∧
      (∀ category, one.2.sink.tokensOf category = other.2.sink.tokensOf category) ∧
      (∀ category filter, one.2.tokens category filter = other.2.tokens category filter) ∧
      one.2.tokensCreated = other.2.tokensCreated ∧ one.2.lists = other.2.lists ∧
      ∃ found found', one.2.journal.entries = session.journal.entries ++ found ∧
        other.2.journal.entries = session.journal.entries ++ found' ∧ found.Perm found' := by
  intro one other
  have hindependent : Independent first second := ⟨hdistinct, hapart⟩
  obtain ⟨gain, hfrom, hgain⟩ := build_gain session hfirst
  obtain ⟨next, hfromNext, hnext⟩ := build_gain session hsecond
  obtain ⟨expression, hbuilt⟩ := hgain session (.refl hscope)
  obtain ⟨expression', hbuilt'⟩ := hnext session (.refl hscope)
  obtain ⟨last, hone⟩ := build_after_gain hscope hindependent hfrom hnext expression
  obtain ⟨last', hother⟩ := build_after_gain hscope hindependent.symm hfromNext hgain expression'
  have hone' : one = (.ok (), session.gain (gain.andThen next) last) := by
    rw [← hone]
    simp only [one, hbuilt]
  have hother' : other = (.ok (), session.gain (next.andThen gain) last') := by
    rw [← hother]
    simp only [other, hbuilt']
  have hgains : gain.Apart next := hindependent.gains_apart hfrom hfromNext
  rw [hone', hother']
  exact ⟨rfl, rfl, tokensOf_gain_comm session hgains last last',
    tokens_gain_comm session hgains last last',
    tokensCreated_gain_comm session gain next last last', rfl, gain.found ++ next.found,
    next.found ++ gain.found, rfl, rfl, List.perm_append_comm⟩

/-- A session that has a virama, derives dead consonants and refuses duplicates. -/
def inferring : Session TokenStore where
  sink :=
    { buffer := [{ category := .virama, pattern := "~", value1 := "x" }]
      infersDeadConsonants := true
      ignoresDuplicates := false }

/-- A vowel, the same one again, and one without a value. -/
def someVowels : Value := .map [(.str "a", .str "A"), (.str "a", .str "A"), (.str "i", .str "")]

/-- A consonant, the same one again, and one without a pattern. -/
def someConsonants : Value :=
  .map [(.str "ka", .str "k"), (.str "ka", .str "k"), (.str "", .str "g")]

/-- Vowels and consonants may be declared in either order. The refused ones are reported in another
order. -/
theorem build_comm_inferring :
    let one := (inferring.build .vowel { } someVowels).2.build .consonant { } someConsonants
    let other := (inferring.build .consonant { } someConsonants).2.build .vowel { } someVowels
    (inferring.build .vowel { } someVowels).1 = .ok () ∧
      (inferring.build .consonant { } someConsonants).1 = .ok () ∧
      one.1 = .ok () ∧ other.1 = .ok () ∧
      (∀ category, one.2.sink.tokensOf category = other.2.sink.tokensOf category) ∧
      (one.2.sink.tokensOf .deadConsonant).map Token.expression = ["k => kx"] ∧
      one.2.journal.entries.length = 4 ∧
      ∃ found found', one.2.journal.entries = [] ++ found ∧
        other.2.journal.entries = [] ++ found' ∧ found.Perm found' := by
  intro one other
  obtain ⟨hone, hother, hstored, -, -, -, hfound⟩ := build_comm inferring rfl .vowel .consonant
    (by decide) (by decide) { } { } someVowels someConsonants rfl rfl
  exact ⟨rfl, rfl, hone, hother, hstored, by decide +kernel, by decide +kernel, hfound⟩

end Session

end TranslitScheme
