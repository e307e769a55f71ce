import TranslitScheme.Proofs.Repetition.Operation
import TranslitScheme.Proofs.Session.Lockstep
import TranslitScheme.Proofs.Session.Submission

/-!
# What default symbols are refused for

When a session is finished, the default symbols are handed to the sink like any other tokens. In a
store without rejections there is one thing that can be wrong with a symbol that is neither blank
nor too long: its entry is stored already, while duplicates are not passed over. Symbols of
different categories do not get in each other's way, so each of them can be judged by the store as
it was before the first one.

What is needed of the session holds again after any operations: the sink still rejects nothing, the
settings are the same, and no tag is active outside of tag scopes.
-/

namespace TranslitScheme

namespace TokenStore

/-- A token that nothing is derived from is kept in its zero-width form, once it is inspected. -/
theorem createToken_eq_keep (store : TokenStore) (token : Token)
    (hcategory : token.category ≠ .consonant) (hinspect : store.inspect token = .ok ()) :
    store.createToken token = store.keep token.withZeroWidth := by
  have hforms : store.forms token = .ok (none, token.withZeroWidth) :=
    if_neg fun hboth => hcategory hboth.1
  have hcut := keep_or_cut store [] token.withZeroWidth rfl
  rw [append_nil, List.nil_append, ← keep_eq] at hcut
  unfold createToken
  simp only [hinspect, hforms, keepDerived]
  exact hcut

end TokenStore

/-- A symbol that stands for itself. -/
def Token.ofSymbol (category : Category) (symbol : String) : Token where
  category
  pattern := symbol
  value1 := symbol

/-- A text that a store takes as a pattern: neither blank nor too long. -/
def Token.Sized (symbol : String) : Prop := symbol ≠ "" ∧ symbol.utf8ByteSize ≤ 30

/-- All default symbols can be stored. -/
structure DefaultSymbols.Sized (defaults : DefaultSymbols) : Prop where
  nonJoiner : Token.Sized defaults.nonJoiner
  joiner : Token.Sized defaults.joiner
  separator : Token.Sized defaults.separator

namespace Session

/-- The symbols that are added when a session is finished, with their categories. -/
def defaultSymbols {σ : Type} (session : Session σ) : List (Category × String) :=
  let defaults := session.settings.defaults
  if defaults.enabled then
    (if session.ownNonJoiner then [] else [(.nonJoiner, defaults.nonJoiner)]) ++
      (if session.ownJoiner then [] else [(.joiner, defaults.joiner)]) ++
      [(.symbol, defaults.separator)]
  else []

/-- The tokens of the symbols that are added when a session is finished. -/
def defaultTokens {σ : Type} (session : Session σ) : List Token :=
  session.defaultSymbols.map fun symbol => Token.ofSymbol symbol.1 symbol.2

/-- The entry of a token is stored already and duplicates are not passed over. -/
def refuses (session : Session TokenStore) (token : Token) : Bool :=
  !session.sink.ignoresDuplicates && session.sink.holds token.withZeroWidth

/-- The diagnostic for a token that is refused as a duplicate. -/
def refusal {σ : Type} (session : Session σ) (token : Token) : Diagnostic where
  code := .sinkRejected
  severity := session.journal.overrides.severityOf .sinkRejected .error
  message :=
    (SinkError.duplicate token.withZeroWidth.pattern token.withZeroWidth.value1).message
  location := session.journal.location
  expression := some token.expression

/-! ### Adding the symbols -/

/-- Adding a symbol unless there is one already submits it or nothing. -/
theorem buildDefaultIf_eq {σ : Type} [TokenSink σ] (session : Session σ) (own : Bool)
    (category : Category) (symbol : String) :
    session.buildDefaultIf (!own) category symbol =
      (session.submitAll ((if own then [] else [(category, symbol)]).map fun symbol =>
        Token.ofSymbol symbol.1 symbol.2)).2 := by
  cases own <;> rfl

/-- The symbols are submitted in one go. -/
theorem injectDefaults_eq {σ : Type} [TokenSink σ] (session : Session σ) :
    session.injectDefaults = (session.submitAll session.defaultTokens).2 := by
  have hown (tokens : List Token) : (session.submitAll tokens).2.ownJoiner = session.ownJoiner := by
    rw [submitAll_eq]
    rfl
  unfold injectDefaults defaultTokens defaultSymbols
  dsimp only
  split
  · rw [List.map_append, List.map_append, submitAll_append, submitAll_append, buildDefaultIf_eq,
      buildDefaultIf_eq, hown]
    rfl
  · rfl

/-- A session that is between operations: its sink rejects nothing, and no tag is active. -/
structure Idle (session : Session TokenStore) : Prop where
  rejections : session.sink.rejections = []
  tag : session.journal.tag = none

variable {session : Session TokenStore}

/-- The store finds nothing wrong with a symbol by itself. -/
theorem Idle.inspect_ofSymbol (h : session.Idle) (category : Category) {symbol : String}
    (hsized : Token.Sized symbol) :
    session.sink.inspect (Token.ofSymbol category symbol) = .ok () := by
  have hfits : (Token.ofSymbol category symbol).fits = true := by
    rw [TokenStore.fits_iff]
    simp [Token.ofSymbol, hsized.2]
  unfold TokenStore.inspect
  rw [h.rejections]
  simp only [List.lookup_nil, hfits, if_true]
  exact if_neg (by simp [Token.ofSymbol, hsized.1])

/-- A symbol is refused when its entry is stored and duplicates are not passed over, and otherwise
nothing is recorded. -/
theorem Idle.submit_ofSymbol (h : session.Idle) {category : Category}
    (hcategory : category ≠ .consonant) {symbol : String} (hsized : Token.Sized symbol) :
    let token := Token.ofSymbol category symbol
    let left := (session.submit token).2
    left.journal.entries = session.journal.entries ++
        (if session.refuses token then [session.refusal token] else []) ∧
      left.journal.overrides = session.journal.overrides ∧
      left.journal.location = session.journal.location ∧
      left.Idle ∧
      ∀ other : Token, other.category ≠ category → left.refuses other = session.refuses other := by
  intro token left
  have htagged : { token with tag := session.journal.tag.getD "" } = token := by
    rw [h.tag]
    rfl
  have hblank : ¬ (token.pattern = "" ∨ token.value1 = "") := by
    simp [token, Token.ofSymbol, hsized.1]
  have hcreated : TokenSink.createToken session.sink token =
      session.sink.keep token.withZeroWidth :=
    TokenStore.createToken_eq_keep session.sink token hcategory
      (h.inspect_ofSymbol category hsized)
  have hleft : left = (session.submit token).2 := rfl
  unfold submit at hleft
  rw [htagged] at hleft
  dsimp only at hleft
  rw [if_neg hblank, hcreated, TokenStore.keep_eq] at hleft
  by_cases hheld : session.sink.holds token.withZeroWidth = true
  · by_cases hignores : session.sink.ignoresDuplicates = true
    · rw [if_pos hheld, if_pos hignores] at hleft
      have hrefuses : session.refuses token = false := by simp [refuses, hignores]
      rw [hleft, hrefuses]
      exact ⟨(List.append_nil _).symm, rfl, rfl, ⟨h.rejections, h.tag⟩, fun _ _ => rfl⟩
    · rw [if_pos hheld, if_neg hignores] at hleft
      have hrefuses : session.refuses token = true := by simp [refuses, hignores, hheld]
      rw [hleft, hrefuses]
      exact ⟨rfl, rfl, rfl, ⟨h.rejections, h.tag⟩, fun _ _ => rfl⟩
  · rw [if_neg hheld] at hleft
    have hrefuses : session.refuses token = false := by simp [refuses, hheld]
    rw [hleft, hrefuses]
    refine ⟨(List.append_nil _).symm, rfl, rfl, ⟨h.rejections, h.tag⟩, fun other hother => ?_⟩
    have hdifferent : token.withZeroWidth.sameEntry other.withZeroWidth = false := by
      simp only [Token.sameEntry, TokenStore.category_withZeroWidth]
      simp [token, Token.ofSymbol, hother.symm]
    change (!session.sink.ignoresDuplicates &&
      (session.sink.append [token.withZeroWidth]).holds other.withZeroWidth) = _
    rw [TokenStore.holds_append]
    simp [hdifferent, refuses]

/-- Of symbols of different categories, those are refused whose entries are stored, and nothing else
is recorded. -/
theorem Idle.submitAll_ofSymbol (h : session.Idle) (symbols : List (Category × String))
    (hsymbols : ∀ symbol ∈ symbols, symbol.1 ≠ .consonant ∧ Token.Sized symbol.2)
    (hnodup : (symbols.map (·.1)).Nodup) :
    (session.submitAll (symbols.map fun symbol => .ofSymbol symbol.1 symbol.2)).2.journal.entries =
      session.journal.entries ++ ((symbols.map fun symbol =>
        Token.ofSymbol symbol.1 symbol.2).filter session.refuses).map session.refusal := by
  induction symbols generalizing session with
  | nil => exact (List.append_nil _).symm
  | cons symbol rest ih =>
    rw [List.forall_mem_cons] at hsymbols
    rw [List.map_cons, List.nodup_cons] at hnodup
    obtain ⟨hentries, hoverrides, hlocation, hleft, hrefuses⟩ :=
      h.submit_ofSymbol hsymbols.1.1 hsymbols.1.2
    have hrest := ih hleft hsymbols.2 hnodup.2
    have hfilter : (rest.map fun symbol => Token.ofSymbol symbol.1 symbol.2).filter
        (session.submit (Token.ofSymbol symbol.1 symbol.2)).2.refuses =
          (rest.map fun symbol => Token.ofSymbol symbol.1 symbol.2).filter session.refuses := by
      refine List.filter_congr fun other hother => hrefuses other fun heq => hnodup.1 ?_
      obtain ⟨later, hlater, rfl⟩ := List.mem_map.mp hother
      exact heq ▸ List.mem_map_of_mem hlater
    have hrefusal : (session.submit (Token.ofSymbol symbol.1 symbol.2)).2.refusal =
        session.refusal := by
      funext other
      rw [refusal, refusal, hoverrides, hlocation]
    rw [hfilter, hrefusal, hentries] at hrest
    refine hrest.trans ?_
    rw [List.append_assoc, List.map_cons, List.filter_cons]
    split <;> rfl

/-- The default symbols are of different categories, none of which is that of consonants. -/
theorem nodup_defaultSymbols {σ : Type} (session : Session σ) :
    (session.defaultSymbols.map (·.1)).Nodup ∧
      ∀ symbol ∈ session.defaultSymbols, symbol.1 ≠ .consonant := by
  unfold defaultSymbols
  dsimp only
  cases session.settings.defaults.enabled <;> cases session.ownNonJoiner <;>
    cases session.ownJoiner <;> simp

/-- The default symbols can be stored when those of the settings can. -/
theorem sized_of_mem_defaultSymbols {σ : Type} {session : Session σ}
    (hsized : session.settings.defaults.Sized) :
    ∀ symbol ∈ session.defaultSymbols, Token.Sized symbol.2 := by
  unfold defaultSymbols
  dsimp only
  cases session.settings.defaults.enabled <;> cases session.ownNonJoiner <;>
    cases session.ownJoiner <;> simp [hsized.nonJoiner, hsized.joiner, hsized.separator]

/-- Between operations, the default symbols are added without a diagnostic, apart from one for each
of them whose entry is stored already while duplicates are not passed over. -/
theorem Idle.entries_injectDefaults (h : session.Idle)
    (hsized : session.settings.defaults.Sized) :
    session.injectDefaults.journal.entries = session.journal.entries ++
      (session.defaultTokens.filter session.refuses).map session.refusal := by
  obtain ⟨hnodup, hcategory⟩ := session.nodup_defaultSymbols
  rw [injectDefaults_eq]
  exact h.submitAll_ofSymbol session.defaultSymbols
    (fun symbol hsymbol =>
      ⟨hcategory symbol hsymbol, sized_of_mem_defaultSymbols hsized symbol hsymbol⟩) hnodup

/-! ### After any operations -/

/-- What every move keeps: the settings, what the sink rejects and whether its flush fails. -/
structure Keeps (session after : Session TokenStore) : Prop where
  settings : after.settings = session.settings
  rejections : after.sink.rejections = session.sink.rejections
  failsFlush : after.sink.failsFlush = session.sink.failsFlush

/-- A sink that carries out an operation keeps what it rejects. -/
theorem Keeps.of_sink {after : Session TokenStore} (operation : TokenStore.Operation)
    (hsettings : after.settings = session.settings)
    (hsink : after.sink = (session.sink.perform operation).2) : session.Keeps after where
  settings := hsettings
  rejections := by rw [hsink, (TokenStore.rejections_perform session.sink operation).1]
  failsFlush := by rw [hsink, (TokenStore.rejections_perform session.sink operation).2]

/-- What is kept twice is kept. -/
theorem Keeps.trans {middle after : Session TokenStore} (h : session.Keeps middle)
    (h' : middle.Keeps after) : session.Keeps after :=
  ⟨h'.settings.trans h.settings, h'.rejections.trans h.rejections,
    h'.failsFlush.trans h.failsFlush⟩

/-- A move keeps the settings and what the sink rejects. -/
theorem Keeps.move {after : Session TokenStore} (hmove : session.Move after) :
    session.Keeps after := by
  cases hmove with
  | submit token =>
    rcases submit_cases session token with ⟨-, journal, -, heq⟩ | ⟨-, -, journal, -, heq⟩ |
      ⟨-, -, heq⟩
    · rw [heq]
      exact ⟨rfl, rfl, rfl⟩
    · rw [heq]
      exact .of_sink (.createToken (session.tagged token)) rfl rfl
    · rw [heq]
      exact .of_sink (.createToken (session.tagged token)) rfl rfl
  | configure option => exact .of_sink (.configure option) rfl rfl
  | stemRule rule => exact .of_sink (.createStemRule rule) rfl rfl
  | stemException exempt => exact .of_sink (.createStemException exempt) rfl rfl
  | _ => exact ⟨rfl, rfl, rfl⟩

/-- So does a change that is made around the steps of a scheme. -/
theorem Keeps.outerMove {after : Session TokenStore} (hmove : session.OuterMove after) :
    session.Keeps after := by
  cases hmove with
  | describe details => exact ⟨rfl, rfl, rfl⟩
  | flush =>
    refine .of_sink .flush ?_ (sink_flush session)
    unfold flush
    rcases TokenSink.flush session.sink with ⟨_ | _, sink⟩ <;> rfl
  | storeDetails now =>
    refine .of_sink (.setDetails _) ?_ (sink_storeDetails session now)
    unfold storeDetails
    dsimp only
    rcases TokenSink.setDetails session.sink { session.details with compiledDate := now } with
      ⟨_ | _, sink⟩ <;> rfl

/-- Wherever moves lead, the settings are kept and what the sink rejects. -/
theorem Keeps.reaches {after : Session TokenStore} (h : session.Reaches after) :
    session.Keeps after :=
  h.keeps (fun hmove hkept => hkept.trans (.move hmove))
    (fun hmove hkept => hkept.trans (.outerMove hmove)) ⟨rfl, rfl, rfl⟩

/-- Operations outside of scopes keep the tag. -/
theorem lockstep_tag (active : Option String) :
    Lockstep fun session other : Session TokenStore =>
      session = other ∧ session.journal.tag = active where
  reads := by rintro session _ ⟨rfl, -⟩; exact .refl session
  express := by rintro session _ expression ⟨rfl, h⟩; exact ⟨rfl, h⟩
  record := by rintro session _ finding ⟨rfl, h⟩; exact ⟨rfl, h⟩
  submit := by
    rintro session _ token ⟨rfl, h⟩
    exact ⟨rfl, rfl, (frames_submit session token).tag.trans h⟩
  inferDeadConsonants := by rintro session _ enabled ⟨rfl, h⟩; exact ⟨rfl, h⟩
  ignoreDuplicates := by rintro session _ enabled ⟨rfl, h⟩; exact ⟨rfl, h⟩
  refresh := by rintro session _ ⟨rfl, h⟩; exact ⟨rfl, h⟩
  stemRule := by rintro session _ rule ⟨rfl, h⟩; exact ⟨rfl, rfl, h⟩
  stemException := by rintro session _ exempt ⟨rfl, h⟩; exact ⟨rfl, rfl, h⟩
  own := by
    rintro session _ ⟨rfl, h⟩
    exact ⟨⟨rfl, h⟩, ⟨rfl, h⟩⟩

/-- Finishing keeps the tag. -/
theorem tag_finish (session : Session TokenStore) (now : String) :
    (session.finish now).journal.tag = session.journal.tag := by
  have hinjected : session.injectDefaults.journal.tag = session.journal.tag := by
    rw [injectDefaults_eq]
    exact (frames_submitAll session _).tag
  unfold finish storeDetails flush
  rw [← hinjected]
  dsimp only
  split <;> split <;> rfl

open Operation

mutual

/-- An operation puts the tag back that was active before. -/
theorem tag_perform : (operation : Operation) → (session : Session TokenStore) →
    (perform operation session).2.journal.tag = session.journal.tag
  | .describe header, session => by rw [perform, header.apply_eq]
  | .locate location, session => rfl
  | .build category options value, session =>
    ((lockstep_tag _).build category options value ⟨rfl, rfl⟩).2.2
  | .buildTokens _ _ _ _, session => (frames_submitAll session _).tag
  | .joiner value, session => ((lockstep_tag _).joiner value ⟨rfl, rfl⟩).2.2
  | .nonJoiner value, session => ((lockstep_tag _).nonJoiner value ⟨rfl, rfl⟩).2.2
  | .period value, session => ((lockstep_tag _).build .period { } _ ⟨rfl, rfl⟩).2.2
  | .virama, session => ((lockstep_tag _).virama ⟨rfl, rfl⟩).2.2
  | .customList name, session => ((lockstep_tag _).customList name ⟨rfl, rfl⟩).2.2
  | .deadConsonants filter, session => ((lockstep_tag _).deadConsonants filter ⟨rfl, rfl⟩).2.2
  | .combine source filter template, session =>
    ((lockstep_tag _).combine source filter template ⟨rfl, rfl⟩).2.2
  | .expand category options source filter template, session => by
    have hasked := ((lockstep_tag _).combine source filter template (s := session) ⟨rfl, rfl⟩).2.2
    rw [perform]
    generalize session.combine source filter template = asked at hasked ⊢
    obtain ⟨fault | mapping, asked⟩ := asked
    · exact hasked
    · exact ((lockstep_tag _).build category options mapping.toValue ⟨rfl, hasked⟩).2.2
  | .generateCompounds, session => (frames_submitAll session _).tag
  | .stemRules value, session => ((lockstep_tag _).stemRules value ⟨rfl, rfl⟩).2.2
  | .stemExceptions value, session => ((lockstep_tag _).stemExceptions value ⟨rfl, rfl⟩).2.2
  | .inferDeadConsonants enabled, session => rfl
  | .ignoreDuplicates enabled, session => rfl
  | .tag name body, session => rfl
  | .list names body, session => by
    rw [perform, underLists]
    rcases session.lists.openScope names with ⟨fault | ⟨⟩, lists⟩
    · rfl
    · exact tag_performAll body { session with lists }
  | .attempt body, session => tag_after body session
  | .finish now, session => tag_finish session now

/-- Operations up to a failure put the tag back. -/
theorem tag_performAll : (operations : List Operation) → (session : Session TokenStore) →
    (performAll operations session).2.journal.tag = session.journal.tag
  | [], session => rfl
  | operation :: rest, session => by
    have hfirst := tag_perform operation session
    rw [performAll]
    generalize perform operation session = outcome at hfirst ⊢
    obtain ⟨fault | ⟨⟩, left⟩ := outcome
    · exact hfirst
    · exact (tag_performAll rest left).trans hfirst

/-- Operations with any outcomes put the tag back. -/
theorem tag_after : (operations : List Operation) → (session : Session TokenStore) →
    (after operations session).journal.tag = session.journal.tag
  | [], session => rfl
  | operation :: rest, session => by
    rw [after]
    exact (tag_after rest _).trans (tag_perform operation session)

end

end Session

end TranslitScheme
