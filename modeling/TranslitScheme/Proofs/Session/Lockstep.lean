import TranslitScheme.Proofs.Session.Operation

/-!
# Sessions in lockstep

Two sessions that are related go on in lockstep if every operation comes to the same result on both
and leaves them related. An operation is made of a few actions, such as recording a finding or
submitting a token, and it reads little of the session. So it is enough that a relation keeps what
is read the same and is kept by these actions: `Lockstep` lists them, and what follows goes through
the operations one by one. `ScopingLockstep` adds what scopes do, and `LastingLockstep` also what
surrounds the steps of a scheme.

The two sessions may have sinks of different kinds. They may also be one and the same session, and
then the relation is a property of it that operations keep.
-/

namespace TranslitScheme

namespace Session

/-- The session takes what an operation of the sink leaves. -/
def take {σ α : Type} (session : Session σ) (outcome : α × σ) : α × Session σ :=
  (outcome.1, { session with sink := outcome.2 })

/-- Two outcomes agree: their results are equal and the sessions are related. -/
def Alike {σ τ α : Type} (related : Session σ → Session τ → Prop) (outcome : α × Session σ)
    (other : α × Session τ) : Prop :=
  outcome.1 = other.1 ∧ related outcome.2 other.2

/-- Two sessions are the same in what operations read of them, apart from the sink. -/
structure ReadsAs {σ τ : Type} (session : Session σ) (other : Session τ) : Prop where
  built : session.built = other.built
  lists : session.lists = other.lists
  inherentVowel : session.settings.inherentVowel = other.settings.inherentVowel
  defaults : session.settings.defaults = other.settings.defaults
  expression : session.journal.expression = other.journal.expression
  tag : session.journal.tag = other.journal.tag
  details : session.details = other.details
  ownNonJoiner : session.ownNonJoiner = other.ownNonJoiner
  ownJoiner : session.ownJoiner = other.ownJoiner

/-- A session reads as itself. -/
theorem ReadsAs.refl {σ : Type} (session : Session σ) : session.ReadsAs session :=
  ⟨rfl, rfl, rfl, rfl, rfl, rfl, rfl, rfl, rfl⟩

variable {σ τ : Type} [TokenSink σ] [TokenSink τ]

/-- A relation under which operations do the same on both sides. -/
structure Lockstep (related : Session σ → Session τ → Prop) : Prop where
  reads {s : Session σ} {t : Session τ} : related s t → s.ReadsAs t
  express {s : Session σ} {t : Session τ} (expression : Option String) : related s t →
    related { s with journal := { s.journal with expression } }
      { t with journal := { t.journal with expression } }
  record {s : Session σ} {t : Session τ} (finding : Finding) : related s t →
    related { s with journal := s.journal.record finding }
      { t with journal := t.journal.record finding }
  submit {s : Session σ} {t : Session τ} (token : Token) : related s t →
    Alike related (s.submit token) (t.submit token)
  inferDeadConsonants {s : Session σ} {t : Session τ} (enabled : Bool) : related s t →
    related (s.inferDeadConsonants enabled) (t.inferDeadConsonants enabled)
  ignoreDuplicates {s : Session σ} {t : Session τ} (enabled : Bool) : related s t →
    related (s.ignoreDuplicates enabled) (t.ignoreDuplicates enabled)
  refresh {s : Session σ} {t : Session τ} : related s t →
    related s.refreshDeadConsonants t.refreshDeadConsonants
  stemRule {s : Session σ} {t : Session τ} (rule : StemRule) : related s t →
    Alike related (s.take (TokenSink.createStemRule s.sink rule))
      (t.take (TokenSink.createStemRule t.sink rule))
  stemException {s : Session σ} {t : Session τ} (exempt : StemException) : related s t →
    Alike related (s.take (TokenSink.createStemException s.sink exempt))
      (t.take (TokenSink.createStemException t.sink exempt))
  own {s : Session σ} {t : Session τ} : related s t →
    related { s with ownNonJoiner := true } { t with ownNonJoiner := true } ∧
      related { s with ownJoiner := true } { t with ownJoiner := true }

/-- A lockstep that lasts through scopes. -/
structure ScopingLockstep (related : Session σ → Session τ → Prop) : Prop
    extends Lockstep related where
  retag {s : Session σ} {t : Session τ} (tag : Option String) : related s t →
    related { s with journal := { s.journal with tag } }
      { t with journal := { t.journal with tag } }
  enlist {s : Session σ} {t : Session τ} (lists : NamedLists) : related s t →
    related { s with lists } { t with lists }

/-- A lockstep that lasts through scopes and to the end of a compilation. -/
structure LastingLockstep (related : Session σ → Session τ → Prop) : Prop
    extends Lockstep related where
  retag {s : Session σ} {t : Session τ} (tag : Option String) : related s t →
    related { s with journal := { s.journal with tag } }
      { t with journal := { t.journal with tag } }
  enlist {s : Session σ} {t : Session τ} (lists : NamedLists) : related s t →
    related { s with lists } { t with lists }
  locate {s : Session σ} {t : Session τ} (location : Option Location) : related s t →
    related (s.setLocation location) (t.setLocation location)
  describe {s : Session σ} {t : Session τ} (details : Details) : related s t →
    related { s with details } { t with details }
  flush {s : Session σ} {t : Session τ} : related s t → related s.flush t.flush
  storeDetails {s : Session σ} {t : Session τ} (now : String) : related s t →
    related (s.storeDetails now) (t.storeDetails now)

variable {related : Session σ → Session τ → Prop} {s : Session σ} {t : Session τ}

omit [TokenSink σ] [TokenSink τ] in
/-- Two outcomes that agree are failures of the same kind, or results that are the same. -/
theorem Alike.cases {ε α : Type} {outcome : Except ε α × Session σ}
    {other : Except ε α × Session τ} (h : Alike related outcome other) :
    (∃ failure left right, outcome = (.error failure, left) ∧ other = (.error failure, right) ∧
      related left right) ∨
    ∃ value left right, outcome = (.ok value, left) ∧ other = (.ok value, right) ∧
      related left right := by
  obtain ⟨result, left⟩ := outcome
  obtain ⟨result', right⟩ := other
  obtain ⟨hresult, hleft⟩ := h
  obtain rfl : result = result' := hresult
  cases result with
  | error failure => exact Or.inl ⟨failure, left, right, rfl, rfl, hleft⟩
  | ok value => exact Or.inr ⟨value, left, right, rfl, rfl, hleft⟩

omit [TokenSink σ] [TokenSink τ] in
/-- A query comes to the same without its answer. -/
theorem Alike.withoutAnswer {α : Type} {outcome : Except Fault α × Session σ}
    {other : Except Fault α × Session τ} (h : Alike related outcome other) :
    Alike related (Operation.withoutAnswer outcome) (Operation.withoutAnswer other) :=
  ⟨congrArg (Except.map fun _ => ()) h.1, h.2⟩

namespace Lockstep

/-- An error under an expression of its own is recorded on both sides. -/
theorem errorIn (h : Lockstep related) (hst : related s t) (code : DiagnosticCode)
    (expression message : String) :
    related { s with journal := s.journal.errorIn code expression message }
      { t with journal := t.journal.errorIn code expression message } := by
  have hrecorded := h.record ⟨code, .error, message⟩ (h.express (some expression) hst)
  have hback := h.express s.journal.expression hrecorded
  unfold Journal.errorIn
  rw [← (h.reads hst).expression]
  exact hback

/-- Findings are recorded on both sides. -/
theorem recordAll (h : Lockstep related) (hst : related s t) (findings : List Finding) :
    related { s with journal := s.journal.recordAll findings }
      { t with journal := t.journal.recordAll findings } := by
  induction findings generalizing s t with
  | nil => exact hst
  | cons finding rest ih => exact ih (h.record finding hst)

/-- A fault is recorded on both sides. -/
theorem abort {α : Type} (h : Lockstep related) (hst : related s t) (fault : Fault) :
    Alike related (s.abort (α := α) fault) (t.abort fault) :=
  ⟨rfl, h.record fault.finding hst⟩

/-- Pairs are read to the same mapping. -/
theorem checkPairs (h : Lockstep related) (pairs : List (Value × Value)) (hst : related s t) :
    (Value.checkPairs pairs s.journal).1 = (Value.checkPairs pairs t.journal).1 ∧
      related { s with journal := (Value.checkPairs pairs s.journal).2 }
        { t with journal := (Value.checkPairs pairs t.journal).2 } := by
  induction pairs generalizing s t with
  | nil => exact ⟨rfl, hst⟩
  | cons pair rest ih =>
    obtain ⟨key, value⟩ := pair
    have hfound := h.recordAll (h.express (some (Value.pairText key value)) hst)
      (Value.checkPair key value).2
    obtain ⟨hmapping, hrest⟩ := ih (h.express none hfound)
    exact ⟨congrArg ((Value.checkPair key value).1.toList ++ ·) hmapping, hrest⟩

/-- A value is read to the same mapping, or is none on both sides. -/
theorem toMapping_cases (h : Lockstep related) (value : Value) (hst : related s t) :
    (∃ fault journal journal', value.toMapping s.journal = (.error fault, journal) ∧
      value.toMapping t.journal = (.error fault, journal') ∧
      related { s with journal } { t with journal := journal' }) ∨
    ∃ mapping journal journal', value.toMapping s.journal = (.ok mapping, journal) ∧
      value.toMapping t.journal = (.ok mapping, journal') ∧
      related { s with journal } { t with journal := journal' } := by
  cases value with
  | map pairs =>
    obtain ⟨hmapping, hread⟩ := h.checkPairs pairs hst
    refine Or.inr ⟨_, _, _, rfl, ?_, hread⟩
    rw [hmapping]
    rfl
  | _ => exact Or.inl ⟨_, _, _, rfl, rfl, h.record _ hst⟩

/-- The same tokens are accepted. -/
theorem submitAll (h : Lockstep related) (tokens : List Token) (hst : related s t) :
    Alike related (s.submitAll tokens) (t.submitAll tokens) := by
  induction tokens generalizing s t with
  | nil => exact ⟨rfl, hst⟩
  | cons token rest ih =>
    obtain ⟨haccepted, hsubmitted⟩ := h.submit token hst
    obtain ⟨hcount, hrest⟩ := ih hsubmitted
    refine ⟨?_, hrest⟩
    simp only [Session.submitAll, haccepted, hcount]

/-- A declaration comes to the same on both sides. -/
theorem build (h : Lockstep related) (category : Category) (options : TokenOptions)
    (value : Value) (hst : related s t) :
    Alike related (s.build category options value) (t.build category options value) := by
  unfold Session.build
  rcases h.toMapping_cases value hst with
    ⟨fault, journal, journal', hleft, hright, hread⟩ |
    ⟨mapping, journal, journal', hleft, hright, hread⟩
  · rw [hleft, hright]
    exact ⟨rfl, hread⟩
  · rw [hleft, hright]
    dsimp only
    cases Priority.ofSetting options.priority with
    | error fault => exact h.abort hread fault
    | ok priority =>
      cases Acceptance.ofSetting options.acceptIf with
      | error fault => exact h.abort hread fault
      | ok acceptance => exact ⟨rfl, (h.submitAll _ hread).2⟩

/-- A non-joiner is declared on both sides. -/
theorem nonJoiner (h : Lockstep related) (value : Value) (hst : related s t) :
    Alike related (s.nonJoiner value) (t.nonJoiner value) :=
  h.build _ _ value (h.own hst).1

/-- A joiner is declared on both sides. -/
theorem joiner (h : Lockstep related) (value : Value) (hst : related s t) :
    Alike related (s.joiner value) (t.joiner value) :=
  h.build _ _ value (h.own hst).2

/-- The same tokens of a category are selected. -/
theorem tokens (h : Lockstep related) (category : Category) (filter : TokenFilter)
    (hst : related s t) : s.tokens category filter = t.tokens category filter := by
  rw [Session.tokens, Session.tokens, (h.reads hst).built]

/-- The same compounds are built. -/
theorem generateCompounds (h : Lockstep related) (hst : related s t) :
    Alike related s.generateCompounds t.generateCompounds := by
  unfold Session.generateCompounds
  rw [h.tokens .consonant .all hst, h.tokens .vowel .all hst, (h.reads hst).inherentVowel]
  exact h.submitAll _ hst

/-- The first virama is the same. -/
theorem virama (h : Lockstep related) (hst : related s t) : Alike related s.virama t.virama := by
  unfold Session.virama
  rw [h.tokens .virama .all hst]
  cases t.tokens .virama .all with
  | nil => exact h.abort hst _
  | cons token rest => exact ⟨rfl, hst⟩

/-- A list holds the same tokens, or is unknown on both sides. -/
theorem customList (h : Lockstep related) (name : String) (hst : related s t) :
    Alike related (s.customList name) (t.customList name) := by
  unfold Session.customList
  rw [(h.reads hst).lists]
  cases t.lists.get? name with
  | none => exact h.abort hst _
  | some list => exact ⟨rfl, hst⟩

/-- The same dead consonants are read back. -/
theorem deadConsonants (h : Lockstep related) (filter : TokenFilter) (hst : related s t) :
    Alike related (s.deadConsonants filter) (t.deadConsonants filter) :=
  ⟨h.tokens .deadConsonant filter (h.refresh hst), h.refresh hst⟩

/-- A source has the same tokens. -/
theorem sourceTokens (h : Lockstep related) (source : TokenSource) (hst : related s t) :
    Alike related (s.sourceTokens source) (t.sourceTokens source) := by
  have hplain (category : Category) :
      (Except.ok (s.tokens category .all) : Except Fault (List Token)) =
        .ok (t.tokens category .all) :=
    congrArg Except.ok (h.tokens category .all hst)
  cases source with
  | category category =>
    cases category with
    | deadConsonant =>
      obtain ⟨htokens, hread⟩ := h.deadConsonants .all hst
      exact ⟨congrArg Except.ok htokens, hread⟩
    | _ => exact ⟨hplain _, hst⟩
  | list name => exact h.customList name hst

/-- A template expands to the same mapping. -/
theorem combine (h : Lockstep related) (source : TokenSource) (filter : TokenFilter)
    (template : Value) (hst : related s t) :
    Alike related (s.combine source filter template) (t.combine source filter template) := by
  unfold Session.combine
  rcases h.toMapping_cases template hst with
    ⟨fault, journal, journal', hleft, hright, hread⟩ |
    ⟨mapping, journal, journal', hleft, hright, hread⟩
  · rw [hleft, hright]
    exact ⟨rfl, hread⟩
  · rw [hleft, hright]
    dsimp only
    rcases (h.sourceTokens source hread).cases with
      ⟨fault, left, right, hasked, haskedToo, hleft⟩ |
        ⟨tokens, left, right, hasked, haskedToo, hleft⟩
    · rw [hasked, haskedToo]
      exact ⟨rfl, hleft⟩
    · rw [hasked, haskedToo]
      exact ⟨rfl, hleft⟩

/-- Groups are reported on both sides. -/
theorem reportGroups (h : Lockstep related) (mapping : Mapping) (hst : related s t) :
    related { s with journal := Session.reportGroups mapping s.journal }
      { t with journal := Session.reportGroups mapping t.journal } := by
  induction mapping generalizing s t with
  | nil => exact hst
  | cons pair rest ih =>
    obtain ⟨key, value⟩ := pair
    unfold Session.reportGroups
    split
    · exact ih hst
    · exact ih (h.express none (h.record _ (h.express _ hst)))

/-- Pairs are handed to both sinks, if a single pair comes to the same. -/
theorem submitPairs (h : Lockstep related)
    {create : σ → String × String → Except SinkError Unit × σ}
    {createToo : τ → String × String → Except SinkError Unit × τ}
    (hcreate : ∀ {s : Session σ} {t : Session τ} (pair : String × String), related s t →
      Alike related (s.take (create s.sink pair)) (t.take (createToo t.sink pair)))
    (what : String) (pairs : List (String × String)) (hst : related s t) :
    related (Session.submitPairs create what pairs s)
      (Session.submitPairs createToo what pairs t) := by
  induction pairs generalizing s t with
  | nil => exact hst
  | cons pair rest ih =>
    have hcreated := hcreate pair hst
    unfold Session.submitPairs
    generalize create s.sink pair = created at hcreated ⊢
    generalize createToo t.sink pair = createdToo at hcreated ⊢
    obtain ⟨result, sink⟩ := created
    obtain ⟨result', sink'⟩ := createdToo
    obtain ⟨hresult, htaken⟩ := hcreated
    obtain rfl : result = result' := hresult
    cases result with
    | error refusal => exact ih (h.errorIn htaken _ _ _)
    | ok _ => exact ih htaken

/-- Pairs are read, reported and handed to both sinks. -/
theorem createPairs (h : Lockstep related)
    {create : σ → String × String → Except SinkError Unit × σ}
    {createToo : τ → String × String → Except SinkError Unit × τ}
    (hcreate : ∀ {s : Session σ} {t : Session τ} (pair : String × String), related s t →
      Alike related (s.take (create s.sink pair)) (t.take (createToo t.sink pair)))
    (what : String) (value : Value) (hst : related s t) :
    Alike related (s.createPairs value create what) (t.createPairs value createToo what) := by
  unfold Session.createPairs
  rcases h.toMapping_cases value hst with
    ⟨fault, journal, journal', hleft, hright, hread⟩ |
    ⟨mapping, journal, journal', hleft, hright, hread⟩
  · rw [hleft, hright]
    exact ⟨rfl, hread⟩
  · rw [hleft, hright]
    exact ⟨rfl, h.submitPairs hcreate what _ (h.reportGroups mapping hread)⟩

/-- Stem rules are declared on both sides. -/
theorem stemRules (h : Lockstep related) (value : Value) (hst : related s t) :
    Alike related (s.stemRules value) (t.stemRules value) :=
  h.createPairs (fun pair hst => h.stemRule ⟨pair.1, pair.2⟩ hst) _ value hst

/-- Stem exceptions are declared on both sides. -/
theorem stemExceptions (h : Lockstep related) (value : Value) (hst : related s t) :
    Alike related (s.stemExceptions value) (t.stemExceptions value) :=
  h.createPairs (fun pair hst => h.stemException ⟨pair.1, pair.2⟩ hst) _ value hst

end Lockstep

namespace ScopingLockstep

/-- What runs under a tag comes to the same, if its body does. -/
theorem underTag {ε α : Type} (h : ScopingLockstep related)
    {body : Session σ → Except ε α × Session σ} {bodyToo : Session τ → Except ε α × Session τ}
    (hbody : ∀ {s : Session σ} {t : Session τ}, related s t → Alike related (body s) (bodyToo t))
    (name : String) (hst : related s t) :
    Alike related (s.underTag name body) (t.underTag name bodyToo) := by
  obtain ⟨hresult, hended⟩ := hbody (h.retag (some name) hst)
  refine ⟨hresult, ?_⟩
  have hback := h.retag s.journal.tag hended
  rw [Session.underTag, Session.underTag, ← (h.reads hst).tag]
  exact hback

/-- What runs in a list scope comes to the same, if its body does. -/
theorem underLists {ε α : Type} (h : ScopingLockstep related)
    {body : Session σ → Except ε α × Session σ} {bodyToo : Session τ → Except ε α × Session τ}
    (hbody : ∀ {s : Session σ} {t : Session τ}, related s t → Alike related (body s) (bodyToo t))
    (names : List Value) (wrap : Fault → ε) (hst : related s t) :
    Alike related (s.underLists names wrap body) (t.underLists names wrap bodyToo) := by
  unfold Session.underLists
  rw [(h.reads hst).lists]
  rcases t.lists.openScope names with ⟨fault | ⟨⟩, lists⟩
  · exact ⟨rfl, h.record _ (h.enlist lists hst)⟩
  · obtain ⟨hresult, hended⟩ := hbody (h.enlist lists hst)
    refine ⟨hresult, ?_⟩
    have hclosed := h.enlist (body { s with lists }).2.lists.closeScope hended
    dsimp only
    rw [← (h.reads hended).lists]
    exact hclosed

end ScopingLockstep

namespace LastingLockstep

/-- A lockstep that lasts to the end of a compilation lasts through scopes. -/
theorem scoping (h : LastingLockstep related) : ScopingLockstep related :=
  ⟨h.toLockstep, h.retag, h.enlist⟩

/-- A default symbol is added on both sides or on none. -/
theorem buildDefaultIf (h : LastingLockstep related) (condition : Bool) (category : Category)
    (symbol : String) (hst : related s t) :
    related (s.buildDefaultIf condition category symbol)
      (t.buildDefaultIf condition category symbol) := by
  unfold Session.buildDefaultIf
  split
  · exact (h.submitAll _ hst).2
  · exact hst

/-- The same default symbols are added. -/
theorem injectDefaults (h : LastingLockstep related) (hst : related s t) :
    related s.injectDefaults t.injectDefaults := by
  unfold Session.injectDefaults
  have hfirst := h.buildDefaultIf (!t.ownNonJoiner) .nonJoiner t.settings.defaults.nonJoiner hst
  dsimp only
  rw [(h.reads hst).defaults, (h.reads hst).ownNonJoiner, (h.reads hfirst).ownJoiner]
  split
  · exact (h.submitAll _ (h.buildDefaultIf _ .joiner t.settings.defaults.joiner hfirst)).2
  · exact hst

/-- Both sides are finished. -/
theorem finish (h : LastingLockstep related) (now : String) (hst : related s t) :
    related (s.finish now) (t.finish now) :=
  h.storeDetails now (h.flush (h.injectDefaults hst))

/-- A header is taken over on both sides. -/
theorem header (h : LastingLockstep related) (header : Header) (hst : related s t) :
    related (header.apply s) (header.apply t) := by
  rw [header.apply_eq, header.apply_eq, (h.reads hst).details]
  exact h.describe _ hst

end LastingLockstep

open Operation

mutual

/-- An operation comes to the same on both sides. -/
theorem LastingLockstep.perform (h : LastingLockstep related) : (operation : Operation) →
    {s : Session σ} → {t : Session τ} → related s t →
    Alike related (perform operation s) (perform operation t)
  | .describe header, _, _, hst => ⟨rfl, h.header header hst⟩
  | .locate location, _, _, hst => ⟨rfl, h.locate location hst⟩
  | .build category options value, _, _, hst => h.build category options value hst
  | .buildTokens _ _ _ _, _, _, hst => ⟨rfl, (h.submitAll _ hst).2⟩
  | .joiner value, _, _, hst => h.joiner value hst
  | .nonJoiner value, _, _, hst => h.nonJoiner value hst
  | .period value, _, _, hst => h.build _ _ _ hst
  | .virama, _, _, hst => (h.virama hst).withoutAnswer
  | .customList name, _, _, hst => (h.customList name hst).withoutAnswer
  | .deadConsonants filter, _, _, hst => ⟨rfl, (h.deadConsonants filter hst).2⟩
  | .combine source filter template, _, _, hst =>
    (h.combine source filter template hst).withoutAnswer
  | .expand category options source filter template, _, _, hst => by
    rw [Operation.perform, Operation.perform]
    rcases (h.combine source filter template hst).cases with
      ⟨fault, left, right, hs, ht, hleft⟩ | ⟨mapping, left, right, hs, ht, hleft⟩
    · rw [hs, ht]
      exact ⟨rfl, hleft⟩
    · rw [hs, ht]
      exact h.build category options mapping.toValue hleft
  | .generateCompounds, _, _, hst => ⟨rfl, (h.generateCompounds hst).2⟩
  | .stemRules value, _, _, hst => h.stemRules value hst
  | .stemExceptions value, _, _, hst => h.stemExceptions value hst
  | .inferDeadConsonants enabled, _, _, hst => ⟨rfl, h.inferDeadConsonants enabled hst⟩
  | .ignoreDuplicates enabled, _, _, hst => ⟨rfl, h.ignoreDuplicates enabled hst⟩
  | .tag name body, _, _, hst => by
    rw [Operation.perform, Operation.perform]
    exact h.scoping.underTag (fun hst => LastingLockstep.performAll h body hst) name hst
  | .list names body, _, _, hst => by
    rw [Operation.perform, Operation.perform]
    exact h.scoping.underLists (fun hst => LastingLockstep.performAll h body hst) names id hst
  | .attempt body, _, _, hst => ⟨rfl, LastingLockstep.after h body hst⟩
  | .finish now, _, _, hst => ⟨rfl, h.finish now hst⟩

/-- Operations up to a failure come to the same on both sides. -/
theorem LastingLockstep.performAll (h : LastingLockstep related) : (operations : List Operation) →
    {s : Session σ} → {t : Session τ} → related s t →
    Alike related (performAll operations s) (performAll operations t)
  | [], _, _, hst => ⟨rfl, hst⟩
  | operation :: rest, _, _, hst => by
    rw [Operation.performAll, Operation.performAll]
    rcases (LastingLockstep.perform h operation hst).cases with
      ⟨fault, left, right, hs, ht, hleft⟩ | ⟨⟨⟩, left, right, hs, ht, hleft⟩
    · rw [hs, ht]
      exact ⟨rfl, hleft⟩
    · rw [hs, ht]
      exact LastingLockstep.performAll h rest hleft

/-- Operations with any outcomes leave both sides related. -/
theorem LastingLockstep.after (h : LastingLockstep related) : (operations : List Operation) →
    {s : Session σ} → {t : Session τ} → related s t →
    related (after operations s) (after operations t)
  | [], _, _, hst => hst
  | operation :: rest, _, _, hst =>
    LastingLockstep.after h rest (LastingLockstep.perform h operation hst).2

end

/-- What operations keep in lockstep is a property of all sessions that they come by, if it is one
of the first. -/
theorem LastingLockstep.keeps {holds : Session σ → Prop}
    (h : LastingLockstep fun session other : Session σ => session = other ∧ holds session)
    {start session : Session σ} (hvisits : start.Visits session) (hstart : holds start) :
    holds session := by
  induction hvisits with
  | start => exact hstart
  | perform _ operation ih => exact (h.perform operation ⟨rfl, ih⟩).2.2
  | enterTag _ name ih => exact (h.retag (some name) ⟨rfl, ih⟩).2
  | enterLists _ _ ih => exact (h.enlist _ ⟨rfl, ih⟩).2

end Session

end TranslitScheme
