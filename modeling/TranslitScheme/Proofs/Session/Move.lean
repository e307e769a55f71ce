import TranslitScheme.Session.Finish
import TranslitScheme.Session.Query
import TranslitScheme.Session.Scope
import TranslitScheme.Session.Stemming
import TranslitScheme.Proofs.NamedLists.Places
import TranslitScheme.Proofs.Store.Invariant
import Mathlib.Logic.Relation

/-!
# What operations do to a session

Every operation of a session is made of a few moves: a note in the journal, a token that is
submitted, a switch that is set, dead consonants that are read back, a stem rule or exception that
is handed to the sink, a list scope that is opened or closed. `Leads` says that moves lead from one
session to another, whatever the results of the operations are.

What every move keeps is therefore kept by every operation, by every step of a scheme and by every
run of steps, and the journal grows all the while. Details, the flush and the storing of details
are not among the moves: they belong to what surrounds the steps of a scheme, and `Reaches` takes
them in.
-/

namespace TranslitScheme

/-- What becomes of a journal: findings are added behind the others, under the same overrides. -/
structure Journal.Grows (journal grown : Journal) : Prop where
  overrides : grown.overrides = journal.overrides
  entries : journal.entries <+: grown.entries

namespace Journal

/-- A journal that gets nothing has grown. -/
theorem Grows.refl (journal : Journal) : journal.Grows journal := ⟨rfl, List.prefix_rfl⟩

/-- A journal that has grown twice has grown. -/
theorem Grows.trans {journal middle grown : Journal} (h : journal.Grows middle)
    (h' : middle.Grows grown) : journal.Grows grown :=
  ⟨h'.overrides.trans h.overrides, h.entries.trans h'.entries⟩

/-- A journal grows by a finding. -/
theorem grows_record (journal : Journal) (finding : Finding) :
    journal.Grows (journal.record finding) :=
  ⟨rfl, List.prefix_append _ _⟩

/-- A journal grows by findings. -/
theorem grows_recordAll (journal : Journal) (findings : List Finding) :
    journal.Grows (journal.recordAll findings) := by
  rw [recordAll_eq]
  exact ⟨rfl, List.prefix_append _ _⟩

/-- A journal grows by an error under another expression. -/
theorem grows_errorIn (journal : Journal) (code : DiagnosticCode) (expression message : String) :
    journal.Grows (journal.errorIn code expression message) :=
  ⟨rfl, List.prefix_append _ _⟩

end Journal

namespace Value

/-- Reading pairs lets the journal grow. -/
theorem grows_checkPairs (pairs : List (Value × Value)) (journal : Journal) :
    journal.Grows (checkPairs pairs journal).2 := by
  induction pairs generalizing journal with
  | nil => exact .refl journal
  | cons pair rest ih =>
    obtain ⟨key, value⟩ := pair
    have hfound := Journal.grows_recordAll
      { journal with expression := some (pairText key value) } (checkPair key value).2
    have hpair : journal.Grows
        { { journal with expression := some (pairText key value) }.recordAll
          (checkPair key value).2 with expression := none } :=
      ⟨hfound.overrides, hfound.entries⟩
    exact hpair.trans (ih _)

/-- Reading a mapping lets the journal grow, also when it is none. -/
theorem grows_toMapping (value : Value) (journal : Journal) :
    journal.Grows (value.toMapping journal).2 := by
  cases value with
  | map pairs => exact grows_checkPairs pairs journal
  | _ => exact Journal.grows_record _ _

end Value

namespace Session

variable {σ : Type} [TokenSink σ]

/-- The smallest changes that operations make to a session. -/
inductive Move : Session σ → Session σ → Prop where
  | note {session : Session σ} {journal : Journal} (h : session.journal.Grows journal) :
    Move session { session with journal }
  | submit (session : Session σ) (token : Token) : Move session (session.submit token).2
  | configure (session : Session σ) (option : SinkOption) :
    Move session (session.configure option)
  | refresh (session : Session σ) : Move session session.refreshDeadConsonants
  | stemRule (session : Session σ) (rule : StemRule) :
    Move session { session with sink := (TokenSink.createStemRule session.sink rule).2 }
  | stemException (session : Session σ) (exempt : StemException) :
    Move session { session with sink := (TokenSink.createStemException session.sink exempt).2 }
  | openLists {session : Session σ} {names : List Value} {lists : NamedLists}
    (h : session.lists.openScope names = (.ok (), lists)) : Move session { session with lists }
  | closeLists (session : Session σ) :
    Move session { session with lists := session.lists.closeScope }
  | own (session : Session σ) (ownNonJoiner ownJoiner : Bool) :
    Move session { session with ownNonJoiner, ownJoiner }

/-- Moves lead from one session to another. -/
abbrev Leads : Session σ → Session σ → Prop := Relation.ReflTransGen Move

/-- The changes to a session that are made around the steps of a scheme. -/
inductive OuterMove : Session σ → Session σ → Prop where
  | describe (session : Session σ) (details : Details) : OuterMove session { session with details }
  | flush (session : Session σ) : OuterMove session session.flush
  | storeDetails (session : Session σ) (now : String) :
    OuterMove session (session.storeDetails now)

/-- Moves of both kinds lead from one session to another. -/
abbrev Reaches : Session σ → Session σ → Prop :=
  Relation.ReflTransGen fun session ended => Move session ended ∨ OuterMove session ended

/-- What a token that is submitted does to the sink: nothing if it is blank. -/
theorem sink_submit (session : Session σ) (token : Token) :
    (session.submit token).2.sink =
      if token.pattern = "" ∨ token.value1 = "" then session.sink
      else (TokenSink.createToken session.sink
        { token with tag := session.journal.tag.getD "" }).2 := by
  unfold submit
  dsimp only
  split
  · rfl
  · split
    all_goals
      rename_i heq
      rw [heq]
      rfl

/-- What a switch does to the sink. -/
theorem sink_configure (session : Session σ) (option : SinkOption) :
    (session.configure option).sink = (TokenSink.configure session.sink option).2 := by
  unfold configure
  rcases TokenSink.configure session.sink option with ⟨_ | _, sink⟩ <;> rfl

/-- What a flush does to the sink. -/
theorem sink_flush (session : Session σ) :
    session.flush.sink = (TokenSink.flush session.sink).2 := by
  unfold flush
  rcases TokenSink.flush session.sink with ⟨_ | _, sink⟩ <;> rfl

/-- What the details do to the sink. -/
theorem sink_storeDetails (session : Session σ) (now : String) :
    (session.storeDetails now).sink =
      (TokenSink.setDetails session.sink { session.details with compiledDate := now }).2 := by
  unfold storeDetails
  dsimp only
  rcases TokenSink.setDetails session.sink { session.details with compiledDate := now } with
    ⟨_ | _, sink⟩ <;> rfl

variable {session ended : Session σ}

/-- Neither details nor a flush change what a session remembers. -/
theorem remembered_of_outerMove (h : session.OuterMove ended) :
    ended.built = session.built ∧ ended.lists = session.lists := by
  cases h with
  | describe details => exact ⟨rfl, rfl⟩
  | flush =>
    unfold flush
    rcases TokenSink.flush session.sink with ⟨_ | _, sink⟩ <;> exact ⟨rfl, rfl⟩
  | storeDetails now =>
    unfold storeDetails
    dsimp only
    rcases TokenSink.setDetails session.sink { session.details with compiledDate := now } with
      ⟨_ | _, sink⟩ <;> exact ⟨rfl, rfl⟩

/-- Neither details nor a flush change what a token store holds. -/
theorem stored_of_outerMove {session ended : Session TokenStore} (h : session.OuterMove ended) :
    ended.sink.stored = session.sink.stored := by
  cases h with
  | describe details => rfl
  | flush =>
    rw [sink_flush]
    exact TokenStore.stored_perform session.sink .flush fun _ => by simp
  | storeDetails now =>
    rw [sink_storeDetails]
    exact TokenStore.stored_perform session.sink (.setDetails _) fun _ => by simp

/-- What moves of both kinds keep is kept in every session that is reached. -/
theorem Reaches.keeps {invariant : Session σ → Prop} (h : session.Reaches ended)
    (hmove : ∀ {before after : Session σ}, Move before after → invariant before → invariant after)
    (houter : ∀ {before after : Session σ}, OuterMove before after → invariant before →
      invariant after)
    (hsession : invariant session) : invariant ended := by
  induction h with
  | refl => exact hsession
  | tail _ hlast ih => exact hlast.elim (hmove · ih) (houter · ih)

/-- What moves lead to is reached. -/
theorem Leads.reaches (h : session.Leads ended) : session.Reaches ended :=
  Relation.ReflTransGen.mono (fun _ _ => Or.inl) _ _ h

/-- A journal grows by every move. -/
theorem grows_of_move (h : session.Move ended) : session.journal.Grows ended.journal := by
  have hrecorded (session : Session σ) (finding : Finding) :
      session.journal.Grows (session.journal.record finding) :=
    Journal.grows_record session.journal finding
  cases h with
  | note hgrows => exact hgrows
  | submit token =>
    unfold submit
    dsimp only
    split
    · exact Journal.grows_errorIn _ _ _ _
    · rcases TokenSink.createToken session.sink _ with ⟨_ | ⟨⟩, sink⟩
      · exact Journal.grows_errorIn _ _ _ _
      · exact .refl _
  | configure option =>
    unfold configure
    rcases TokenSink.configure session.sink option with ⟨_ | ⟨⟩, sink⟩
    · exact hrecorded session _
    · exact .refl _
  | refresh =>
    unfold refreshDeadConsonants
    rcases TokenSink.tokensOf session.sink .deadConsonant with _ | _
    · exact hrecorded session _
    · exact .refl _
  | _ => exact .refl _

/-- A journal grows wherever moves lead. -/
theorem grows_of_leads (h : session.Leads ended) : session.journal.Grows ended.journal := by
  induction h with
  | refl => exact .refl _
  | tail _ hlast ih => exact ih.trans (grows_of_move hlast)

/-- A journal that has grown is a move. -/
theorem leads_note {journal : Journal} (h : session.journal.Grows journal) :
    session.Leads { session with journal } :=
  .single (.note h)

/-- A location that is set is a move. -/
theorem leads_setLocation (session : Session σ) (location : Option Location) :
    session.Leads (session.setLocation location) := by
  unfold setLocation
  exact leads_note ⟨rfl, List.prefix_rfl⟩

/-- A fault that is recorded is a move. -/
theorem leads_abort {α : Type} (session : Session σ) (fault : Fault) :
    session.Leads (session.abort (α := α) fault).2 :=
  leads_note (Journal.grows_record _ _)

/-- Tokens are submitted one by one. -/
theorem leads_submitAll (session : Session σ) (tokens : List Token) :
    session.Leads (session.submitAll tokens).2 := by
  induction tokens generalizing session with
  | nil => exact .refl
  | cons token rest ih => exact .head (.submit session token) (ih _)

/-- Building writes to the journal and then submits tokens, if there is no fault. -/
theorem leads_build (session : Session σ) (category : Category) (options : TokenOptions)
    (value : Value) : session.Leads (session.build category options value).2 := by
  have hread := Value.grows_toMapping value session.journal
  unfold build
  generalize value.toMapping session.journal = outcome at hread ⊢
  obtain ⟨fault | mapping, journal⟩ := outcome
  · exact leads_note hread
  · have hjournal : session.Leads { session with journal } := leads_note hread
    dsimp only
    cases Priority.ofSetting options.priority with
    | error fault => exact hjournal.trans (leads_abort _ fault)
    | ok priority =>
      cases Acceptance.ofSetting options.acceptIf with
      | error fault => exact hjournal.trans (leads_abort _ fault)
      | ok acceptance => exact hjournal.trans (leads_submitAll _ _)

/-- Declaring the non-joiner is a choice and a declaration. -/
theorem leads_nonJoiner (session : Session σ) (value : Value) :
    session.Leads (session.nonJoiner value).2 :=
  .head (.own session true session.ownJoiner) (leads_build _ _ _ _)

/-- Declaring the joiner is a choice and a declaration. -/
theorem leads_joiner (session : Session σ) (value : Value) :
    session.Leads (session.joiner value).2 :=
  .head (.own session session.ownNonJoiner true) (leads_build _ _ _ _)

/-- Asking for a list is no more than a note. -/
theorem leads_customList (session : Session σ) (name : String) :
    session.Leads (session.customList name).2 := by
  unfold customList
  cases session.lists.get? name with
  | none => exact leads_abort session _
  | some list => exact .refl

/-- Asking for the first virama is no more than a note. -/
theorem leads_virama (session : Session σ) : session.Leads session.virama.2 := by
  unfold virama
  cases session.tokens .virama .all with
  | nil => exact leads_abort session _
  | cons token rest => exact .refl

/-- Asking for the tokens of a source reads dead consonants back. -/
theorem leads_sourceTokens (session : Session σ) (source : TokenSource) :
    session.Leads (session.sourceTokens source).2 := by
  cases source with
  | category category =>
    cases category with
    | deadConsonant => exact .single (.refresh session)
    | _ => exact .refl
  | list name => exact leads_customList session name

/-- Combining writes to the journal and then asks for tokens. -/
theorem leads_combine (session : Session σ) (source : TokenSource) (filter : TokenFilter)
    (template : Value) : session.Leads (session.combine source filter template).2 := by
  have hread := Value.grows_toMapping template session.journal
  unfold combine
  generalize template.toMapping session.journal = outcome at hread ⊢
  obtain ⟨fault | mapping, journal⟩ := outcome
  · exact leads_note hread
  · have hasked := (leads_note hread).trans
      (leads_sourceTokens { session with journal } source)
    dsimp only
    generalize ({ session with journal } : Session σ).sourceTokens source = asked at hasked ⊢
    obtain ⟨_ | tokens, after⟩ := asked <;> exact hasked

/-- Groups that are reported let the journal grow. -/
theorem grows_reportGroups (mapping : Mapping) (journal : Journal) :
    journal.Grows (reportGroups mapping journal) := by
  induction mapping generalizing journal with
  | nil => exact .refl journal
  | cons pair rest ih =>
    obtain ⟨key, value⟩ := pair
    unfold reportGroups
    split
    · exact ih journal
    · refine .trans ?_ (ih _)
      exact ⟨rfl, List.prefix_append _ _⟩

/-- Pairs are handed to the sink one by one. -/
theorem leads_submitPairs {create : σ → String × String → Except SinkError Unit × σ}
    (hcreate : ∀ (session : Session σ) (pair : String × String),
      Move session { session with sink := (create session.sink pair).2 })
    (what : String) (pairs : List (String × String)) (session : Session σ) :
    session.Leads (submitPairs create what pairs session) := by
  induction pairs generalizing session with
  | nil => exact .refl
  | cons pair rest ih =>
    have hmove := hcreate session pair
    unfold submitPairs
    generalize create session.sink pair = created at hmove ⊢
    obtain ⟨refusal | _, sink⟩ := created
    · exact .head hmove (.head (.note (Journal.grows_errorIn _ _ _ _)) (ih _))
    · exact .head hmove (ih _)

/-- Pairs are read, reported and handed to the sink. -/
theorem leads_createPairs {create : σ → String × String → Except SinkError Unit × σ}
    (hcreate : ∀ (session : Session σ) (pair : String × String),
      Move session { session with sink := (create session.sink pair).2 })
    (what : String) (value : Value) (session : Session σ) :
    session.Leads (session.createPairs value create what).2 := by
  have hread := Value.grows_toMapping value session.journal
  unfold createPairs
  generalize value.toMapping session.journal = outcome at hread ⊢
  obtain ⟨fault | mapping, journal⟩ := outcome
  · exact leads_note hread
  · exact (leads_note (hread.trans (grows_reportGroups mapping journal))).trans
      (leads_submitPairs hcreate what _ _)

/-- Stem rules are handed to the sink one by one. -/
theorem leads_stemRules (session : Session σ) (value : Value) :
    session.Leads (session.stemRules value).2 :=
  leads_createPairs (fun session pair => .stemRule session ⟨pair.1, pair.2⟩) _ value session

/-- Stem exceptions are handed to the sink one by one. -/
theorem leads_stemExceptions (session : Session σ) (value : Value) :
    session.Leads (session.stemExceptions value).2 :=
  leads_createPairs (fun session pair => .stemException session ⟨pair.1, pair.2⟩) _ value session

/-- What runs under a tag runs between two notes. -/
theorem underTag_moves {ε α : Type} (session : Session σ) (name : String)
    (body : Session σ → Except ε α × Session σ) :
    ∃ entered, Move session entered ∧ Move (body entered).2 (session.underTag name body).2 :=
  ⟨{ session with journal := { session.journal with tag := some name } },
    .note ⟨rfl, List.prefix_rfl⟩, .note ⟨rfl, List.prefix_rfl⟩⟩

/-- What runs in a list scope runs after the scope is opened and before it is closed, unless the
scope is refused. -/
theorem underLists_moves {ε α : Type} (session : Session σ) (names : List Value) (wrap : Fault → ε)
    (body : Session σ → Except ε α × Session σ) :
    Move session (session.underLists names wrap body).2 ∨
      ∃ entered, Move session entered ∧
        Move (body entered).2 (session.underLists names wrap body).2 := by
  unfold underLists
  rcases session.lists.openScope_cases names with ⟨fault, hopened⟩ | ⟨lists, hopened, -⟩
  · rw [hopened]
    exact .inl (.note (Journal.grows_record _ _))
  · rw [hopened]
    exact .inr ⟨{ session with lists }, .openLists hopened, .closeLists _⟩

/-- A default symbol is submitted, if it is wanted. -/
theorem leads_buildDefaultIf (session : Session σ) (condition : Bool) (category : Category)
    (symbol : String) : session.Leads (session.buildDefaultIf condition category symbol) := by
  unfold buildDefaultIf
  split
  · exact leads_submitAll _ _
  · exact .refl

/-- Default symbols are submitted one by one. -/
theorem leads_injectDefaults (session : Session σ) : session.Leads session.injectDefaults := by
  unfold injectDefaults
  dsimp only
  split
  · exact ((leads_buildDefaultIf session _ _ _).trans (leads_buildDefaultIf _ _ _ _)).trans
      (leads_submitAll _ _)
  · exact .refl

/-- Finishing submits default symbols, flushes the sink and stores the details. -/
theorem reaches_finish (session : Session σ) (now : String) :
    session.Reaches (session.finish now) :=
  ((leads_injectDefaults session).reaches.tail (.inr (.flush _))).tail (.inr (.storeDetails _ now))

end Session

end TranslitScheme
