import TranslitScheme.Proofs.Program.Move
import TranslitScheme.Proofs.Report.Counting
import TranslitScheme.Proofs.Session.Observation
import TranslitScheme.Proofs.Session.Operation
import TranslitScheme.Proofs.Store.Operation

/-!
# What a compilation exports

A compilation exports everything or nothing. Tokens wait in the buffer of the store while the steps
of a scheme run, wherever they are nested, and only the end of a compilation that was not aborted
moves them into the table, with the default symbols behind them, and stores the details.

What the store got in the course of a compilation is read off the record of an observed store. That
is the list that `exports_all_or_nothing` is about: it is the buffer of a compilation that was
aborted, and the table of one that was not.
-/

namespace TranslitScheme

namespace Handover

/-- The store accepted the token. -/
def Accepted (handover : Handover TokenStore) : Prop :=
  (handover.before.createToken handover.token).1 = .ok ()

/-- What the store holds of a handover that it did not hold before. -/
def stored (handover : Handover TokenStore) : List Token :=
  (handover.before.createToken handover.token).2.stored.drop handover.before.stored.length

/-- A handover only appends. -/
theorem createToken_eq_append (handover : Handover TokenStore) :
    (handover.before.createToken handover.token).2 = handover.before.append handover.stored := by
  cases hcreated : (handover.before.createToken handover.token).1 with
  | error refusal =>
    rw [stored, TokenStore.createToken_of_error _ _ hcreated, List.drop_length,
      TokenStore.append_nil]
  | ok _ =>
    obtain ⟨-, hkept, -⟩ := TokenStore.createToken_of_ok _ _ hcreated
    rw [stored, hkept, TokenStore.stored_append, List.drop_left]

end Handover

namespace Observed

/-- Nothing was flushed yet and no details were stored. All that the store got is in the buffer,
and every token that it accepted is held. -/
structure Unflushed (observed : Observed TokenStore) : Prop where
  flushed : observed.sink.flushed = []
  details : observed.sink.details = none
  failsFlush : observed.sink.failsFlush = false
  buffer : observed.sink.buffer = observed.handovers.flatMap Handover.stored
  held : ∀ handover ∈ observed.handovers, handover.Accepted →
    observed.sink.holds (handover.before.normalForm handover.token) = true

variable {observed : Observed TokenStore}

/-- Tokens that are handed over end up in the buffer, if they are accepted. -/
theorem Unflushed.createToken (h : observed.Unflushed) (token : Token) :
    (TokenSink.createToken observed token).2.Unflushed := by
  have happend := Handover.createToken_eq_append ⟨observed.sink, token⟩
  have hsink : (TokenSink.createToken observed token).2 =
      { sink := observed.sink.append (Handover.stored ⟨observed.sink, token⟩)
        handovers := observed.handovers ++ [⟨observed.sink, token⟩] } :=
    congrArg (Observed.mk · _) happend
  rw [hsink]
  refine ⟨h.flushed, h.details, h.failsFlush, ?_, fun handover hhandover haccepted => ?_⟩
  · simp [TokenStore.append, h.buffer]
  · rcases List.mem_append.mp hhandover with hold | hnew
    · rw [TokenStore.holds_append, h.held handover hold haccepted, Bool.true_or]
    · obtain rfl := List.mem_singleton.mp hnew
      rw [← happend]
      exact TokenStore.holds_of_createToken_ok _ _ haccepted _
        (List.mem_append_right _ (List.mem_singleton_self _))

/-- What leaves tokens and details of the store alone leaves it unflushed. -/
theorem Unflushed.congr (h : observed.Unflushed) {store : TokenStore}
    (hflushed : store.flushed = observed.sink.flushed)
    (hbuffer : store.buffer = observed.sink.buffer)
    (hdetails : store.details = observed.sink.details)
    (hfails : store.failsFlush = observed.sink.failsFlush) :
    ({ observed with sink := store } : Observed TokenStore).Unflushed where
  flushed := hflushed.trans h.flushed
  details := hdetails.trans h.details
  failsFlush := hfails.trans h.failsFlush
  buffer := hbuffer.trans h.buffer
  held handover hhandover haccepted := by
    have hheld := h.held handover hhandover haccepted
    rwa [TokenStore.holds, TokenStore.stored, ← hflushed, ← hbuffer] at hheld

/-- What was accepted is among what the store got. -/
theorem Unflushed.exists_stored (h : observed.Unflushed) {handover : Handover TokenStore}
    (hhandover : handover ∈ observed.handovers) (haccepted : handover.Accepted) :
    ∃ token ∈ observed.handovers.flatMap Handover.stored,
      token.pattern = handover.token.pattern ∧
        token.category = (handover.before.normalForm handover.token).category ∧
        token.value1 = (handover.before.normalForm handover.token).value1 := by
  obtain ⟨token, htoken, hsame⟩ := List.any_eq_true.mp (h.held handover hhandover haccepted)
  rw [TokenStore.stored, h.flushed, h.buffer, List.nil_append] at htoken
  simp only [Token.sameEntry, Bool.and_eq_true, beq_iff_eq] at hsame
  obtain ⟨⟨hcategory, hpattern⟩, hvalue⟩ := hsame
  rw [TokenStore.pattern_normalForm] at hpattern
  exact ⟨token, htoken, hpattern, hcategory, hvalue⟩

end Observed

namespace Session

variable {session after : Session (Observed TokenStore)}

/-- Every move leaves the store unflushed. -/
theorem unflushed_of_move (hmove : session.Move after) (h : session.sink.Unflushed) :
    after.sink.Unflushed := by
  cases hmove with
  | submit token =>
    rw [sink_submit]
    split
    · exact h
    · exact h.createToken _
  | configure option =>
    rw [sink_configure]
    cases option <;> exact h.congr rfl rfl rfl rfl
  | stemRule rule =>
    change ({ session.sink with
      sink := (session.sink.sink.createStemRule rule).2 } : Observed TokenStore).Unflushed
    unfold TokenStore.createStemRule
    split
    · exact h
    · exact h.congr rfl rfl rfl rfl
  | stemException exempt =>
    change ({ session.sink with
      sink := (session.sink.sink.createStemException exempt).2 } : Observed TokenStore).Unflushed
    unfold TokenStore.createStemException
    split
    · exact h
    · split
      · exact h
      · exact h.congr rfl rfl rfl rfl
  | _ => exact h

/-- So do moves one after another. -/
theorem unflushed_of_leads (hmoves : session.Leads after) (h : session.sink.Unflushed) :
    after.sink.Unflushed := by
  induction hmoves with
  | refl => exact h
  | tail _ hlast ih => exact unflushed_of_move hlast ih

/-- A session that starts leaves the store unflushed. -/
theorem unflushed_start {observed : Observed TokenStore} (h : observed.Unflushed)
    (settings : Settings) : (Session.start observed settings).sink.Unflushed :=
  unflushed_of_move (.configure
    { sink := observed, settings, journal := { overrides := settings.overrides } } _) h

/-- Flushing moves the buffer into the table. -/
theorem flush_of_unflushed (h : session.sink.Unflushed) :
    session.flush =
      { session with
        sink := { session.sink with
          sink := { session.sink.sink with
            flushed := session.sink.handovers.flatMap Handover.stored
            buffer := [] } } } := by
  have hflushed : TokenSink.flush session.sink =
      (.ok (), { session.sink with
        sink := { session.sink.sink with
          flushed := session.sink.handovers.flatMap Handover.stored
          buffer := [] } }) := by
    change session.sink.pass session.sink.sink.flush = _
    rw [TokenStore.flush, if_neg (by simp [h.failsFlush]), h.flushed, h.buffer]
    rfl
  rw [flush, hflushed]

/-- Details that name a language and an identifier are stored. -/
theorem storeDetails_of_complete (session : Session (Observed TokenStore)) (now : String)
    (hcode : session.details.languageCode ≠ "") (hidentifier : session.details.identifier ≠ "") :
    (session.storeDetails now).sink =
      { session.sink with
        sink := { session.sink.sink with
          details := some { session.details with compiledDate := now } } } := by
  rw [sink_storeDetails]
  change (session.sink.pass (session.sink.sink.setDetails _)).2 = _
  rw [TokenStore.setDetails, if_neg hcode, if_neg hidentifier]
  rfl

/-- Other details are not stored, and the failure is the last that is recorded. -/
theorem storeDetails_of_incomplete (session : Session (Observed TokenStore)) (now : String)
    (h : session.details.languageCode = "" ∨ session.details.identifier = "") :
    (session.storeDetails now).sink = session.sink ∧
      ∃ diagnostic, diagnostic.code = .sinkFailure ∧
        (session.storeDetails now).journal.entries = session.journal.entries ++ [diagnostic] := by
  have hrefused : ∃ refusal,
      TokenSink.setDetails session.sink { session.details with compiledDate := now } =
        (.error refusal, session.sink) := by
    change ∃ refusal, session.sink.pass (session.sink.sink.setDetails _) = _
    unfold TokenStore.setDetails
    by_cases hcode : session.details.languageCode = ""
    · exact ⟨_, by rw [if_pos hcode]; rfl⟩
    · exact ⟨_, by rw [if_neg hcode, if_pos (h.resolve_left hcode)]; rfl⟩
  obtain ⟨refusal, hrefused⟩ := hrefused
  rw [storeDetails, hrefused]
  exact ⟨rfl, session.journal.stamp ⟨.sinkFailure, .error, refusal.message⟩, rfl, rfl⟩

end Session

open Session

/-- What a session that is unflushed comes to when it is finished: the table has everything that
the store got, default symbols included, and the details are there or their absence is told. -/
theorem Session.finish_of_unflushed (session : Session (Observed TokenStore))
    (h : session.sink.Unflushed) (now : String) :
    let finished := session.finish now
    (∀ handover ∈ finished.sink.handovers, handover.Accepted →
      ∃ token ∈ finished.sink.handovers.flatMap Handover.stored,
        token.pattern = handover.token.pattern ∧
          token.category = (handover.before.normalForm handover.token).category ∧
          token.value1 = (handover.before.normalForm handover.token).value1) ∧
    finished.sink.sink.buffer = [] ∧
    finished.sink.sink.flushed = finished.sink.handovers.flatMap Handover.stored ∧
    if session.details.languageCode ≠ "" ∧ session.details.identifier ≠ "" then
      finished.sink.sink.details = some { session.details with compiledDate := now }
    else
      finished.sink.sink.details = none ∧
        ∃ diagnostic, finished.journal.entries.getLast? = some diagnostic ∧
          diagnostic.code = .sinkFailure := by
  have hmoves := leads_injectDefaults session
  have hinjected := unflushed_of_leads hmoves h
  have hdetails := details_of_leads hmoves
  rw [finish]
  generalize session.injectDefaults = injected at hinjected hdetails
  rw [flush_of_unflushed hinjected, ← hdetails]
  intro finished
  by_cases hcomplete : injected.details.languageCode ≠ "" ∧ injected.details.identifier ≠ ""
  · have hsink : finished.sink = _ := storeDetails_of_complete _ now hcomplete.1 hcomplete.2
    rw [if_pos hcomplete, hsink]
    exact ⟨fun _ => hinjected.exists_stored, rfl, rfl, rfl⟩
  · have hmissing : injected.details.languageCode = "" ∨ injected.details.identifier = "" :=
      (Decidable.not_and_iff_or_not.mp hcomplete).imp Decidable.not_not.mp Decidable.not_not.mp
    obtain ⟨hsink, diagnostic, hcode, hentries⟩ := storeDetails_of_incomplete
      { injected with
        sink := { injected.sink with
          sink := { injected.sink.sink with
            flushed := injected.sink.handovers.flatMap Handover.stored
            buffer := [] } } } now hmissing
    change finished.sink = _ at hsink
    change finished.journal.entries = _ at hentries
    rw [if_neg hcomplete, hsink, hentries, List.getLast?_concat]
    exact ⟨fun _ => hinjected.exists_stored, rfl, rfl, hinjected.details, diagnostic, rfl, hcode⟩

/-- The details that a header comes to in a compilation at a given time. -/
def Header.details (header : Header) (now : String) : Details where
  languageCode := header.languageCode.getD ""
  identifier := header.identifier.getD ""
  displayName := header.displayName.getD ""
  author := header.author.getD ""
  compiledDate := now
  isStable := header.stable.getD false

/-- Running a program leaves the store unflushed, and comes to the details of the header. -/
theorem Program.unflushed_run (path : String) (program : Program) {observed : Observed TokenStore}
    (settings : Settings) (h : observed.Unflushed) :
    let ended := (program.run path (Session.start observed settings)).2
    ended.sink.Unflushed ∧
      ∀ now, { ended.details with compiledDate := now } = program.header.details now := by
  have hmoves := Program.leads_run path program (Session.start observed settings)
  refine ⟨unflushed_of_leads hmoves ?_, fun now => ?_⟩
  · rw [Header.apply_eq]
    exact unflushed_start h settings
  · rw [details_of_leads hmoves, Header.apply_eq]
    rfl

/-- What a compilation over an unflushed store comes to, in terms of the record. -/
theorem Compilation.ofFile_of_unflushed (path : String) (contents : Except FileError String)
    (start : Observed TokenStore) (hstart : start.Unflushed) (settings : Settings)
    (now : String) :
    let observed := Compilation.ofFile path contents start settings now
    let stored := observed.sink.handovers.flatMap Handover.stored
    (∀ handover ∈ observed.sink.handovers, handover.Accepted →
      ∃ token ∈ stored, token.pattern = handover.token.pattern ∧
        token.category = (handover.before.normalForm handover.token).category ∧
        token.value1 = (handover.before.normalForm handover.token).value1) ∧
    (observed.aborted = true → observed.sink.sink.flushed = [] ∧
      observed.sink.sink.details = none ∧ observed.sink.sink.buffer = stored) ∧
    (observed.aborted = false →
      observed.sink.sink.buffer = [] ∧ observed.sink.sink.flushed = stored ∧
      ∃ program, Program.ofFile path contents = .ok program ∧
        if program.header.languageCode.getD "" ≠ "" ∧ program.header.identifier.getD "" ≠ "" then
          observed.sink.sink.details = some (program.header.details now)
        else
          observed.sink.sink.details = none ∧
            ∃ diagnostic, observed.report.diagnostics.getLast? = some diagnostic ∧
              diagnostic.code = .sinkFailure) := by
  have hnew := unflushed_start hstart settings
  rcases Compilation.ofFile_cases path contents start settings now with
    ⟨failure, -, hobserved⟩ | ⟨program, hprogram, ⟨failure, -, hobserved⟩ | ⟨-, hobserved⟩⟩
  · rw [hobserved]
    exact ⟨fun _ => hnew.exists_stored, fun _ => ⟨hnew.flushed, hnew.details, hnew.buffer⟩,
      fun hdone => by contradiction⟩
  · obtain ⟨hended, -⟩ := Program.unflushed_run path program settings hstart
    rw [hobserved]
    exact ⟨fun _ => hended.exists_stored, fun _ => ⟨hended.flushed, hended.details, hended.buffer⟩,
      fun hdone => by contradiction⟩
  · obtain ⟨hended, hdetails⟩ := Program.unflushed_run path program settings hstart
    rw [hobserved]
    generalize (program.run path (Session.start start settings)).2 = ended at hended hdetails
    obtain ⟨haccepted, hbuffer, hflushed, hexported⟩ := finish_of_unflushed ended hended now
    have hcode : ended.details.languageCode = program.header.languageCode.getD "" :=
      congrArg Details.languageCode (hdetails now)
    have hidentifier : ended.details.identifier = program.header.identifier.getD "" :=
      congrArg Details.identifier (hdetails now)
    rw [hcode, hidentifier, hdetails now, ← diagnostics_report _ now] at hexported
    exact ⟨haccepted, fun hdone => by contradiction,
      fun _ => ⟨hbuffer, hflushed, program, hprogram, hexported⟩⟩

/-- A compilation exports everything or nothing. Take a compilation over a new store whose flush
does not fail, and the list of everything that the store got in its course, which is read off the
same compilation over an observed store. If the compilation is aborted, the table is empty and the
list is in the buffer. If it is not, the buffer is empty and the list is the table. For every token
that the store accepted, the list has one of its pattern and with the category and the first value
under which the store keeps it. The details are in the table just when the header names a language
and an identifier, and otherwise the last diagnostic is the failure to store them. -/
theorem Compilation.exports_all_or_nothing (path : String) (contents : Except FileError String)
    (rejections : List (String × String)) (settings : Settings) (now : String) :
    let compiled := Compilation.ofFile path contents ({ rejections } : TokenStore) settings now
    let observed := Compilation.ofFile path contents
      ({ sink := { rejections } } : Observed TokenStore) settings now
    let stored := observed.sink.handovers.flatMap Handover.stored
    compiled = observed.forget ∧
    (∀ handover ∈ observed.sink.handovers, handover.Accepted →
      ∃ token ∈ stored, token.pattern = handover.token.pattern ∧
        token.category = (handover.before.normalForm handover.token).category ∧
        token.value1 = (handover.before.normalForm handover.token).value1) ∧
    (compiled.aborted = true →
      compiled.sink.toTable.tokens = [] ∧ compiled.sink.toTable.details = none ∧
        compiled.sink.buffer = stored) ∧
    (compiled.aborted = false →
      compiled.sink.buffer = [] ∧ compiled.sink.toTable.tokens = stored ∧
      ∃ program, Program.ofFile path contents = .ok program ∧
        if program.header.languageCode.getD "" ≠ "" ∧ program.header.identifier.getD "" ≠ "" then
          compiled.sink.toTable.details = some (program.header.details now)
        else
          compiled.sink.toTable.details = none ∧
            ∃ diagnostic, compiled.report.diagnostics.getLast? = some diagnostic ∧
              diagnostic.code = .sinkFailure) := by
  have hstore : ({ sink := { rejections } } : Observed TokenStore).Unflushed :=
    ⟨rfl, rfl, rfl, rfl, fun _ hhandover => by contradiction⟩
  have hforget := Compilation.ofFile_forget path contents
    ({ sink := { rejections } } : Observed TokenStore) settings now
  have hobserved := Compilation.ofFile_of_unflushed path contents _ hstore settings now
  dsimp only at hforget ⊢
  rw [hforget]
  exact ⟨rfl, hobserved⟩

end TranslitScheme
