import TranslitScheme.Proofs.Program.Lockstep
import TranslitScheme.Proofs.Program.Move
import TranslitScheme.Proofs.Session.Defaults
import TranslitScheme.Proofs.Session.Remembered

/-!
# Default symbols after a scheme

The steps of a scheme store joiners and non-joiners only by declaring them, and then the default
ones are not added. So in a store that held neither before, the only default symbol that can be
refused is the separator, for which no declaration is looked at: a scheme that lists the separator
among its own symbols and does not pass over duplicates gets one diagnostic for it.

A scheme that states its language and its identifier otherwise ends with the diagnostics that it
had before it was finished.
-/

namespace TranslitScheme

open Session

/-- A token adds nothing to another category, unless its dead form does. -/
theorem TokenStore.tokensOf_createToken_of_ne (store : TokenStore) (token : Token)
    {category : Category} (hcategory : token.category ≠ category)
    (hdead : category ≠ .deadConsonant) :
    (store.createToken token).2.tokensOf category = store.tokensOf category := by
  cases hresult : (store.createToken token).1 with
  | error refusal => rw [createToken_of_error store token hresult]
  | ok _ =>
    have hnone : ((store.missing (store.entries token)).filter fun entry =>
        entry.category == category) = [] := by
      refine List.filter_eq_nil_iff.mpr fun entry hentry => ?_
      rcases category_of_mem_entries store token entry (List.mem_filter.mp hentry).1 with
        hkind | ⟨-, hkind⟩
      · simpa [hkind] using hcategory
      · simpa [hkind] using hdead.symm
    rw [(createToken_of_ok store token hresult).2.1, tokensOf_append, hnone, List.append_nil]

namespace Session

variable {session : Session TokenStore}

/-- Submitting tokens of other categories adds nothing to a category. -/
theorem tokensOf_submitAll (tokens : List Token) {category : Category}
    (htokens : ∀ token ∈ tokens, token.category ≠ category) (hdead : category ≠ .deadConsonant) :
    (session.submitAll tokens).2.sink.tokensOf category = session.sink.tokensOf category := by
  induction tokens generalizing session with
  | nil => rfl
  | cons token rest ih =>
    rw [List.forall_mem_cons] at htokens
    have hkept := session.sink.tokensOf_createToken_of_ne (session.tagged token) htokens.1 hdead
    have hfirst : (session.submit token).2.sink.tokensOf category =
        session.sink.tokensOf category := by
      rcases submit_cases session token with ⟨-, journal, -, heq⟩ | ⟨-, -, journal, -, heq⟩ |
        ⟨-, -, heq⟩
      · rw [heq]
      · rw [heq]
        exact hkept
      · rw [heq]
        exact hkept
    exact (ih htokens.2).trans hfirst

/-- Declaring tokens of another category adds nothing to a category. -/
theorem tokensOf_build (session : Session TokenStore) {declared category : Category}
    (options : TokenOptions) (value : Value) (hcategory : declared ≠ category)
    (hdead : category ≠ .deadConsonant) :
    (session.build declared options value).2.sink.tokensOf category =
      session.sink.tokensOf category := by
  obtain ⟨journal, -, heq⟩ := build_eq session declared options value
  rw [heq]
  cases htokens : declaredTokens declared options value with
  | error fault => rfl
  | ok tokens =>
    refine tokensOf_submitAll tokens (fun token htoken => ?_) hdead
    rwa [category_of_mem_declaredTokens htokens token htoken]

/-- What a step of a scheme leaves as it was: the tag, and for both kinds of joiners what is stored,
if none was declared. -/
structure Spares (session left : Session TokenStore) : Prop where
  tag : left.journal.tag = session.journal.tag
  nonJoiner : left.ownNonJoiner = false →
    session.ownNonJoiner = false ∧ left.sink.tokensOf .nonJoiner = session.sink.tokensOf .nonJoiner
  joiner : left.ownJoiner = false →
    session.ownJoiner = false ∧ left.sink.tokensOf .joiner = session.sink.tokensOf .joiner

namespace Spares

variable {middle left : Session TokenStore}

/-- Only the tag, the sink and the declared joiners count. -/
theorem of_eq (htag : left.journal.tag = session.journal.tag)
    (hsink : left.sink.stored = session.sink.stored)
    (hnonJoiner : left.ownNonJoiner = session.ownNonJoiner)
    (hjoiner : left.ownJoiner = session.ownJoiner) : session.Spares left where
  tag := htag
  nonJoiner hown := ⟨hnonJoiner.symm.trans hown, by rw [TokenStore.tokensOf, hsink]; rfl⟩
  joiner hown := ⟨hjoiner.symm.trans hown, by rw [TokenStore.tokensOf, hsink]; rfl⟩

/-- What is left alone twice is left alone. -/
theorem trans (h : session.Spares middle) (h' : middle.Spares left) : session.Spares left where
  tag := h'.tag.trans h.tag
  nonJoiner hown := by
    obtain ⟨hmiddle, hstored⟩ := h'.nonJoiner hown
    exact ⟨(h.nonJoiner hmiddle).1, hstored.trans (h.nonJoiner hmiddle).2⟩
  joiner hown := by
    obtain ⟨hmiddle, hstored⟩ := h'.joiner hown
    exact ⟨(h.joiner hmiddle).1, hstored.trans (h.joiner hmiddle).2⟩

/-- Tokens of other categories are no joiners. -/
theorem submitAll (session : Session TokenStore) (tokens : List Token) {category : Category}
    (htokens : ∀ token ∈ tokens, token.category = category) (hnon : category ≠ .nonJoiner)
    (hjoiner : category ≠ .joiner) : session.Spares (session.submitAll tokens).2 where
  tag := (frames_submitAll session tokens).tag
  nonJoiner hown :=
    ⟨(frames_submitAll session tokens).ownNonJoiner.symm.trans hown,
      tokensOf_submitAll tokens (fun token htoken => htokens token htoken ▸ hnon) (by simp)⟩
  joiner hown :=
    ⟨(frames_submitAll session tokens).ownJoiner.symm.trans hown,
      tokensOf_submitAll tokens (fun token htoken => htokens token htoken ▸ hjoiner) (by simp)⟩

/-- Declaring tokens of other categories declares no joiners. -/
theorem build (session : Session TokenStore) {category : Category} (options : TokenOptions)
    (value : Value) (hnon : category ≠ .nonJoiner) (hjoiner : category ≠ .joiner) :
    session.Spares (session.build category options value).2 where
  tag := (frames_build session category options value).tag
  nonJoiner hown :=
    ⟨(frames_build session category options value).ownNonJoiner.symm.trans hown,
      tokensOf_build session options value hnon (by simp)⟩
  joiner hown :=
    ⟨(frames_build session category options value).ownJoiner.symm.trans hown,
      tokensOf_build session options value hjoiner (by simp)⟩

/-- Declaring the non-joiner declares no joiner. -/
theorem declareNonJoiner (session : Session TokenStore) (value : Value) :
    session.Spares (session.nonJoiner value).2 := by
  have hframes := frames_build { session with ownNonJoiner := true } .nonJoiner { } value
  have hjoiners := tokensOf_build { session with ownNonJoiner := true } { } value
    (show Category.nonJoiner ≠ .joiner by simp) (by simp)
  exact {
    tag := hframes.tag
    nonJoiner := fun hown => absurd (hframes.ownNonJoiner.symm.trans hown) (by simp)
    joiner := fun hown => ⟨hframes.ownJoiner.symm.trans hown, hjoiners⟩ }

/-- Declaring the joiner declares no non-joiner. -/
theorem declareJoiner (session : Session TokenStore) (value : Value) :
    session.Spares (session.joiner value).2 := by
  have hframes := frames_build { session with ownJoiner := true } .joiner { } value
  have hnonJoiners := tokensOf_build { session with ownJoiner := true } { } value
    (show Category.joiner ≠ .nonJoiner by simp) (by simp)
  exact {
    tag := hframes.tag
    nonJoiner := fun hown => ⟨hframes.ownNonJoiner.symm.trans hown, hnonJoiners⟩
    joiner := fun hown => absurd (hframes.ownJoiner.symm.trans hown) (by simp) }

/-- Expanding a template declares nothing. -/
theorem expand (session : Session TokenStore) (source : TokenSource) (filter : TokenFilter)
    (template : Value) : session.Spares (session.combine source filter template).2 := by
  have hsource (session : Session TokenStore) :
      session.Spares (session.sourceTokens source).2 := by
    unfold sourceTokens
    split
    · exact .of_eq rfl rfl rfl rfl
    · exact .of_eq rfl rfl rfl rfl
    · unfold customList
      split <;> exact .of_eq rfl rfl rfl rfl
  have htag := (Value.toMapping_eq template session.journal).2
  unfold Session.combine
  generalize template.toMapping session.journal = read at htag ⊢
  obtain ⟨fault | mapping, journal⟩ := read
  · exact .of_eq htag rfl rfl rfl
  · have hread : session.Spares { session with journal } := .of_eq htag rfl rfl rfl
    have hasked := hread.trans (hsource { session with journal })
    dsimp only
    generalize sourceTokens { session with journal } source = asked at hasked ⊢
    obtain ⟨fault | tokens, left⟩ := asked <;> exact hasked

/-- Stem rules and exceptions declare no joiners. -/
theorem createPairs (session : Session TokenStore) (value : Value)
    {create : TokenStore → String × String → Except SinkError Unit × TokenStore}
    (hcreate : ∀ sink pair, (create sink pair).2.stored = sink.stored) (what : String) :
    session.Spares (session.createPairs value create what).2 := by
  have hpairs (pairs : List (String × String)) (session : Session TokenStore) :
      session.Spares (submitPairs create what pairs session) := by
    induction pairs generalizing session with
    | nil => exact .of_eq rfl rfl rfl rfl
    | cons pair rest ih =>
      have hstored := hcreate session.sink pair
      unfold submitPairs
      generalize create session.sink pair = created at hstored ⊢
      obtain ⟨refusal | _, sink⟩ := created
      · refine .trans ?_ (ih _)
        exact .of_eq rfl hstored rfl rfl
      · refine .trans ?_ (ih _)
        exact .of_eq rfl hstored rfl rfl
  have htag := (Value.toMapping_eq value session.journal).2
  unfold Session.createPairs
  generalize value.toMapping session.journal = read at htag ⊢
  obtain ⟨fault | mapping, journal⟩ := read
  · exact .of_eq htag rfl rfl rfl
  · refine .trans ?_ (hpairs _ _)
    exact .of_eq ((Echoes.tag_reportGroups mapping journal).trans htag) rfl rfl rfl

/-- A section has tokens of its own category, which is not that of joiners. -/
theorem declaration (part : Section) (body : Declaration) (session : Session TokenStore) :
    session.Spares (body.run part session).2 := by
  have hbuild (session : Session TokenStore) (value : Value) :
      session.Spares (session.build part.category body.options value).2 :=
    .build session body.options value (by cases part <;> simp [Section.category])
      (by cases part <;> simp [Section.category])
  unfold Declaration.run
  split
  · rw [ofOperation_snd]
    exact hbuild session _
  · rename_i expansion _ _
    unfold Declaration.runExpansion
    cases expansion.source with
    | error reason => exact .of_eq rfl rfl rfl rfl
    | ok source =>
      have hcombined := expand session source expansion.tokenFilter expansion.template
      dsimp only
      generalize session.combine source expansion.tokenFilter expansion.template = combined
        at hcombined ⊢
      obtain ⟨fault | mapping, combined⟩ := combined
      · exact hcombined
      · dsimp only
        rw [ofOperation_snd]
        exact hcombined.trans (hbuild combined _)
  · exact .of_eq rfl rfl rfl rfl

end Spares

end Session

namespace Step

mutual

/-- A step puts the tag back, and stores joiners only by declaring them. -/
theorem spares_run : (step : Step) → (session : Session TokenStore) →
    session.Spares (step.run session).2
  | declare part body, session => .declaration part body session
  | joiner tokens, session => by
    rw [run, ofOperation_snd]
    exact .declareJoiner session tokens
  | nonJoiner tokens, session => by
    rw [run, ofOperation_snd]
    exact .declareNonJoiner session tokens
  | period value, session => by
    rw [run, ofOperation_snd]
    exact .build session { } _ (by simp) (by simp)
  | tag name steps, session => by
    have hnested := spares_runAll steps
      { session with journal := { session.journal with tag := some name } }
    exact ⟨rfl, hnested.nonJoiner, hnested.joiner⟩
  | list names steps, session => by
    rw [run, underLists]
    rcases session.lists.openScope names with ⟨fault | ⟨⟩, lists⟩
    · exact .of_eq rfl rfl rfl rfl
    · have hnested := spares_runAll steps { session with lists }
      exact ⟨hnested.tag, hnested.nonJoiner, hnested.joiner⟩
  | generateCompounds, session =>
    .submitAll session _ (fun _ => Token.category_of_mem_compounds) (by simp) (by simp)
  | stemRules tokens, session => by
    rw [run, ofOperation_snd]
    exact .createPairs session tokens
      (fun sink pair => sink.stored_perform (.createStemRule ⟨pair.1, pair.2⟩) fun _ => nofun) _
  | stemExceptions tokens, session => by
    rw [run, ofOperation_snd]
    exact .createPairs session tokens
      (fun sink pair => sink.stored_perform (.createStemException ⟨pair.1, pair.2⟩) fun _ => nofun)
      _
  | inferDeadConsonants _, _ => .of_eq rfl rfl rfl rfl
  | ignoreDuplicates _, _ => .of_eq rfl rfl rfl rfl

/-- So do all steps, up to one that fails. -/
theorem spares_runAll : (steps : List Step) → (session : Session TokenStore) →
    session.Spares (runAll steps session).2
  | [], _ => .of_eq rfl rfl rfl rfl
  | step :: rest, session => by
    have hfirst := spares_run step session
    rw [runAll]
    generalize step.run session = outcome at hfirst ⊢
    obtain ⟨failure | ⟨⟩, left⟩ := outcome
    · exact hfirst
    · exact hfirst.trans (spares_runAll rest left)

end

/-- So do the top-level steps of a file. -/
theorem spares_runLocated (file : String) (index : Nat) (steps : List Step)
    (session : Session TokenStore) : session.Spares (runLocated file index steps session).2 := by
  induction steps generalizing index session with
  | nil => exact .of_eq rfl rfl rfl rfl
  | cons step rest ih =>
    have hlocated : session.Spares (session.setLocation (some ⟨file, some index⟩)) :=
      .of_eq rfl rfl rfl rfl
    have hfirst := hlocated.trans (spares_run step _)
    rw [runLocated]
    generalize step.run (session.setLocation (some ⟨file, some index⟩)) = outcome at hfirst ⊢
    obtain ⟨failure | ⟨⟩, left⟩ := outcome
    · exact hfirst
    · exact hfirst.trans (ih (index + 1) left)

end Step

/-- A program puts the tag back, and stores joiners only by declaring them. -/
theorem Program.spares_run (file : String) (program : Program) (session : Session TokenStore) :
    session.Spares (program.run file session).2 := by
  have hheader : session.Spares (program.header.apply session) := by
    rw [program.header.apply_eq]
    exact .of_eq rfl rfl rfl rfl
  have hsteps := hheader.trans (Step.spares_runLocated file 1 program.steps _)
  unfold Program.run
  generalize Step.runLocated file 1 program.steps (program.header.apply session) = outcome
    at hsteps ⊢
  obtain ⟨failure | ⟨⟩, left⟩ := outcome
  · exact hsteps
  · exact hsteps.trans (.of_eq rfl rfl rfl rfl)

/-- What a program reaches from a session, its header included. -/
theorem Program.reaches_run (file : String) (program : Program) (session : Session TokenStore) :
    session.Reaches (program.run file session).2 := by
  refine .head (.inr ?_) (program.leads_run file session).reaches
  rw [program.header.apply_eq]
  exact .describe session _

namespace Session

/-- The default symbols that are refused when a session is finished. -/
def refusedDefaults (session : Session TokenStore) : List Token :=
  session.defaultTokens.filter session.refuses

/-- Finishing a session records a diagnostic for each default symbol that is refused, and nothing
else as long as its sink can be flushed and its details are complete. -/
structure FinishesWith (session : Session TokenStore) (refused : List Token) : Prop where
  injected : session.injectDefaults.journal.entries =
    session.journal.entries ++ refused.map session.refusal
  finished : session.sink.failsFlush = false → session.details.languageCode ≠ "" →
    session.details.identifier ≠ "" → ∀ now, (session.finish now).journal.entries =
      session.journal.entries ++ refused.map session.refusal

/-- A default symbol is a joiner that was not declared, or the separator. -/
theorem mem_defaultTokens_cases {session : Session TokenStore} {token : Token}
    (htoken : token ∈ session.defaultTokens) :
    (session.ownNonJoiner = false ∧ token.category = .nonJoiner) ∨
      (session.ownJoiner = false ∧ token.category = .joiner) ∨
      token = .ofSymbol .symbol session.settings.defaults.separator := by
  unfold defaultTokens defaultSymbols at htoken
  dsimp only at htoken
  split at htoken
  · cases hnonJoiner : session.ownNonJoiner <;> cases hjoiner : session.ownJoiner <;>
      simp only [hnonJoiner, hjoiner, Bool.false_eq_true, if_true, if_false, List.nil_append,
        List.singleton_append, List.map_cons, List.map_nil, List.mem_cons, List.not_mem_nil,
        or_false] at htoken <;>
      grind [Token.ofSymbol]
  · simp at htoken

/-- Where no token of a category is stored, none of it is refused as a duplicate. -/
theorem refuses_eq_false {session : Session TokenStore} {token : Token}
    (hnone : session.sink.tokensOf token.category = []) : session.refuses token = false := by
  rw [refuses, TokenStore.holds_eq_any_tokensOf, TokenStore.category_withZeroWidth, hnone]
  simp

/-- A flush that does not fail and details that are complete leave no diagnostic. -/
theorem journal_finish (session : Session TokenStore) (now : String)
    (hflush : session.sink.failsFlush = false) (hcode : session.details.languageCode ≠ "")
    (hidentifier : session.details.identifier ≠ "") :
    (session.finish now).journal = session.injectDefaults.journal := by
  have hleads := leads_injectDefaults session
  have hkept := (Keeps.reaches hleads.reaches).failsFlush.trans hflush
  have hdetails := details_of_leads hleads
  unfold finish
  generalize session.injectDefaults = injected at hkept hdetails
  rw [← hdetails] at hcode hidentifier
  have hflushed : TokenSink.flush injected.sink = (.ok (), injected.sink.flush.2) := by
    change injected.sink.flush = _
    simp [TokenStore.flush, hkept]
  have hstored (sink : TokenStore) :
      TokenSink.setDetails sink { injected.details with compiledDate := now } =
        (.ok (), { sink with details := some { injected.details with compiledDate := now } }) :=
    (if_neg hcode).trans (if_neg hidentifier)
  simp [flush, storeDetails, hflushed, hstored]

/-- A session between operations finishes with the default symbols that are refused. -/
theorem Idle.finishesWith {session : Session TokenStore} (h : session.Idle)
    (hsized : session.settings.defaults.Sized) : session.FinishesWith session.refusedDefaults where
  injected := h.entries_injectDefaults hsized
  finished hflush hcode hidentifier now := by
    rw [journal_finish session now hflush hcode hidentifier]
    exact h.entries_injectDefaults hsized

/-- A session that is reached, under the tag that was active at first, is between operations when
the first one was. -/
theorem Idle.of_reaches {session after : Session TokenStore} (h : session.Idle)
    (hreaches : session.Reaches after) (htag : after.journal.tag = session.journal.tag) :
    after.Idle where
  rejections := (Keeps.reaches hreaches).rejections.trans h.rejections
  tag := htag.trans h.tag

end Session

/-- Default symbols come without diagnostics, but for duplicates that are not passed over.

Take a sink that rejects nothing and default symbols that can be stored. Whatever operations were
carried out, or whatever program was run, finishing records one diagnostic for each default symbol
whose entry is stored already while duplicates are not passed over, and no other as long as the
flush does not fail and the details are complete. After a program on a sink without joiners, the
only symbol that this may happen to is the separator. -/
theorem finish_records_duplicates (sink : TokenStore) (settings : Settings)
    (hrejections : sink.rejections = []) (hsized : settings.defaults.Sized) :
    (∀ operations,
      let session := Operation.after operations (start sink settings)
      session.FinishesWith session.refusedDefaults) ∧
    ∀ file program,
      let session := (Program.run file program (start sink settings)).2
      session.FinishesWith session.refusedDefaults ∧
        (sink.tokensOf .nonJoiner = [] → sink.tokensOf .joiner = [] →
          ∀ token ∈ session.refusedDefaults,
            token = .ofSymbol .symbol settings.defaults.separator) := by
  have hstart : (start sink settings).Idle := ⟨hrejections, rfl⟩
  constructor
  · intro operations session
    have hreaches := Operation.reaches_after operations (start sink settings)
    have hidle := hstart.of_reaches hreaches (tag_after operations _)
    have hsettings := (Keeps.reaches hreaches).settings
    exact hidle.finishesWith (hsettings ▸ hsized)
  · intro file program session
    have hreaches := program.reaches_run file (start sink settings)
    have hspares := program.spares_run file (start sink settings)
    have hsettings := (Keeps.reaches hreaches).settings
    refine ⟨(hstart.of_reaches hreaches hspares.tag).finishesWith (hsettings ▸ hsized), ?_⟩
    intro hnonJoiners hjoiners token htoken
    obtain ⟨hdefault, hrefused⟩ := List.mem_filter.mp htoken
    rcases mem_defaultTokens_cases hdefault with ⟨hown, hcategory⟩ | ⟨hown, hcategory⟩ | hseparator
    · have hnone := (hspares.nonJoiner hown).2.trans hnonJoiners
      rw [refuses_eq_false (by rw [hcategory]; exact hnone)] at hrefused
      contradiction
    · have hnone := (hspares.joiner hown).2.trans hjoiners
      rw [refuses_eq_false (by rw [hcategory]; exact hnone)] at hrefused
      contradiction
    · rw [hseparator, hsettings]
      rfl

/-- A scheme that has the separator among its symbols and does not pass over duplicates. -/
def separatorTwice : Program where
  header := { languageCode := some "l", identifier := some "i" }
  steps := [.ignoreDuplicates false,
    .declare .symbols { tokens := some (.map [(.str "-", .str "-")]) }]

/-- Such a scheme has no diagnostics before it is finished and one afterwards, for the default
separator. -/
theorem finish_records_duplicates_separatorTwice :
    let session := (separatorTwice.run "s.toml" (start ({ } : TokenStore) { })).2
    session.FinishesWith [.ofSymbol .symbol "-"] ∧ session.journal.entries = [] := by
  have hsized : DefaultSymbols.Sized { } :=
    ⟨⟨by decide, by decide⟩, ⟨by decide, by decide⟩, ⟨by decide, by decide⟩⟩
  have hfinishes := ((finish_records_duplicates { } { } rfl hsized).2 "s.toml" separatorTwice).1
  have hrefused : (separatorTwice.run "s.toml" (start ({ } : TokenStore) { })).2.refusedDefaults =
      [.ofSymbol .symbol "-"] := by
    decide +kernel
  rw [hrefused] at hfinishes
  exact ⟨hfinishes, by decide +kernel⟩

/-- Default symbols do not always come without a diagnostic: the sink rejects nothing, they are
enabled and can be stored, the scheme states its language and its identifier and has no errors, and
yet the separator is refused and finishing makes it one error. -/
theorem finish_separatorTwice_has_error :
    let session := (separatorTwice.run "s.toml" (start ({ } : TokenStore) { })).2
    session.settings.defaults.enabled = true ∧ session.sink.rejections = [] ∧
      session.journal.errors = 0 ∧ session.details.languageCode ≠ "" ∧
      session.details.identifier ≠ "" ∧
      session.injectDefaults.journal.entries ≠ session.journal.entries ∧
      (session.finish "now").journal.errors = 1 := by
  decide +kernel

end TranslitScheme
