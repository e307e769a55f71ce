import TranslitScheme.Program.Compile
import TranslitScheme.Proofs.Session.Move

/-!
# What programs do to a session

The steps of a program are made of moves, however they are nested and wherever they fail. What
every move keeps, the steps of a program keep. The details of the scheme are among that: a program
takes them over from its header before it runs its steps, and then leaves them alone.

A compilation is abandoned or complete, depending on what its program comes to, if there is one.
-/

namespace TranslitScheme

namespace Session

variable {σ : Type}

/-- The session that an operation leaves is the one that the step leaves. -/
theorem ofOperation_snd (outcome : Except Fault Unit × Session σ) :
    (StepResult.ofOperation outcome).2 = outcome.2 := by
  rcases outcome with ⟨_ | ⟨⟩, session⟩ <;> rfl

/-- A step does not fail when its operation does not. -/
theorem ofOperation_ok_iff (outcome : Except Fault Unit × Session σ) :
    (StepResult.ofOperation outcome).1 = .ok () ↔ outcome.1 = .ok () := by
  rcases outcome with ⟨_ | ⟨⟩, session⟩
  · constructor <;> nofun
  · exact iff_of_true rfl rfl

/-- A step that is rejected is no more than a note. -/
theorem leads_rejectStep [TokenSink σ] (session : Session σ) (operation reason : String) :
    session.Leads (session.rejectStep operation reason).2 :=
  leads_note (Journal.grows_record _ _)

end Session

open Session

variable {σ : Type} [TokenSink σ]

/-- A declaration combines tokens or takes those that are written, and builds them. -/
theorem Declaration.leads_run (part : Section) (body : Declaration) (session : Session σ) :
    session.Leads (body.run part session).2 := by
  unfold run
  split
  · rw [ofOperation_snd]
    exact leads_build session _ _ _
  · rename_i expansion _ _
    unfold runExpansion
    cases expansion.source with
    | error reason => exact leads_rejectStep session _ _
    | ok source =>
      have hcombined := leads_combine session source expansion.tokenFilter expansion.template
      dsimp only
      generalize session.combine source expansion.tokenFilter expansion.template = combined
        at hcombined ⊢
      obtain ⟨fault | mapping, combined⟩ := combined
      · exact hcombined
      · dsimp only
        rw [ofOperation_snd]
        exact hcombined.trans (leads_build combined _ _ _)
  · exact leads_rejectStep session _ _

mutual

/-- A step is made of moves, also when it fails. -/
theorem Step.leads_run : (step : Step) → (session : Session σ) →
    session.Leads (step.run session).2
  | .declare part body, session => Declaration.leads_run part body session
  | .joiner tokens, session => by
    rw [run, ofOperation_snd]
    exact leads_joiner session tokens
  | .nonJoiner tokens, session => by
    rw [run, ofOperation_snd]
    exact leads_nonJoiner session tokens
  | .period value, session => by
    rw [run, ofOperation_snd]
    exact leads_build session .period { } _
  | .tag name steps, session => by
    obtain ⟨entered, henter, hleave⟩ :=
      underTag_moves session name fun session => runAll steps session
    exact .head henter ((leads_runAll steps entered).tail hleave)
  | .list names steps, session => by
    rcases underLists_moves session names StepError.fault fun session => runAll steps session with
      hrefused | ⟨entered, henter, hleave⟩
    · exact .single hrefused
    · exact .head henter ((leads_runAll steps entered).tail hleave)
  | .generateCompounds, session => leads_submitAll session _
  | .stemRules tokens, session => by
    rw [run, ofOperation_snd]
    exact leads_stemRules session tokens
  | .stemExceptions tokens, session => by
    rw [run, ofOperation_snd]
    exact leads_stemExceptions session tokens
  | .inferDeadConsonants enabled, session => .single (.configure session _)
  | .ignoreDuplicates enabled, session => .single (.configure session _)

/-- Steps are made of moves, up to one that fails. -/
theorem Step.leads_runAll : (steps : List Step) → (session : Session σ) →
    session.Leads (Step.runAll steps session).2
  | [], session => .refl
  | step :: rest, session => by
    have hfirst := Step.leads_run step session
    rw [runAll]
    generalize step.run session = outcome at hfirst ⊢
    obtain ⟨failure | ⟨⟩, left⟩ := outcome
    · exact hfirst
    · exact hfirst.trans (Step.leads_runAll rest left)

end

/-- The top-level steps of a file are made of moves, up to one that fails. -/
theorem Step.leads_runLocated (file : String) (index : Nat) (steps : List Step)
    (session : Session σ) : session.Leads (Step.runLocated file index steps session).2 := by
  induction steps generalizing index session with
  | nil => exact .refl
  | cons step rest ih =>
    have hfirst := (leads_setLocation session (some ⟨file, some index⟩)).trans
      (Step.leads_run step (session.setLocation (some ⟨file, some index⟩)))
    rw [runLocated]
    generalize step.run (session.setLocation (some ⟨file, some index⟩)) = outcome at hfirst ⊢
    obtain ⟨failure | ⟨⟩, left⟩ := outcome
    · exact hfirst
    · exact hfirst.trans (ih (index + 1) left)

/-- Once its header is taken over, a program is made of moves. -/
theorem Program.leads_run (file : String) (program : Program) (session : Session σ) :
    (program.header.apply session).Leads (program.run file session).2 := by
  have hsteps := Step.leads_runLocated file 1 program.steps (program.header.apply session)
  unfold Program.run
  generalize Step.runLocated file 1 program.steps (program.header.apply session) = outcome
    at hsteps ⊢
  obtain ⟨failure | ⟨⟩, left⟩ := outcome
  · exact hsteps
  · exact hsteps.trans (leads_setLocation left _)

/-- A move leaves the details alone. -/
theorem Session.details_of_move {session after : Session σ} (h : session.Move after) :
    after.details = session.details := by
  cases h with
  | submit token =>
    unfold submit
    dsimp only
    split
    · rfl
    · rcases TokenSink.createToken session.sink _ with ⟨_ | ⟨⟩, sink⟩ <;> rfl
  | configure option =>
    unfold configure
    rcases TokenSink.configure session.sink option with ⟨_ | ⟨⟩, sink⟩ <;> rfl
  | refresh =>
    unfold refreshDeadConsonants
    rcases TokenSink.tokensOf session.sink .deadConsonant with _ | _ <;> rfl
  | _ => rfl

/-- So do moves one after another. -/
theorem Session.details_of_leads {session ended : Session σ} (h : session.Leads ended) :
    ended.details = session.details := by
  induction h with
  | refl => rfl
  | tail _ hlast ih => exact (details_of_move hlast).trans ih

/-- A compilation is abandoned because its file has no program or because its program fails, or it
is complete. -/
theorem Compilation.ofFile_cases {σ : Type} [TokenSink σ] (path : String)
    (contents : Except FileError String) (sink : σ) (settings : Settings) (now : String) :
    (∃ failure, Program.ofFile path contents = .error failure ∧
      let located := (Session.start sink settings).setLocation (some ⟨path, none⟩)
      ofFile path contents sink settings now = abandon
        { located with journal := located.journal.error .schemeStructure failure.message } now) ∨
    ∃ program, Program.ofFile path contents = .ok program ∧
      let ran := program.run path (Session.start sink settings)
      (∃ failure, ran.1 = .error failure ∧
        ofFile path contents sink settings now = abandon ran.2 now) ∨
      ran.1 = .ok () ∧ ofFile path contents sink settings now = complete ran.2 now := by
  unfold ofFile
  cases Program.ofFile path contents with
  | error failure => exact .inl ⟨failure, rfl, rfl⟩
  | ok program =>
    refine .inr ⟨program, rfl, ?_⟩
    dsimp only
    generalize program.run path (Session.start sink settings) = ran
    obtain ⟨failure | ⟨⟩, session⟩ := ran
    · exact .inl ⟨failure, rfl, rfl⟩
    · exact .inr ⟨rfl, rfl⟩

end TranslitScheme
