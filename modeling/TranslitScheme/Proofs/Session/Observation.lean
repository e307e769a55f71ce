import TranslitScheme.Proofs.Program.Lockstep

/-!
# Sinks that are observed

An observed sink does what the sink in it does, and keeps a record of the tokens that were handed
over, each with the sink as it was at that moment. The record tells what happened in the course of
a compilation, where the sink at the end tells only what came of it.

Nothing else changes by observing. Sessions, steps and whole compilations over an observed sink do
what they do over the sink itself, once the record is forgotten: `ofFile_forget`. The session with
the record and the one without it are in lockstep, as every action asks the sink for the same.
-/

namespace TranslitScheme

/-- A token that is handed to a sink, with the sink as it is before. -/
structure Handover (σ : Type) where
  before : σ
  token : Token

/-- A sink with a record of what was handed to it. -/
structure Observed (σ : Type) where
  sink : σ
  handovers : List (Handover σ) := []

variable {σ : Type}

/-- What an operation leaves in place of the sink that is observed. -/
def Observed.pass {α : Type} (observed : Observed σ) (outcome : α × σ) : α × Observed σ :=
  (outcome.1, { observed with sink := outcome.2 })

/-- One more handover on record. -/
def Observed.witness (observed : Observed σ) (token : Token) : Observed σ :=
  { observed with handovers := observed.handovers ++ [⟨observed.sink, token⟩] }

variable [TokenSink σ]

instance : TokenSink (Observed σ) where
  createToken observed token :=
    (observed.witness token).pass (TokenSink.createToken observed.sink token)
  flush observed := observed.pass (TokenSink.flush observed.sink)
  tokensOf observed category := TokenSink.tokensOf observed.sink category
  setDetails observed details := observed.pass (TokenSink.setDetails observed.sink details)
  createStemRule observed rule := observed.pass (TokenSink.createStemRule observed.sink rule)
  createStemException observed exempt :=
    observed.pass (TokenSink.createStemException observed.sink exempt)
  configure observed option := observed.pass (TokenSink.configure observed.sink option)

/-- Creating a token creates it in the sink and is recorded. -/
theorem createToken_observed (observed : Observed σ) (token : Token) :
    TokenSink.createToken observed token =
      (observed.witness token).pass (TokenSink.createToken observed.sink token) := rfl

/-- Flushing flushes the sink. -/
theorem flush_observed (observed : Observed σ) :
    TokenSink.flush observed = observed.pass (TokenSink.flush observed.sink) := rfl

/-- Reading tokens back reads those of the sink. -/
theorem tokensOf_observed (observed : Observed σ) (category : Category) :
    TokenSink.tokensOf observed category = TokenSink.tokensOf observed.sink category := rfl

/-- Storing the details stores them in the sink. -/
theorem setDetails_observed (observed : Observed σ) (details : Details) :
    TokenSink.setDetails observed details =
      observed.pass (TokenSink.setDetails observed.sink details) := rfl

/-- Setting a switch sets that of the sink. -/
theorem configure_observed (observed : Observed σ) (option : SinkOption) :
    TokenSink.configure observed option =
      observed.pass (TokenSink.configure observed.sink option) := rfl

namespace Session

/-- A session without the record. -/
def forget (session : Session (Observed σ)) : Session σ :=
  { session with sink := session.sink.sink }

/-- What an operation leaves, without the record. -/
def forgetIn {α : Type} (outcome : α × Session (Observed σ)) : α × Session σ :=
  (outcome.1, outcome.2.forget)

/-- Submitting a token does the same. -/
theorem submit_forget (session : Session (Observed σ)) (token : Token) :
    session.forget.submit token = forgetIn (session.submit token) := by
  unfold submit
  dsimp only [forget]
  split
  · rfl
  · rw [createToken_observed]
    rcases TokenSink.createToken session.sink.sink _ with ⟨_ | ⟨⟩, sink⟩ <;> rfl

/-- Setting a switch does the same. -/
theorem configure_forget (session : Session (Observed σ)) (option : SinkOption) :
    session.forget.configure option = (session.configure option).forget := by
  unfold configure
  dsimp only [forget]
  rw [configure_observed]
  rcases TokenSink.configure session.sink.sink option with ⟨_ | ⟨⟩, sink⟩ <;> rfl

/-- Reading dead consonants back does the same. -/
theorem refreshDeadConsonants_forget (session : Session (Observed σ)) :
    session.forget.refreshDeadConsonants = session.refreshDeadConsonants.forget := by
  unfold refreshDeadConsonants
  rw [tokensOf_observed]
  dsimp only [forget]
  rcases TokenSink.tokensOf session.sink.sink .deadConsonant with _ | _ <;> rfl

/-- Flushing does the same. -/
theorem flush_forget (session : Session (Observed σ)) :
    session.forget.flush = session.flush.forget := by
  unfold flush
  dsimp only [forget]
  rw [flush_observed]
  rcases TokenSink.flush session.sink.sink with ⟨_ | ⟨⟩, sink⟩ <;> rfl

/-- Storing the details does the same. -/
theorem storeDetails_forget (session : Session (Observed σ)) (now : String) :
    session.forget.storeDetails now = (session.storeDetails now).forget := by
  unfold storeDetails
  dsimp only [forget]
  rw [setDetails_observed]
  rcases TokenSink.setDetails session.sink.sink _ with ⟨_ | ⟨⟩, sink⟩ <;> rfl

/-- A session over an observed sink and the one over the sink itself are in lockstep. -/
theorem lockstep_forget :
    LastingLockstep fun (session : Session (Observed σ)) forgotten =>
      session.forget = forgotten where
  reads := by rintro session _ rfl; exact ⟨rfl, rfl, rfl, rfl, rfl, rfl, rfl, rfl, rfl⟩
  express := by rintro session _ expression rfl; rfl
  record := by rintro session _ finding rfl; rfl
  submit := by
    rintro session _ token rfl
    rw [submit_forget]
    exact ⟨rfl, rfl⟩
  inferDeadConsonants := by
    rintro session _ enabled rfl
    exact (configure_forget session _).symm
  ignoreDuplicates := by
    rintro session _ enabled rfl
    exact (configure_forget session _).symm
  refresh := by
    rintro session _ rfl
    exact (refreshDeadConsonants_forget session).symm
  stemRule := by rintro session _ rule rfl; exact ⟨rfl, rfl⟩
  stemException := by rintro session _ exempt rfl; exact ⟨rfl, rfl⟩
  own := by rintro session _ rfl; exact ⟨rfl, rfl⟩
  retag := by rintro session _ tag rfl; rfl
  enlist := by rintro session _ lists rfl; rfl
  locate := by rintro session _ location rfl; rfl
  describe := by rintro session _ details rfl; rfl
  flush := by
    rintro session _ rfl
    exact (flush_forget session).symm
  storeDetails := by
    rintro session _ now rfl
    exact (storeDetails_forget session now).symm

/-- Starting on an observed sink does the same. -/
theorem start_forget (observed : Observed σ) (settings : Settings) :
    (Session.start observed settings).forget = Session.start observed.sink settings :=
  (configure_forget
    { sink := observed, settings, journal := { overrides := settings.overrides } } _).symm

end Session

open Session

/-- A step does the same. -/
theorem Step.run_forget (step : Step) (session : Session (Observed σ)) :
    step.run session.forget = forgetIn (step.run session) := by
  obtain ⟨hresult, hsession⟩ := lockstep_forget.run step (rfl : session.forget = session.forget)
  exact Prod.ext hresult.symm hsession.symm

/-- A compilation over an observed sink, without the record. -/
def Compilation.forget (compiled : Compilation (Observed σ)) : Compilation σ :=
  { compiled with sink := compiled.sink.sink }

/-- Compiling over an observed sink does what compiling over the sink itself does, and comes to the
same report and to the same sink. -/
theorem Compilation.ofFile_forget (path : String) (contents : Except FileError String)
    (observed : Observed σ) (settings : Settings) (now : String) :
    Compilation.ofFile path contents observed.sink settings now =
      (Compilation.ofFile path contents observed settings now).forget := by
  obtain ⟨session, _, rfl, ⟨hleft, hright⟩ | ⟨hleft, hright⟩⟩ :=
    lockstep_forget.ofFile path contents (start_forget observed settings) now now
  · rw [hleft, hright]
    rfl
  · have hfinished := lockstep_forget.finish now (rfl : session.forget = session.forget)
    rw [hleft, hright, complete, complete, ← hfinished]
    rfl

end TranslitScheme
