import TranslitScheme.Proofs.Program.Abort
import TranslitScheme.Proofs.Program.Lockstep
import TranslitScheme.Proofs.Repetition.Step

/-!
# The chapters of a journal

What a program records while one of its top-level steps runs is a chapter of the journal. A chapter
is located at its step as a whole, however deeply the steps are nested that record something: the
location is set when a chapter begins, and no step changes it. No step reads what is recorded
already either. So the diagnostics of a chapter are those that its step records with nothing before
them, and when the step fails, its failure is the last of them.

`run_chapters` puts the chapters of a run together. They are all that a run records, and an aborted
run ends with the chapter of the step that failed, as if there were no steps behind it.
-/

namespace TranslitScheme

namespace Session

variable {σ : Type}

/-- A session with diagnostics put before its own. -/
def behind (earlier : List Diagnostic) (session : Session σ) : Session σ :=
  { session with
    journal := { session.journal with entries := earlier ++ session.journal.entries } }

/-- Findings are located at a given place, and so are all that were recorded. -/
structure AllAt (location : Option Location) (session : Session σ) : Prop where
  active : session.journal.location = location
  recorded : ∀ diagnostic ∈ session.journal.entries, diagnostic.location = location

/-- One session is the other behind earlier diagnostics, and its own are at a given place. -/
def Continues (earlier : List Diagnostic) (location : Option Location)
    (session other : Session σ) : Prop :=
  session.behind earlier = other ∧ session.AllAt location

variable {earlier : List Diagnostic} {location : Option Location} {session other : Session σ}

/-- The rest of a session does not count. -/
theorem AllAt.congr (h : session.AllAt location) {left : Session σ}
    (hlocation : left.journal.location = session.journal.location)
    (hentries : left.journal.entries = session.journal.entries) : left.AllAt location :=
  ⟨hlocation.trans h.active, hentries ▸ h.recorded⟩

/-- One more diagnostic is recorded at the active place. -/
theorem AllAt.add (h : session.AllAt location) {left : Session σ} {added : Diagnostic}
    (hlocation : left.journal.location = session.journal.location)
    (hentries : left.journal.entries = session.journal.entries ++ [added])
    (hadded : added.location = session.journal.location) : left.AllAt location where
  active := hlocation.trans h.active
  recorded := by
    intro diagnostic hdiagnostic
    rw [hentries] at hdiagnostic
    rcases List.mem_append.mp hdiagnostic with hold | hnew
    · exact h.recorded diagnostic hold
    · rw [List.mem_singleton.mp hnew, hadded, h.active]

/-- What is recorded comes behind what was recorded earlier. -/
theorem behind_record (earlier : List Diagnostic) (session : Session σ) (finding : Finding) :
    ({ session with journal := session.journal.record finding } : Session σ).behind earlier =
      { session.behind earlier with
        journal := (session.behind earlier).journal.record finding } := by
  simp [behind, Journal.record, Journal.stamp, List.append_assoc]

/-- A problem with a token is reported behind what was recorded earlier. -/
theorem behind_refuse (earlier : List Diagnostic) (session : Session σ) (code : DiagnosticCode)
    (token : Token) (message : String) :
    (session.refuse code token message).behind earlier =
      (session.behind earlier).refuse code token message := by
  simp [behind, refuse, Journal.errorIn, Journal.error, Journal.record, Journal.stamp,
    List.append_assoc]

/-- A finding is recorded on both sides. -/
theorem Continues.record (h : session.Continues earlier location other) (finding : Finding) :
    ({ session with journal := session.journal.record finding } : Session σ).Continues earlier
      location { other with journal := other.journal.record finding } := by
  obtain ⟨rfl, hall⟩ := h
  exact ⟨behind_record earlier session finding, hall.add rfl rfl rfl⟩

variable [TokenSink σ]

/-- A token is accepted or refused alike. -/
theorem Continues.submit (h : session.Continues earlier location other) (token : Token) :
    Alike (Continues earlier location) (session.submit token) (other.submit token) := by
  obtain ⟨rfl, hall⟩ := h
  unfold Session.submit
  dsimp only [behind]
  split
  · exact ⟨rfl, behind_refuse earlier session _ _ _, hall.add rfl rfl rfl⟩
  · rcases TokenSink.createToken session.sink _ with ⟨refusal | ⟨⟩, sink⟩
    · exact ⟨rfl, behind_refuse earlier { session with sink } _ _ _, hall.add rfl rfl rfl⟩
    · exact ⟨rfl, rfl, hall.congr rfl rfl⟩

/-- A switch is set alike. -/
theorem Continues.configure (h : session.Continues earlier location other) (option : SinkOption) :
    (session.configure option).Continues earlier location (other.configure option) := by
  obtain ⟨rfl, hall⟩ := h
  unfold Session.configure
  dsimp only [behind]
  rcases TokenSink.configure session.sink option with ⟨refusal | ⟨⟩, sink⟩
  · have hsink : Continues earlier location { session with sink }
        { session.behind earlier with sink } := ⟨rfl, hall.congr rfl rfl⟩
    exact hsink.record _
  · exact ⟨rfl, hall.congr rfl rfl⟩

/-- Dead consonants are read back alike. -/
theorem Continues.refresh (h : session.Continues earlier location other) :
    session.refreshDeadConsonants.Continues earlier location other.refreshDeadConsonants := by
  obtain ⟨rfl, hall⟩ := h
  unfold Session.refreshDeadConsonants
  dsimp only [behind]
  rcases TokenSink.tokensOf session.sink .deadConsonant with refusal | tokens
  · exact Continues.record ⟨rfl, hall⟩ _
  · exact ⟨rfl, hall.congr rfl rfl⟩

/-- No step reads what is recorded already, and all that steps record is at the active place. -/
theorem lockstep_continues (earlier : List Diagnostic) (location : Option Location) :
    ScopingLockstep (Continues (σ := σ) earlier location) where
  reads := by
    rintro session _ ⟨rfl, -⟩
    exact ⟨rfl, rfl, rfl, rfl, rfl, rfl, rfl, rfl, rfl⟩
  express := by rintro session _ expression ⟨rfl, h⟩; exact ⟨rfl, h.congr rfl rfl⟩
  record finding h := h.record finding
  submit token h := h.submit token
  inferDeadConsonants enabled h := h.configure _
  ignoreDuplicates enabled h := h.configure _
  refresh h := h.refresh
  stemRule := by rintro session _ rule ⟨rfl, h⟩; exact ⟨rfl, rfl, h.congr rfl rfl⟩
  stemException := by rintro session _ exempt ⟨rfl, h⟩; exact ⟨rfl, rfl, h.congr rfl rfl⟩
  own := by
    rintro session _ ⟨rfl, h⟩
    exact ⟨⟨rfl, h.congr rfl rfl⟩, ⟨rfl, h.congr rfl rfl⟩⟩
  retag := by rintro session _ tag ⟨rfl, h⟩; exact ⟨rfl, h.congr rfl rfl⟩
  enlist := by rintro session _ lists ⟨rfl, h⟩; exact ⟨rfl, h.congr rfl rfl⟩

end Session

open Session

variable {σ : Type} [TokenSink σ]

namespace Step

/-- A step records its diagnostics behind those that were there, at the active place. If it fails,
the failure is told by the last of those that it recorded itself. -/
theorem exists_found (step : Step) (session : Session σ) :
    ∃ found, (step.run session).2.journal.entries = session.journal.entries ++ found ∧
      (∀ diagnostic ∈ found, diagnostic.location = session.journal.location) ∧
      ∀ failure, (step.run session).1 = .error failure → ∃ last, found.getLast? = some last ∧
        last.code = failure.code ∧ last.message = failure.message := by
  let fresh : Session σ := { session with journal := { session.journal with entries := [] } }
  have hstart : fresh.Continues session.journal.entries session.journal.location session :=
    ⟨by simp [behind, fresh], rfl, by simp [fresh]⟩
  obtain ⟨hresult, hleft, hall⟩ := (lockstep_continues _ _).run step hstart
  refine ⟨(step.run fresh).2.journal.entries, ?_, hall.recorded, fun failure hfailure => ?_⟩
  · rw [← hleft]
    rfl
  · obtain ⟨last, hlast, hcode, hmessage, -⟩ :=
      tells_run step fresh failure (hresult.trans hfailure)
    exact ⟨last, hlast, hcode, hmessage⟩

/-- What the top-level steps of a file record, step by step up to one that fails, the next one being
number `index`. -/
def chapters (file : String) : Nat → List Step → Session σ → List (List Diagnostic)
  | _, [], _ => []
  | index, step :: rest, session =>
    let ran := step.run (session.setLocation (some ⟨file, some index⟩))
    ran.2.journal.entries.drop session.journal.entries.length ::
      match ran with
      | (.ok (), left) => chapters file (index + 1) rest left
      | (.error _, _) => []

variable {file : String} {index : Nat} {session left : Session σ}

/-- The first chapter is what the first step records, and the next one begins when it does not
fail. -/
theorem exists_chapters_cons (file : String) (index : Nat) (step : Step) (rest : List Step)
    (session : Session σ) :
    let ran := step.run (session.setLocation (some ⟨file, some index⟩))
    ∃ chapter, ran.2.journal.entries = session.journal.entries ++ chapter ∧
      (∀ diagnostic ∈ chapter, diagnostic.location = some ⟨file, some index⟩) ∧
      (∀ failure, ran.1 = .error failure → ∃ last, chapter.getLast? = some last ∧
        last.code = failure.code ∧ last.message = failure.message) ∧
      chapters file index (step :: rest) session = chapter ::
        match ran with
        | (.ok (), left) => chapters file (index + 1) rest left
        | (.error _, _) => [] := by
  intro ran
  obtain ⟨chapter, hentries, hlocated, htold⟩ :=
    exists_found step (session.setLocation (some ⟨file, some index⟩))
  refine ⟨chapter, hentries, hlocated, htold, ?_⟩
  have hdropped : ran.2.journal.entries.drop session.journal.entries.length = chapter := by
    rw [hentries]
    exact List.drop_left
  rw [chapters, ← hdropped]

/-- The chapters are all that the steps of a file record. -/
theorem entries_runLocated (file : String) (index : Nat) (steps : List Step)
    (session : Session σ) :
    (runLocated file index steps session).2.journal.entries =
      session.journal.entries ++ (chapters file index steps session).flatten := by
  induction steps generalizing index session with
  | nil => simp [runLocated, chapters]
  | cons step rest ih =>
    obtain ⟨chapter, hentries, -, -, hchapters⟩ :=
      exists_chapters_cons file index step rest session
    rw [hchapters, runLocated]
    generalize step.run (session.setLocation (some ⟨file, some index⟩)) = ran at hentries ⊢
    obtain ⟨failure | ⟨⟩, left⟩ := ran
    · simpa using hentries
    · have hleft : left.journal.entries = session.journal.entries ++ chapter := hentries
      simp [ih, hleft]

/-- A chapter is located at its step. -/
theorem location_of_mem_chapters {steps : List Step} {k : Nat} {chapter : List Diagnostic}
    (hchapter : (chapters file index steps session)[k]? = some chapter) :
    ∀ diagnostic ∈ chapter, diagnostic.location = some ⟨file, some (index + k)⟩ := by
  induction steps generalizing index session k with
  | nil => simp [chapters] at hchapter
  | cons step rest ih =>
    obtain ⟨first, -, hlocated, -, hchapters⟩ := exists_chapters_cons file index step rest session
    rw [hchapters] at hchapter
    cases k with
    | zero =>
      obtain rfl : first = chapter := by simpa using hchapter
      exact hlocated
    | succ k =>
      rw [List.getElem?_cons_succ] at hchapter
      split at hchapter
      · have hrest := ih hchapter
        rw [Nat.add_right_comm] at hrest
        exact hrest
      · simp at hchapter

/-- Where each chapter is located at its step, the numbers of the steps do not decrease. -/
theorem exists_numbers {chapters : List (List Diagnostic)} (index : Nat)
    (h : ∀ (k : Nat) chapter, chapters[k]? = some chapter → ∀ diagnostic ∈ chapter,
      diagnostic.location = some ⟨file, some (index + k)⟩) :
    ∃ numbers : List Nat, numbers.Pairwise (· ≤ ·) ∧ (∀ number ∈ numbers, index ≤ number) ∧
      chapters.flatten.map Diagnostic.location =
        numbers.map fun number => some ⟨file, some number⟩ := by
  induction chapters generalizing index with
  | nil => exact ⟨[], .nil, by simp, rfl⟩
  | cons chapter rest ih =>
    obtain ⟨numbers, hsorted, hleast, hnumbers⟩ := ih (index + 1) fun k later hlater => by
      rw [Nat.add_right_comm]
      exact h (k + 1) later hlater
    have hchapter : chapter.map Diagnostic.location =
        List.replicate chapter.length (some ⟨file, some index⟩) :=
      List.map_eq_replicate_iff.mpr (h 0 chapter rfl)
    refine ⟨List.replicate chapter.length index ++ numbers, ?_, ?_, ?_⟩
    · refine List.pairwise_append.mpr ⟨List.pairwise_replicate.mpr (Or.inr (Nat.le_refl index)),
      hsorted, ?_⟩
      intro first hfirst second hsecond
      rw [List.eq_of_mem_replicate hfirst]
      exact Nat.le_of_succ_le (hleast second hsecond)
    · intro number hnumber
      rcases List.mem_append.mp hnumber with hfirst | hrest
      · exact Nat.le_of_eq (List.eq_of_mem_replicate hfirst).symm
      · exact Nat.le_of_succ_le (hleast number hrest)
    · rw [List.flatten_cons, List.map_append, hchapter, hnumbers, List.map_append,
        List.map_replicate]

/-- Steps that follow others run when these did not fail. -/
theorem runLocated_append (file : String) (index : Nat) (first second : List Step)
    (session : Session σ) :
    runLocated file index (first ++ second) session =
      (runLocated file index first session).andThen
        (runLocated file (index + first.length) second) := by
  rw [runLocated_eq, runLocated_eq, runFrom_append]
  exact congrArg _ (funext fun left => (runLocated_eq _ _ _ left).symm)

/-- The chapters of steps that follow others come behind those of the others. -/
theorem chapters_append (first second : List Step)
    (hfirst : runLocated file index first session = (.ok (), left)) :
    chapters file index (first ++ second) session =
      chapters file index first session ++ chapters file (index + first.length) second left := by
  induction first generalizing index session with
  | nil =>
    obtain rfl : session = left := congrArg Prod.snd hfirst
    rfl
  | cons step rest ih =>
    rw [runLocated] at hfirst
    rw [List.cons_append, chapters, chapters]
    generalize step.run (session.setLocation (some ⟨file, some index⟩)) = ran at hfirst ⊢
    obtain ⟨failure | ⟨⟨⟩⟩, middle⟩ := ran
    · simp at hfirst
    · dsimp only at hfirst ⊢
      rw [List.cons_append, ih hfirst, List.length_cons, Nat.add_right_comm, Nat.add_assoc]

/-- Steps that do not fail have one chapter each. -/
theorem length_chapters {steps : List Step}
    (hsteps : runLocated file index steps session = (.ok (), left)) :
    (chapters file index steps session).length = steps.length := by
  induction steps generalizing index session with
  | nil => rfl
  | cons step rest ih =>
    rw [runLocated] at hsteps
    rw [chapters]
    generalize step.run (session.setLocation (some ⟨file, some index⟩)) = ran at hsteps ⊢
    obtain ⟨failure | ⟨⟨⟩⟩, middle⟩ := ran
    · simp at hsteps
    · rw [List.length_cons, List.length_cons, ih hsteps]

/-- A step that fails stops the run, whatever steps are behind it. -/
theorem runLocated_of_failure {before : List Step} {step : Step} {failure : StepError}
    (hbefore : runLocated file index before session = (.ok (), left))
    (hfails : (step.run (left.setLocation (some ⟨file, some (index + before.length)⟩))).1 =
      .error failure) (after : List Step) :
    runLocated file index (before ++ step :: after) session =
      step.run (left.setLocation (some ⟨file, some (index + before.length)⟩)) := by
  rw [runLocated_append, hbefore, StepResult.andThen_ok, runLocated]
  generalize step.run (left.setLocation _) = ran at hfails ⊢
  obtain ⟨_ | ⟨⟩, stopped⟩ := ran
  · rfl
  · simp at hfails

/-- A step that fails has the last chapter, which ends with the failure. -/
theorem chapters_of_failure {before : List Step} {step : Step} {failure : StepError}
    (hbefore : runLocated file index before session = (.ok (), left))
    (hfails : (step.run (left.setLocation (some ⟨file, some (index + before.length)⟩))).1 =
      .error failure) (after : List Step) :
    ∃ chapter last, chapters file index (before ++ step :: after) session =
        chapters file index before session ++ [chapter] ∧
      chapter.getLast? = some last ∧ last.code = failure.code ∧
      last.message = failure.message ∧
      last.location = some ⟨file, some (index + before.length)⟩ := by
  obtain ⟨chapter, -, hlocated, htold, hchapters⟩ :=
    exists_chapters_cons file (index + before.length) step after left
  obtain ⟨last, hlast, hcode, hmessage⟩ := htold failure hfails
  refine ⟨chapter, last, ?_, hlast, hcode, hmessage, hlocated last (List.mem_of_getLast? hlast)⟩
  rw [chapters_append before _ hbefore, hchapters]
  generalize step.run (left.setLocation _) = ran at hfails ⊢
  obtain ⟨_ | ⟨⟩, stopped⟩ := ran
  · rfl
  · simp at hfails

/-- The steps of a file fail when one of them does, after those before it. -/
theorem runLocated_error_iff (steps : List Step) (session : Session σ) (failure : StepError) :
    (runLocated file index steps session).1 = .error failure ↔
      ∃ before step after left, steps = before ++ step :: after ∧
        runLocated file index before session = (.ok (), left) ∧
        (step.run (left.setLocation (some ⟨file, some (index + before.length)⟩))).1 =
          .error failure := by
  constructor
  · intro herror
    induction steps generalizing index session with
    | nil => simp [runLocated] at herror
    | cons step rest ih =>
      rw [runLocated] at herror
      rcases hran : step.run (session.setLocation (some ⟨file, some index⟩)) with
        ⟨other | ⟨⟩, left⟩
      · rw [hran] at herror
        exact ⟨[], step, rest, session, rfl, rfl, (congrArg Prod.fst hran).trans herror⟩
      · rw [hran] at herror
        obtain ⟨before, failing, after, reached, rfl, hbefore, hfails⟩ := ih left herror
        refine ⟨step :: before, failing, after, reached, rfl, ?_, ?_⟩
        · rw [runLocated, hran]
          exact hbefore
        · rw [List.length_cons, Nat.add_right_comm, Nat.add_assoc] at *
          exact hfails
  · rintro ⟨before, step, after, left, rfl, hbefore, hfails⟩
    rw [runLocated_of_failure hbefore hfails]
    exact hfails

end Step

namespace Program

/-- The program that ends behind its first steps. -/
def upTo (program : Program) (count : Nat) : Program :=
  { program with steps := program.steps.take count }

/-- What a program records, top-level step by top-level step. -/
def chapters (file : String) (program : Program) (session : Session σ) : List (List Diagnostic) :=
  Step.chapters file 1 program.steps (program.header.apply session)

/-- The step behind the first ones, `count` in number, fails when it is run after them. -/
def AbortsAt (file : String) (program : Program) (session : Session σ) (count : Nat)
    (failure : StepError) : Prop :=
  ∃ step before, program.steps[count]? = some step ∧
    (program.upTo count).run file session = (.ok (), before) ∧
    (step.run (before.setLocation (some ⟨file, some (count + 1)⟩))).1 = .error failure

/-- A run fails as its steps do, and records what they record. -/
theorem run_eq_runLocated (file : String) (program : Program) (session : Session σ) :
    (program.run file session).1 =
        (Step.runLocated file 1 program.steps (program.header.apply session)).1 ∧
      (program.run file session).2.journal.entries = (Step.runLocated file 1 program.steps
        (program.header.apply session)).2.journal.entries := by
  unfold run
  rcases Step.runLocated file 1 program.steps (program.header.apply session) with
    ⟨failure | ⟨⟩, left⟩
  · exact ⟨rfl, rfl⟩
  · exact ⟨rfl, rfl⟩

/-- A program aborts at the step behind some of its steps when these do not fail and that one does
after them. -/
theorem abortsAt_iff (file : String) (program : Program) (session : Session σ) (count : Nat)
    (failure : StepError) :
    program.AbortsAt file session count failure ↔
      ∃ before step after left, program.steps = before ++ step :: after ∧ before.length = count ∧
        Step.runLocated file 1 before (program.header.apply session) = (.ok (), left) ∧
        (step.run (left.setLocation (some ⟨file, some (1 + before.length)⟩))).1 =
          .error failure := by
  constructor
  · rintro ⟨step, reached, hstep, hbefore, hfails⟩
    obtain ⟨hcount, rfl⟩ := List.getElem?_eq_some_iff.mp hstep
    have hlength : (program.steps.take count).length = count :=
      List.length_take_of_le (Nat.le_of_lt hcount)
    unfold run at hbefore
    rcases hran : Step.runLocated file 1 (program.steps.take count)
      (program.header.apply session) with ⟨other | ⟨⟨⟩⟩, left⟩
    · simp [upTo, hran] at hbefore
    · obtain rfl : left.setLocation (some ⟨file, none⟩) = reached := by
        simpa [upTo, hran] using hbefore
      refine ⟨program.steps.take count, program.steps[count], program.steps.drop (count + 1), left,
        ?_, hlength, hran, ?_⟩
      · rw [← List.drop_eq_getElem_cons hcount, List.take_append_drop]
      · rw [hlength, Nat.add_comm]
        exact hfails
  · rintro ⟨before, step, after, left, hsteps, rfl, hbefore, hfails⟩
    refine ⟨step, left.setLocation (some ⟨file, none⟩), ?_, ?_, ?_⟩
    · simp [hsteps]
    · rw [run, upTo, hsteps, List.take_left, hbefore]
    · rw [Nat.add_comm] at hfails
      exact hfails

variable {file : String} {program : Program} {session : Session σ} {count : Nat}
  {failure : StepError}

/-- A run fails just when some step aborts it. -/
theorem run_error_iff (file : String) (program : Program) (session : Session σ)
    (failure : StepError) :
    (program.run file session).1 = .error failure ↔
      ∃ count, program.AbortsAt file session count failure := by
  rw [(run_eq_runLocated file program session).1, Step.runLocated_error_iff]
  constructor
  · rintro ⟨before, step, after, left, h⟩
    exact ⟨before.length, (abortsAt_iff _ _ _ _ _).mpr ⟨before, step, after, left, h.1, rfl, h.2⟩⟩
  · rintro ⟨count, haborts⟩
    obtain ⟨before, step, after, left, hsteps, -, h⟩ := (abortsAt_iff _ _ _ _ _).mp haborts
    exact ⟨before, step, after, left, hsteps, h⟩

/-- The step that aborts a run has the last chapter, and its failure is the last word in it. -/
theorem AbortsAt.last_chapter (h : program.AbortsAt file session count failure) :
    (program.chapters file session).length = count + 1 ∧
      ∃ last, (program.chapters file session).flatten.getLast? = some last ∧
        last.code = failure.code ∧ last.message = failure.message ∧
        last.location = some ⟨file, some (count + 1)⟩ := by
  obtain ⟨before, step, after, left, hsteps, rfl, hbefore, hfails⟩ :=
    (abortsAt_iff _ _ _ _ _).mp h
  obtain ⟨chapter, last, hchapters, hlast, hcode, hmessage, hlocation⟩ :=
    Step.chapters_of_failure hbefore hfails after
  rw [chapters, hsteps, hchapters]
  refine ⟨?_, last, ?_, hcode, hmessage, ?_⟩
  · rw [List.length_append, Step.length_chapters hbefore]
    rfl
  · rw [List.flatten_append, List.flatten_singleton, List.getLast?_append, hlast]
    rfl
  · rw [hlocation, Nat.add_comm]

/-- The steps behind the one that aborts a run do not count. -/
theorem AbortsAt.run_upTo (h : program.AbortsAt file session count failure) :
    program.run file session = (program.upTo (count + 1)).run file session := by
  obtain ⟨before, step, after, left, hsteps, rfl, hbefore, hfails⟩ :=
    (abortsAt_iff _ _ _ _ _).mp h
  have hcut : program.steps.take (before.length + 1) = before ++ [step] := by
    rw [hsteps, List.take_length_add_append]
    rfl
  rw [run, run, upTo, hcut, hsteps, Step.runLocated_of_failure hbefore hfails,
    Step.runLocated_of_failure hbefore hfails]

/-- Diagnostics point at the step that is running, and a failure is the last word. What a program
records is made of the chapters of its top-level steps, each of which is located at its step as a
whole, so that the numbers of the steps do not decrease. The run fails just when some step aborts
it. Then that step has the last chapter, the chapter ends with the failure, located at that step,
and the run leaves what the program that ends with that step leaves. -/
theorem run_chapters (file : String) (program : Program) (session : Session σ) :
    let ran := program.run file session
    let chapters := program.chapters file session
    ran.2.journal.entries = session.journal.entries ++ chapters.flatten ∧
      (∀ (index : Nat) chapter, chapters[index]? = some chapter → ∀ diagnostic ∈ chapter,
        diagnostic.location = some ⟨file, some (index + 1)⟩) ∧
      (∃ numbers : List Nat, numbers.Pairwise (· ≤ ·) ∧ chapters.flatten.map Diagnostic.location =
        numbers.map fun number => some ⟨file, some number⟩) ∧
      (∀ failure, ran.1 = .error failure ↔ ∃ count, program.AbortsAt file session count failure) ∧
      ∀ count failure, program.AbortsAt file session count failure →
        chapters.length = count + 1 ∧
        (∃ last, chapters.flatten.getLast? = some last ∧ last.code = failure.code ∧
          (∀ operation reason, failure = .invalidStep operation reason →
            last.code = .schemeStructure) ∧
          last.message = failure.message ∧ last.location = some ⟨file, some (count + 1)⟩) ∧
        ran = (program.upTo (count + 1)).run file session := by
  intro ran chapters
  have hlocated (index : Nat) (chapter : List Diagnostic)
      (hchapter : chapters[index]? = some chapter) : ∀ diagnostic ∈ chapter,
        diagnostic.location = some ⟨file, some (1 + index)⟩ :=
    Step.location_of_mem_chapters hchapter
  have hheader : (program.header.apply session).journal = session.journal := by
    rw [program.header.apply_eq]
  refine ⟨?_, ?_, ?_, run_error_iff file program session, fun count failure haborts => ?_⟩
  · rw [(run_eq_runLocated file program session).2, Step.entries_runLocated, hheader]
    rfl
  · intro index
    rw [Nat.add_comm]
    exact hlocated index
  · obtain ⟨numbers, hsorted, -, hnumbers⟩ := Step.exists_numbers 1 hlocated
    exact ⟨numbers, hsorted, hnumbers⟩
  · obtain ⟨hlength, last, hlast, hcode, hmessage, hlocation⟩ := haborts.last_chapter
    refine ⟨hlength, ⟨last, hlast, hcode, ?_, hmessage, hlocation⟩, haborts.run_upTo⟩
    rintro operation reason rfl
    exact hcode

/-- A program whose second step opens a list scope without names, under a tag, where a vowel was
declared with a blank value. The first step has a blank value as well. -/
def withUnnamedList : Program where
  steps := [.declare .vowels { tokens := some (.map [(.str "a", .str "")]) },
    .tag "t" [.declare .vowels { tokens := some (.map [(.str "i", .str "")]) }, .list [] []],
    .declare .vowels { tokens := some (.map [(.str "u", .str "U")]) }]

/-- The run stops at the second step, with the missing name as the last word. -/
theorem run_chapters_withUnnamedList :
    let session := Session.start ({ } : TokenStore) { }
    let ran := withUnnamedList.run "s.yaml" session
    withUnnamedList.AbortsAt "s.yaml" session 1 (.fault .unnamedList) ∧
      ran.1 = .error (.fault .unnamedList) ∧
      (withUnnamedList.chapters "s.yaml" session).length = 2 ∧
      (∃ last, (withUnnamedList.chapters "s.yaml" session).flatten.getLast? = some last ∧
        last.code = Fault.unnamedList.code ∧ last.location = some ⟨"s.yaml", some 2⟩) ∧
      ran = (withUnnamedList.upTo 2).run "s.yaml" session := by
  intro session ran
  have haborts : withUnnamedList.AbortsAt "s.yaml" session 1 (.fault .unnamedList) :=
    ⟨_, _, rfl, Prod.ext rfl rfl, rfl⟩
  obtain ⟨-, -, -, hfails, hlast⟩ := run_chapters "s.yaml" withUnnamedList session
  obtain ⟨hlength, ⟨last, htold, hcode, -, -, hlocation⟩, hcut⟩ := hlast 1 _ haborts
  exact ⟨haborts, (hfails _).mpr ⟨1, haborts⟩, hlength, ⟨last, htold, hcode, hlocation⟩, hcut⟩

end Program

end TranslitScheme
