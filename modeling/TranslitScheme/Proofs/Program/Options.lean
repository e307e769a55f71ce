import TranslitScheme.Proofs.Program.Move
import TranslitScheme.Proofs.Session.Options

/-!
# The options of a compiled scheme

Priorities are ordered by engine value and equal by structure, and nothing in the two types keeps
`high` and the raw value 1 apart from being ordered as equal. No scheme brings both about. Every
token that it declares has canonical options, and what the tokens of a session have is carried over
to its compounds, to the dead forms that the store derives and to the ones that are read back.

`Declaration.run_ok_iff` and `Declaration.adds_run` are about a single declaration. Options decide
on their own whether they are accepted, and every token that is added has what they mean.
-/

namespace TranslitScheme

open Session

variable {session : Session TokenStore}

namespace Declaration

/-- A declaration is accepted when it is without its options, and the options mean something. -/
theorem run_ok_iff (part : Section) (body : Declaration) (session : Session TokenStore) :
    (body.run part session).1 = .ok () ↔
      ({ body with options := { } }.run part session).1 = .ok () ∧
        ∃ priority acceptance, body.options.Means priority acceptance := by
  have hnone : ∃ priority acceptance, TokenOptions.Means { } priority acceptance :=
    ⟨.normal, .all, rfl, rfl⟩
  unfold run
  dsimp only
  split
  · rw [ofOperation_ok_iff, ofOperation_ok_iff, build_ok_iff, build_ok_iff]
    tauto
  · rename_i expansion _ _
    unfold runExpansion
    cases expansion.source with
    | error reason => simp [rejectStep]
    | ok source =>
      dsimp only
      rcases session.combine source expansion.tokenFilter expansion.template with
        ⟨fault | mapping, combined⟩
      · simp
      · dsimp only
        rw [ofOperation_ok_iff, ofOperation_ok_iff, build_ok_iff, build_ok_iff]
        tauto
  · simp [rejectStep]

/-- A declaration adds tokens with what its options mean. -/
theorem adds_run (part : Section) (body : Declaration) (session : Session TokenStore) :
    session.Adds body.options.Means (body.run part session).2 := by
  unfold run
  split
  · rw [ofOperation_snd]
    exact adds_build _ _ _
  · rename_i expansion _ _
    unfold runExpansion
    cases expansion.source with
    | error reason => exact .of_eq rfl rfl rfl
    | ok source =>
      have hcombined : session.Adds body.options.Means
          (session.combine source expansion.tokenFilter expansion.template).2 := adds_combine _ _ _
      dsimp only
      generalize session.combine source expansion.tokenFilter expansion.template = combined
        at hcombined ⊢
      obtain ⟨fault | mapping, combined⟩ := combined
      · exact hcombined
      · dsimp only
        rw [ofOperation_snd]
        exact hcombined.trans (adds_build _ _ _)
  · exact .of_eq rfl rfl rfl

/-- An integer is accepted as a priority when it has 32 bits, and is then the engine value of every
token that is added. -/
theorem run_integer_priority (part : Section) (body : Declaration) (session : Session TokenStore)
    {number : Int} (h : body.options.priority = some (.int number)) :
    ((body.run part session).1 = .ok () ↔
      ({ body with options.priority := none }.run part session).1 = .ok () ∧
        -2147483648 ≤ number ∧ number ≤ 2147483647) ∧
    session.Adds (fun priority _ => priority.value.toInt = number) (body.run part session).2 := by
  have hdefault : ∃ priority, Priority.ofSetting none = .ok priority := ⟨.normal, rfl⟩
  constructor
  · rw [run_ok_iff, run_ok_iff part { body with options.priority := none }]
    simp only [TokenOptions.Means, h, exists_and_left, exists_and_right,
      Priority.exists_ofSetting_int, hdefault]
    tauto
  · refine (adds_run part body session).mono fun priority acceptance hmeans => ?_
    exact ((Priority.ofSetting_int number priority).mp (h ▸ hmeans.1)).2

/-- An integer is accepted as a condition when it has 32 bits, and is then the engine code of every
token that is added. -/
theorem run_integer_acceptIf (part : Section) (body : Declaration) (session : Session TokenStore)
    {number : Int} (h : body.options.acceptIf = some (.int number)) :
    ((body.run part session).1 = .ok () ↔
      ({ body with options.acceptIf := none }.run part session).1 = .ok () ∧
        -2147483648 ≤ number ∧ number ≤ 2147483647) ∧
    session.Adds (fun _ acceptance => acceptance.code.toInt = number)
      (body.run part session).2 := by
  have hdefault : ∃ acceptance, Acceptance.ofSetting none = .ok acceptance := ⟨.all, rfl⟩
  constructor
  · rw [run_ok_iff, run_ok_iff part { body with options.acceptIf := none }]
    simp only [TokenOptions.Means, h, exists_and_left, exists_and_right,
      Acceptance.exists_ofSetting_int, hdefault]
    tauto
  · refine (adds_run part body session).mono fun priority acceptance hmeans => ?_
    exact ((Acceptance.ofSetting_int number acceptance).mp (h ▸ hmeans.2)).2

end Declaration

namespace Step

mutual

/-- A step keeps all options canonical. -/
theorem canonical_run : (step : Step) → {session : Session TokenStore} →
    session.Canonical → (step.run session).2.Canonical
  | declare part body, session, h =>
    (Declaration.adds_run part body session).canonical h fun _ _ => TokenOptions.Means.canonical
  | joiner tokens, session, h => by
    have howned : ({ session with ownJoiner := true } : Session TokenStore).Canonical :=
      h.of_adds (.of_eq rfl rfl rfl)
    rw [run, ofOperation_snd]
    exact howned.build _ _ _
  | nonJoiner tokens, session, h => by
    have howned : ({ session with ownNonJoiner := true } : Session TokenStore).Canonical :=
      h.of_adds (.of_eq rfl rfl rfl)
    rw [run, ofOperation_snd]
    exact howned.build _ _ _
  | period value, session, h => by
    rw [run, ofOperation_snd]
    exact h.build _ _ _
  | tag name steps, session, h => by
    have hentered : ({ session with journal := { session.journal with tag := some name } } :
        Session TokenStore).Canonical := h.of_adds (.of_eq rfl rfl rfl)
    exact (canonical_runAll steps hentered).of_adds (.of_eq rfl rfl rfl)
  | list names steps, session, h => by
    rw [run, underLists]
    rcases session.lists.openScope_cases names with ⟨fault, hfault⟩ | ⟨lists, hopened, -⟩
    · rw [hfault]
      exact h.of_adds (.of_eq rfl rfl rfl)
    · rw [hopened]
      have hentered := h.of_adds (adds_openScope hopened)
      exact (canonical_runAll steps hentered).of_adds (.of_eq rfl rfl rfl)
  | generateCompounds, session, h => h.generateCompounds
  | stemRules tokens, session, h => by
    rw [run, ofOperation_snd]
    refine h.of_adds (adds_createPairs (fun sink pair => ?_) _ _)
    exact sink.stored_perform (.createStemRule ⟨pair.1, pair.2⟩) fun _ => nofun
  | stemExceptions tokens, session, h => by
    rw [run, ofOperation_snd]
    refine h.of_adds (adds_createPairs (fun sink pair => ?_) _ _)
    exact sink.stored_perform (.createStemException ⟨pair.1, pair.2⟩) fun _ => nofun
  | inferDeadConsonants _, _, h => h.of_adds (.of_eq rfl rfl rfl)
  | ignoreDuplicates _, _, h => h.of_adds (.of_eq rfl rfl rfl)

/-- Steps keep all options canonical, up to one that fails. -/
theorem canonical_runAll : (steps : List Step) → {session : Session TokenStore} →
    session.Canonical → (runAll steps session).2.Canonical
  | [], _, h => h
  | step :: rest, session, h => by
    have hfirst := canonical_run step h
    rw [runAll]
    generalize step.run session = outcome at hfirst ⊢
    obtain ⟨failure | ⟨⟩, left⟩ := outcome
    · exact hfirst
    · exact canonical_runAll rest hfirst

end

/-- So do the top-level steps of a file. -/
theorem canonical_runLocated (file : String) (index : Nat) (steps : List Step)
    (h : session.Canonical) : (runLocated file index steps session).2.Canonical := by
  induction steps generalizing index session with
  | nil => exact h
  | cons step rest ih =>
    have hlocated : (session.setLocation (some ⟨file, some index⟩)).Canonical :=
      h.of_adds (.of_eq rfl rfl rfl)
    have hfirst := canonical_run step hlocated
    rw [runLocated]
    generalize step.run (session.setLocation (some ⟨file, some index⟩)) = outcome at hfirst ⊢
    obtain ⟨failure | ⟨⟩, left⟩ := outcome
    · exact hfirst
    · exact ih (index + 1) hfirst

end Step

/-- A program keeps all options canonical. -/
theorem Program.canonical_run (file : String) (program : Program) (h : session.Canonical) :
    (program.run file session).2.Canonical := by
  have hheader : (program.header.apply session).Canonical := by
    rw [program.header.apply_eq]
    exact h.of_adds (.of_eq rfl rfl rfl)
  have hsteps := Step.canonical_runLocated file 1 program.steps hheader
  unfold Program.run
  generalize Step.runLocated file 1 program.steps (program.header.apply session) = outcome
    at hsteps ⊢
  obtain ⟨failure | ⟨⟩, left⟩ := outcome
  · exact hsteps
  · exact hsteps.of_adds (.of_eq rfl rfl rfl)

/-- A compiled scheme has canonical options only.

After any program on a new store, and also once the session is finished, every token that is built,
listed or stored has the canonical priority of its engine value and the canonical condition of its
engine code, so that priorities which are ordered as equal are equal. And wherever a declaration
has an integer for an option, it is accepted as it would be without that option if the integer has
32 bits, and is not accepted otherwise. The tokens that it adds have just that engine value. -/
theorem options_of_program (file : String) (program : Program) (settings : Settings)
    (now : String) :
    let ran := (program.run file (start ({ } : TokenStore) settings)).2
    (∀ session, session = ran ∨ session = ran.finish now → ∀ token, session.Holds token →
      (Priority.ofValue token.priority.value = token.priority ∧
        Acceptance.ofCode token.acceptance.code = token.acceptance) ∧
      ∀ other, session.Holds other →
        (Priority.compare token.priority other.priority = .eq ↔
          token.priority = other.priority)) ∧
    ∀ (part : Section) (body : Declaration) (session : Session TokenStore) (number : Int),
      (body.options.priority = some (.int number) →
        ((body.run part session).1 = .ok () ↔
          ({ body with options.priority := none }.run part session).1 = .ok () ∧
            -2147483648 ≤ number ∧ number ≤ 2147483647) ∧
        session.Adds (fun priority _ => priority.value.toInt = number)
          (body.run part session).2) ∧
      (body.options.acceptIf = some (.int number) →
        ((body.run part session).1 = .ok () ↔
          ({ body with options.acceptIf := none }.run part session).1 = .ok () ∧
            -2147483648 ≤ number ∧ number ≤ 2147483647) ∧
        session.Adds (fun _ acceptance => acceptance.code.toInt = number)
          (body.run part session).2) := by
  intro ran
  have hstart : (start ({ } : TokenStore) settings).Canonical := by
    intro token htoken
    cases htoken with
    | built h => contradiction
    | listed hlist _ => contradiction
    | stored h => contradiction
  have hran : ran.Canonical := program.canonical_run file hstart
  constructor
  · intro session hsession token htoken
    have hsession : session.Canonical := by
      rcases hsession with rfl | rfl
      · exact hran
      · exact hran.finish now
    have hcanonical := hsession token htoken
    refine ⟨hcanonical, fun other hother => ?_⟩
    exact hcanonical.1.compare_eq_iff (hsession other hother).1
  · intro part body session number
    exact ⟨body.run_integer_priority part session, body.run_integer_acceptIf part session⟩

/-- A consonant and a vowel with integers for their options, some of which have names. -/
def integerOptions : Program where
  steps := [.declare .virama { tokens := some (.map [(.str "~", .str "x")]) },
    .inferDeadConsonants true,
    .declare .consonants
      { options := { priority := some (.int 5), acceptIf := some (.int 7) }
        tokens := some (.map [(.str "ka", .str "K")]) },
    .declare .vowels
      { options := { priority := some (.int 1), acceptIf := some (.int 0) }
        tokens := some (.map [(.str "aa", .list [.str "A", .str "a"])]) },
    .generateCompounds]

/-- The dead form takes over the codes of the consonant, and the compound has the name of the code
that the vowel has. One more than 32 bits hold is no priority and no condition. -/
theorem options_of_program_integers :
    let ran := (integerOptions.run "s.toml" (start ({ } : TokenStore) { })).2
    let dead : Token :=
      { category := .deadConsonant, pattern := "k", value1 := "Kx", priority := .raw 5
        acceptance := .raw 7 }
    let compound : Token :=
      { category := .consonantVowel, pattern := "kaa", value1 := "Ka", priority := .high
        acceptance := .raw 7 }
    let body : Declaration :=
      { options := { priority := some (.int 2147483648), acceptIf := some (.int 2147483648) }
        tokens := some (.map []) }
    (ran.Holds dead ∧ Priority.ofValue dead.priority.value = dead.priority) ∧
      ((ran.finish "now").Holds compound ∧
        Acceptance.ofCode compound.acceptance.code = compound.acceptance) ∧
      (Priority.compare dead.priority compound.priority = .eq ↔
        dead.priority = compound.priority) ∧
      (body.run .vowels ran).1 ≠ .ok () ∧
      ({ body with options.priority := none }.run .vowels ran).1 ≠ .ok () := by
  intro ran dead compound body
  obtain ⟨hheld, hdeclared⟩ := options_of_program "s.toml" integerOptions { } "now"
  have hdead : ran.Holds dead := .stored (by decide +kernel)
  have hcompound : ran.Holds compound := .built (by decide +kernel)
  have hfinished : (ran.finish "now").Holds compound := .stored (by decide +kernel)
  refine ⟨⟨hdead, (hheld ran (Or.inl rfl) dead hdead).1.1⟩,
    ⟨hfinished, (hheld _ (Or.inr rfl) compound hfinished).1.2⟩,
    (hheld ran (Or.inl rfl) dead hdead).2 compound hcompound, ?_, ?_⟩
  · intro hok
    exact absurd (((hdeclared .vowels body ran _).1 rfl).1.mp hok).2.2 (by decide)
  · intro hok
    exact absurd (((hdeclared .vowels { body with options.priority := none } ran _).2 rfl).1.mp
      hok).2.2 (by decide)

end TranslitScheme
