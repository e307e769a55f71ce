import TranslitScheme.Program.Compile
import TranslitScheme.Proofs.Session.Lockstep

/-!
# Programs in lockstep

A program does the same on two sessions in lockstep. Steps come to the same results in the same
order, so that a run stops at the same step on both sides if it stops at all, and a compilation is
abandoned or completed on both.
-/

namespace TranslitScheme

namespace Step

/-- A step that runs further steps in a scope of its own. -/
def IsScope : Step → Prop
  | tag _ _ => True
  | list _ _ => True
  | _ => False

end Step

namespace Session

variable {σ τ : Type} {related : Session σ → Session τ → Prop}

/-- The results of operations that agree are results of steps that agree. -/
theorem Alike.ofOperation {outcome : Except Fault Unit × Session σ}
    {other : Except Fault Unit × Session τ} (h : Alike related outcome other) :
    Alike related (StepResult.ofOperation outcome) (StepResult.ofOperation other) := by
  rcases h.cases with ⟨fault, left, right, rfl, rfl, hleft⟩ | ⟨⟨⟩, left, right, rfl, rfl, hleft⟩
  · exact ⟨rfl, hleft⟩
  · exact ⟨rfl, hleft⟩

variable [TokenSink σ] [TokenSink τ] {s : Session σ} {t : Session τ}

namespace Lockstep

/-- A step is rejected on both sides. -/
theorem rejectStep (h : Lockstep related) (operation reason : String) (hst : related s t) :
    Alike related (s.rejectStep operation reason) (t.rejectStep operation reason) :=
  ⟨rfl, h.record _ hst⟩

/-- A template is expanded and built on both sides. -/
theorem runExpansion (h : Lockstep related) (part : Section) (options : TokenOptions)
    (expansion : Expansion) (hst : related s t) :
    Alike related (Declaration.runExpansion part options expansion s)
      (Declaration.runExpansion part options expansion t) := by
  unfold Declaration.runExpansion
  cases expansion.source with
  | error reason => exact h.rejectStep _ _ hst
  | ok source =>
    dsimp only
    rcases (h.combine source expansion.tokenFilter expansion.template hst).cases with
      ⟨fault, left, right, hs, ht, hleft⟩ | ⟨mapping, left, right, hs, ht, hleft⟩
    · rw [hs, ht]
      exact ⟨rfl, hleft⟩
    · rw [hs, ht]
      exact (h.build _ _ _ hleft).ofOperation

/-- A declaration runs alike on both sides. -/
theorem runDeclaration (h : Lockstep related) (part : Section) (body : Declaration)
    (hst : related s t) : Alike related (body.run part s) (body.run part t) := by
  unfold Declaration.run
  split
  · exact (h.build _ _ _ hst).ofOperation
  · exact h.runExpansion _ _ _ hst
  · exact h.rejectStep _ _ hst

/-- A step without a scope runs alike on both sides. -/
theorem runPlain (h : Lockstep related) (step : Step) (hplain : ¬ step.IsScope)
    (hst : related s t) : Alike related (step.run s) (step.run t) := by
  cases step with
  | declare part body => exact h.runDeclaration part body hst
  | joiner tokens => exact (h.joiner tokens hst).ofOperation
  | nonJoiner tokens => exact (h.nonJoiner tokens hst).ofOperation
  | period value => exact (h.build _ _ _ hst).ofOperation
  | tag name steps => exact absurd trivial hplain
  | list names steps => exact absurd trivial hplain
  | generateCompounds => exact ⟨rfl, (h.generateCompounds hst).2⟩
  | stemRules tokens => exact (h.stemRules tokens hst).ofOperation
  | stemExceptions tokens => exact (h.stemExceptions tokens hst).ofOperation
  | inferDeadConsonants enabled => exact ⟨rfl, h.inferDeadConsonants enabled hst⟩
  | ignoreDuplicates enabled => exact ⟨rfl, h.ignoreDuplicates enabled hst⟩

end Lockstep

namespace ScopingLockstep

mutual

/-- A step runs alike on both sides. -/
theorem run (h : ScopingLockstep related) : (step : Step) → {s : Session σ} → {t : Session τ} →
    related s t → Alike related (step.run s) (step.run t)
  | .tag name steps, _, _, hst => by
    rw [Step.run, Step.run]
    exact h.underTag (fun hst => runAll h steps hst) name hst
  | .list names steps, _, _, hst => by
    rw [Step.run, Step.run]
    exact h.underLists (fun hst => runAll h steps hst) names StepError.fault hst
  | .declare part body, _, _, hst => h.runPlain (.declare part body) id hst
  | .joiner tokens, _, _, hst => h.runPlain (.joiner tokens) id hst
  | .nonJoiner tokens, _, _, hst => h.runPlain (.nonJoiner tokens) id hst
  | .period value, _, _, hst => h.runPlain (.period value) id hst
  | .generateCompounds, _, _, hst => h.runPlain .generateCompounds id hst
  | .stemRules tokens, _, _, hst => h.runPlain (.stemRules tokens) id hst
  | .stemExceptions tokens, _, _, hst => h.runPlain (.stemExceptions tokens) id hst
  | .inferDeadConsonants enabled, _, _, hst => h.runPlain (.inferDeadConsonants enabled) id hst
  | .ignoreDuplicates enabled, _, _, hst => h.runPlain (.ignoreDuplicates enabled) id hst

/-- Steps run alike on both sides, up to one that fails. -/
theorem runAll (h : ScopingLockstep related) : (steps : List Step) → {s : Session σ} →
    {t : Session τ} → related s t → Alike related (Step.runAll steps s) (Step.runAll steps t)
  | [], _, _, hst => ⟨rfl, hst⟩
  | step :: rest, _, _, hst => by
    rw [Step.runAll, Step.runAll]
    rcases (run h step hst).cases with
      ⟨failure, left, right, hs, ht, hleft⟩ | ⟨⟨⟩, left, right, hs, ht, hleft⟩
    · rw [hs, ht]
      exact ⟨rfl, hleft⟩
    · rw [hs, ht]
      exact runAll h rest hleft

end

end ScopingLockstep

namespace LastingLockstep

/-- A step runs alike on both sides of a lockstep that lasts. -/
theorem run (h : LastingLockstep related) (step : Step) (hst : related s t) :
    Alike related (step.run s) (step.run t) :=
  h.scoping.run step hst

/-- The top-level steps of a file run alike on both sides. -/
theorem runLocated (h : LastingLockstep related) (file : String) (index : Nat)
    (steps : List Step) (hst : related s t) :
    Alike related (Step.runLocated file index steps s) (Step.runLocated file index steps t) := by
  induction steps generalizing index s t with
  | nil => exact ⟨rfl, hst⟩
  | cons step rest ih =>
    rw [Step.runLocated, Step.runLocated]
    rcases (h.run step (h.locate (some ⟨file, some index⟩) hst)).cases with
      ⟨failure, left, right, hs, ht, hleft⟩ | ⟨⟨⟩, left, right, hs, ht, hleft⟩
    · rw [hs, ht]
      exact ⟨rfl, hleft⟩
    · rw [hs, ht]
      exact ih (index + 1) hleft

/-- A program runs alike on both sides. -/
theorem runProgram (h : LastingLockstep related) (file : String) (program : Program)
    (hst : related s t) : Alike related (program.run file s) (program.run file t) := by
  unfold Program.run
  rcases (h.runLocated file 1 program.steps (h.header program.header hst)).cases with
    ⟨failure, left, right, hs, ht, hleft⟩ | ⟨⟨⟩, left, right, hs, ht, hleft⟩
  · rw [hs, ht]
    exact ⟨rfl, hleft⟩
  · rw [hs, ht]
    exact ⟨rfl, h.locate _ hleft⟩

open Compilation in
/-- A compilation is abandoned on both sides or completed on both, from related sessions. -/
theorem ofFile (h : LastingLockstep related) (path : String)
    (contents : Except FileError String) {sink : σ} {sink' : τ} {settings settings' : Settings}
    (hstart : related (Session.start sink settings) (Session.start sink' settings'))
    (now now' : String) :
    ∃ s t, related s t ∧
      (Compilation.ofFile path contents sink settings now = abandon s now ∧
          Compilation.ofFile path contents sink' settings' now' = abandon t now' ∨
        Compilation.ofFile path contents sink settings now = complete s now ∧
          Compilation.ofFile path contents sink' settings' now' = complete t now') := by
  unfold Compilation.ofFile
  dsimp only
  cases Program.ofFile path contents with
  | error failure =>
    exact ⟨_, _, h.record _ (h.locate (some ⟨path, none⟩) hstart), Or.inl ⟨rfl, rfl⟩⟩
  | ok program =>
    rcases (h.runProgram path program hstart).cases with
      ⟨failure, left, right, hs, ht, hleft⟩ | ⟨⟨⟩, left, right, hs, ht, hleft⟩
    · exact ⟨left, right, hleft, Or.inl (by simp only [hs, ht, and_self])⟩
    · exact ⟨left, right, hleft, Or.inr (by simp only [hs, ht, and_self])⟩

end LastingLockstep

end Session

end TranslitScheme
