import TranslitScheme.Proofs.Session.Submission

/-!
# Remarks and what they are about

A diagnostic quotes what it is about: a pair of a mapping as it is written, a token as it is handed
to the sink, or a pair of endings as it was read. Some are about nothing in particular and quote
nothing. The journal has one text that is quoted, which is set and unset along the way, so that it
could be the text of something else.

A remark is a finding together with what it is about. Reading a mapping and submitting tokens tell
remarks to the journal, each of them under the text of its own subject.
-/

namespace TranslitScheme

/-- What a finding is about. -/
inductive Subject where
  | nothing
  | pair (key value : Value)
  | token (entry : Token)
  | endings (key value : Pattern)

/-- The text that quotes a subject, if it is quoted. -/
def Subject.quoted : Subject → Option String
  | nothing => none
  | pair key value => some (key.display ++ " => " ++ value.display)
  | token entry => some (entry.pattern ++ " => " ++ entry.value1)
  | endings key value => some (key.display ++ " => " ++ value.display)

/-- A finding and what it is about. -/
structure Remark where
  subject : Subject
  finding : Finding

/-- The remark that a fault was met, which quotes nothing. -/
def Remark.ofFault (fault : Fault) : Remark := ⟨.nothing, fault.finding⟩

namespace Journal

/-- The diagnostic that a remark becomes: it quotes the subject, whatever else was quoted before. -/
def about (journal : Journal) (remark : Remark) : Diagnostic :=
  { journal with expression := remark.subject.quoted }.stamp remark.finding

/-- A journal with remarks recorded in it. The text that is quoted stays. -/
def tell (journal : Journal) (remarks : List Remark) : Journal :=
  { journal with entries := journal.entries ++ remarks.map journal.about }

variable (journal : Journal)

/-- Nothing is told. -/
@[simp] theorem tell_nil : journal.tell [] = journal := by
  simp [tell]

/-- Remarks may be told in two parts. -/
theorem tell_tell (remarks others : List Remark) :
    (journal.tell remarks).tell others = journal.tell (remarks ++ others) := by
  have habout : (journal.tell remarks).about = journal.about := rfl
  rw [tell, habout, tell, tell, List.map_append, List.append_assoc]

/-- Where nothing is quoted, a finding is recorded as a remark about nothing. -/
theorem record_eq_tell {journal : Journal} (h : journal.expression = none) (finding : Finding) :
    journal.record finding = journal.tell [⟨.nothing, finding⟩] := by
  have habout : journal.about ⟨.nothing, finding⟩ = journal.stamp finding := by
    rw [about, Subject.quoted, ← h]
  rw [tell, List.map_singleton, habout]
  rfl

/-- An error about a subject is recorded as a remark about it, and the text that was quoted before
is quoted again. -/
theorem errorIn_eq_tell {subject : Subject} {text : String} (h : subject.quoted = some text)
    (code : DiagnosticCode) (message : String) :
    journal.errorIn code text message = journal.tell [⟨subject, ⟨code, .error, message⟩⟩] := by
  rw [tell, List.map_singleton, about, h]
  rfl

end Journal

namespace Value

/-- What is read of a value: the pairs of a mapping, and nothing of anything else. -/
def mapping? : Value → Option Mapping
  | map pairs => some (readPairs pairs)
  | _ => none

/-- What is remarked on when a value is read as a mapping: each of its pairs, or that it is none. -/
def remarks : Value → List Remark
  | map pairs => pairs.flatMap fun pair =>
      (checkPair pair.1 pair.2).2.map fun finding => ⟨.pair pair.1 pair.2, finding⟩
  | value => [.ofFault (.notAMapping value.kind)]

/-- Reading pairs tells the remarks on each of them. Nothing is quoted afterwards, if there was a
pair. -/
theorem checkPairs_eq_tell (pairs : List (Value × Value)) (journal : Journal) :
    (checkPairs pairs journal).2 =
      { journal.tell (map pairs).remarks with
        expression := if pairs = [] then journal.expression else none } := by
  have habout : (map pairs).remarks.map journal.about = pairs.flatMap fun pair =>
      (checkPair pair.1 pair.2).2.map (stampPair journal pair.1 pair.2) := by
    rw [remarks, List.map_flatMap]
    simp only [List.map_map]
    rfl
  rw [checkPairs_eq, Journal.tell, habout]

/-- Where nothing is quoted, reading a value tells the remarks on it, and nothing is quoted
afterwards. -/
theorem toMapping_eq_tell (value : Value) {journal : Journal} (h : journal.expression = none) :
    value.toMapping journal =
      (match value.mapping? with
        | some mapping => .ok mapping
        | none => .error (.notAMapping value.kind),
      journal.tell value.remarks) := by
  cases value with
  | map pairs =>
    have hquoted : { journal.tell (map pairs).remarks with
        expression := if pairs = [] then journal.expression else none } =
          journal.tell (map pairs).remarks := by
      rw [h, ite_self, ← h]
      rfl
    rw [toMapping]
    dsimp only
    rw [checkPairs_eq_tell, hquoted, checkPairs_eq]
    rfl
  | _ => exact Prod.ext rfl (Journal.record_eq_tell h _)

end Value

/-- The remark on a token that is not accepted. -/
def Ruling.remark? (ruling : Ruling) : Option Remark :=
  ruling.finding?.map fun finding => ⟨.token ruling.token, finding⟩

/-- The diagnostics for tokens are the remarks on those that are not accepted. -/
theorem Ruling.diagnostics_eq_map_about (journal : Journal) (rulings : List Ruling) :
    diagnostics journal rulings = (rulings.filterMap remark?).map journal.about := by
  rw [diagnostics, List.map_filterMap]
  refine congrArg (List.filterMap · rulings) (funext fun ruling => ?_)
  rw [remark?, Option.map_map]
  rfl

namespace Session

variable {σ : Type} [TokenSink σ]

/-- The remarks on tokens that are submitted one after the other. -/
def tokenRemarks (session : Session σ) (tokens : List Token) : List Remark :=
  (TokenSink.considerAll session.sink (tokens.map session.tagged)).1.filterMap Ruling.remark?

/-- Submitting tokens tells the remarks on them. -/
theorem submitAll_tells (session : Session σ) (tokens : List Token) :
    (session.submitAll tokens).2.journal = session.journal.tell (session.tokenRemarks tokens) := by
  rw [submitAll_eq]
  exact congrArg (fun found =>
    { session.journal with entries := session.journal.entries ++ found })
    (Ruling.diagnostics_eq_map_about session.journal _)

end Session

end TranslitScheme
