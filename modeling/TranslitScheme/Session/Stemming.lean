import TranslitScheme.Session.Basic
import TranslitScheme.Value.Shape

/-!
# Stem rules and exceptions

Stem rules and their exceptions are pairs of plain texts. They are read from mappings like
tokens are; pairs with a group on either side are reported first, and then the others are
handed to the sink in order.
-/

namespace TranslitScheme.Session

variable {σ : Type}

/-- The pairs of plain texts in a mapping. -/
def plainPairs (mapping : Mapping) : List (String × String) :=
  mapping.filterMap fun pair =>
    match pair.1.asScalar?, pair.2.asScalar? with
    | some key, some value => some (key, value)
    | _, _ => none

/-- Report every pair of a mapping that has a group on either side. -/
def reportGroups : Mapping → Journal → Journal
  | [], journal => journal
  | (key, value) :: rest, journal =>
    match key.asScalar?, value.asScalar? with
    | some _, some _ => reportGroups rest journal
    | _, _ =>
      let reported := { journal with expression := some (key.display ++ " => " ++ value.display) }
      let reported := reported.error .shapeInvalidType
        "Stem rules and exceptions take a single string on each side"
      reportGroups rest { reported with expression := none }

variable [TokenSink σ]

/-- Hand pairs to an operation of the sink in order, recording each refusal. -/
def submitPairs (create : σ → String × String → Except SinkError Unit × σ) (what : String) :
    List (String × String) → Session σ → Session σ
  | [], session => session
  | pair :: rest, session =>
    match create session.sink pair with
    | (.ok (), sink) => submitPairs create what rest { session with sink }
    | (.error refusal, sink) =>
      submitPairs create what rest
        { session with
          sink
          journal := session.journal.errorIn .sinkRejected (pair.1 ++ " => " ++ pair.2)
            ("could not create " ++ what ++ ": " ++ refusal.message) }

/-- Read a mapping of plain pairs and hand them to an operation of the sink. -/
def createPairs (session : Session σ) (value : Value)
    (create : σ → String × String → Except SinkError Unit × σ) (what : String) :
    Except Fault Unit × Session σ :=
  match value.toMapping session.journal with
  | (.error fault, journal) => (.error fault, { session with journal })
  | (.ok mapping, journal) =>
    (.ok (), submitPairs create what (plainPairs mapping)
      { session with journal := reportGroups mapping journal })

/-- Declare one stem rule for each pair of an old and a new ending. -/
def stemRules (session : Session σ) (value : Value) : Except Fault Unit × Session σ :=
  session.createPairs value
    (fun sink pair => TokenSink.createStemRule sink ⟨pair.1, pair.2⟩) "stem rule"

/-- Declare one stem exception for each pair of a rule and an ending. -/
def stemExceptions (session : Session σ) (value : Value) : Except Fault Unit × Session σ :=
  session.createPairs value
    (fun sink pair => TokenSink.createStemException sink ⟨pair.1, pair.2⟩) "stem exception"

end TranslitScheme.Session
