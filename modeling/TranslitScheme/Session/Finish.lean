import TranslitScheme.Session.Building

/-!
# Finishing a compilation

At the end the default symbols are added, the sink is flushed and the scheme details are
stored. What fails here is recorded like any other problem, and the report tells it.
-/

namespace TranslitScheme.Session

variable {σ : Type} [TokenSink σ]

/-- Build a symbol that stands for itself. -/
def buildDefault (session : Session σ) (category : Category) (symbol : String) : Session σ :=
  (session.buildTokens category [(.scalar symbol, .scalar symbol)] .normal .all).2

/-- Build a symbol that stands for itself, if a condition holds. -/
def buildDefaultIf (session : Session σ) (condition : Bool) (category : Category)
    (symbol : String) : Session σ :=
  if condition then session.buildDefault category symbol else session

/-- Add the default symbols that the scheme did not declare, and the separator. -/
def injectDefaults (session : Session σ) : Session σ :=
  let defaults := session.settings.defaults
  if defaults.enabled then
    let session := session.buildDefaultIf (!session.ownNonJoiner) .nonJoiner defaults.nonJoiner
    let session := session.buildDefaultIf (!session.ownJoiner) .joiner defaults.joiner
    session.buildDefault .symbol defaults.separator
  else session

/-- Flush the sink, recording a failure. -/
def flush (session : Session σ) : Session σ :=
  match TokenSink.flush session.sink with
  | (.ok (), sink) => { session with sink }
  | (.error refusal, sink) =>
    { session with sink, journal := session.journal.error .sinkFailure refusal.message }

/-- Date the scheme details and store them, recording a failure. -/
def storeDetails (session : Session σ) (now : String) : Session σ :=
  let details := { session.details with compiledDate := now }
  match TokenSink.setDetails session.sink details with
  | (.ok (), sink) => { session with sink, details }
  | (.error refusal, sink) =>
    { session with
      sink, details
      journal := session.journal.error .sinkFailure refusal.message }

/-- Finish a compilation at a given time. -/
def finish (session : Session σ) (now : String) : Session σ :=
  session.injectDefaults.flush.storeDetails now

end TranslitScheme.Session
