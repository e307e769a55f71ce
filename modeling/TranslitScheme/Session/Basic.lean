import TranslitScheme.Table.Sink
import TranslitScheme.NamedLists
import TranslitScheme.Settings.Basic
import TranslitScheme.Report.Basic

/-!
# Compilation sessions

A session is the state of one compilation: the sink it writes to, the journal, the tokens it
has built, the named lists and the scheme details. Tokens are remembered as they were handed
to the sink, in the order in which the sink accepted them.

An operation that may fail hands back the session in either case, since the findings that
led to the failure are part of it.
-/

namespace TranslitScheme

/-- Which tokens a query selects, by their way of matching. -/
inductive TokenFilter where
  | all
  | exact
  | possibility
  deriving DecidableEq, Repr, Inhabited

namespace TokenFilter

/-- The filter that criteria stand for.

No criteria select everything, criteria that set `exact` select exact tokens, and any other
value selects spellings. -/
def ofCriteria : Value → TokenFilter
  | .map [] => all
  | .map pairs =>
    if pairs.any fun pair => pair.1.asText? == some "exact" && pair.2.isTruthy then exact
    else possibility
  | _ => possibility

/-- A filter selects a token. -/
def selects : TokenFilter → Token → Bool
  | all, _ => true
  | exact, token => token.matching == .exact
  | possibility, token => token.matching == .possibility

end TokenFilter

/-- Where a template takes its tokens from. -/
inductive TokenSource where
  | category (category : Category)
  | list (name : String)
  deriving DecidableEq, Repr, Inhabited

/-- The options of a declaration, as written. -/
structure TokenOptions where
  priority : Option Value := none
  acceptIf : Option Value := none
  deriving Repr, Inhabited

/-- The state of one compilation over a sink. -/
structure Session (σ : Type) where
  sink : σ
  settings : Settings := { }
  journal : Journal := { }
  built : List Token := []
  lists : NamedLists := { }
  ownNonJoiner : Bool := false
  ownJoiner : Bool := false
  details : Details := { }
  tokensCreated : Nat := 0

namespace Session

variable {σ : Type}

/-- Record a fault and hand it back. -/
def abort {α : Type} (session : Session σ) (fault : Fault) : Except Fault α × Session σ :=
  (.error fault, { session with journal := session.journal.record fault.finding })

/-- The built tokens of a category that a filter selects, in building order. -/
def tokens (session : Session σ) (category : Category) (filter : TokenFilter) : List Token :=
  session.built.filter fun token => token.category == category && filter.selects token

/-- Use a location for the findings to come. -/
def setLocation (session : Session σ) (location : Option Location) : Session σ :=
  { session with journal := { session.journal with location } }

/-- Set the language code of the scheme. -/
def setLanguageCode (session : Session σ) (code : String) : Session σ :=
  { session with details := { session.details with languageCode := code } }

/-- Set the identifier of the scheme. -/
def setIdentifier (session : Session σ) (identifier : String) : Session σ :=
  { session with details := { session.details with identifier } }

/-- Set the name under which the scheme is shown. -/
def setDisplayName (session : Session σ) (name : String) : Session σ :=
  { session with details := { session.details with displayName := name } }

/-- Set the author of the scheme. -/
def setAuthor (session : Session σ) (author : String) : Session σ :=
  { session with details := { session.details with author } }

/-- Say whether the scheme is stable. -/
def setStable (session : Session σ) (stable : Bool) : Session σ :=
  { session with details := { session.details with isStable := stable } }

/-- The report of everything recorded so far.

It counts as one compiled scheme, whose details are listed once it has an identifier. -/
def report (session : Session σ) (now : String) : Report :=
  let recorded := Report.ofDiagnostics now session.journal.entries
  { recorded with
    summary :=
      { recorded.summary with tokensCreated := session.tokensCreated, schemesCompiled := 1 }
    schemes := if session.details.identifier = "" then [] else [session.details] }

variable [TokenSink σ]

/-- Set a switch of the sink, recording a refusal. -/
def configure (session : Session σ) (option : SinkOption) : Session σ :=
  match TokenSink.configure session.sink option with
  | (.ok (), sink) => { session with sink }
  | (.error refusal, sink) =>
    { session with sink, journal := session.journal.error .sinkRejected refusal.message }

/-- Begin a compilation. The sink is told the inherent vowel of the settings. -/
def start (sink : σ) (settings : Settings) : Session σ :=
  configure
    { sink, settings, journal := { overrides := settings.overrides } }
    (.inherentVowel settings.inherentVowel)

/-- Say whether dead consonants are to be derived. -/
def inferDeadConsonants (session : Session σ) (enabled : Bool) : Session σ :=
  session.configure (.inferDeadConsonants enabled)

/-- Say whether duplicate tokens are passed over. -/
def ignoreDuplicates (session : Session σ) (enabled : Bool) : Session σ :=
  session.configure (.ignoreDuplicates enabled)

end Session

end TranslitScheme
