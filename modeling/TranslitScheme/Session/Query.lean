import TranslitScheme.Session.Basic
import TranslitScheme.Value.Shape
import TranslitScheme.Derivation.Template

/-!
# Queries and templates

Tokens built so far can be asked for by category or by list, and a template can be expanded
over them. Dead consonants are mostly derived by the sink, so they are read back from it and
replace the ones that the session remembers; when the sink cannot tell, the failure is
recorded and the remembered ones stand.
-/

namespace TranslitScheme.Session

variable {σ : Type}

/-- The first virama built. Asking for it before there is one is a fault. -/
def virama (session : Session σ) : Except Fault Token × Session σ :=
  match session.tokens .virama .all with
  | [] => session.abort .viramaNotSet
  | token :: _ => (.ok token, session)

/-- The tokens of a named list. Asking for a list that was never declared is a fault. -/
def customList (session : Session σ) (name : String) : Except Fault (List Token) × Session σ :=
  match session.lists.get? name with
  | some list => (.ok list.tokens, session)
  | none => session.abort (.unknownList name)

variable [TokenSink σ]

/-- Replace the remembered dead consonants by those that the sink knows. -/
def refreshDeadConsonants (session : Session σ) : Session σ :=
  match TokenSink.tokensOf session.sink .deadConsonant with
  | .ok tokens =>
    { session with
      built := (session.built.filter fun token => token.category != .deadConsonant) ++ tokens }
  | .error refusal =>
    { session with journal := session.journal.error .sinkFailure refusal.message }

/-- The dead consonants that a filter selects, as the sink knows them. -/
def deadConsonants (session : Session σ) (filter : TokenFilter) : List Token × Session σ :=
  let session := session.refreshDeadConsonants
  (session.tokens .deadConsonant filter, session)

/-- All tokens of a source. -/
def sourceTokens (session : Session σ) : TokenSource → Except Fault (List Token) × Session σ
  | .category .deadConsonant =>
    let (tokens, session) := session.deadConsonants .all
    (.ok tokens, session)
  | .category category => (.ok (session.tokens category .all), session)
  | .list name => session.customList name

/-- Read a template and expand it over the tokens of a source that a filter selects. -/
def combine (session : Session σ) (source : TokenSource) (filter : TokenFilter)
    (template : Value) : Except Fault Mapping × Session σ :=
  match template.toMapping session.journal with
  | (.error fault, journal) => (.error fault, { session with journal })
  | (.ok template, journal) =>
    match { session with journal }.sourceTokens source with
    | (.error fault, session) => (.error fault, session)
    | (.ok tokens, session) =>
      (.ok (Template.combine (tokens.filter filter.selects) template), session)

end TranslitScheme.Session
