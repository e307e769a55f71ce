import TranslitScheme.Session.Basic
import TranslitScheme.Value.Shape
import TranslitScheme.Value.Setting
import TranslitScheme.Derivation.Compound

/-!
# Building tokens

A declaration reads a mapping and builds one token for every text of every key. The tokens
of a key that is a plain text match exactly; those of a group are spellings of one another.
Each token is handed to the sink under the active tag. One that is refused is reported under
its own expression, and building goes on with the next.
-/

namespace TranslitScheme.Session

variable {σ : Type}

/-- The tokens that a pair describes, one for each text of its key.

The first three texts of the value fill the three slots, and slots without a text are blank. -/
def pairTokens (category : Category) (priority : Priority) (acceptance : Acceptance)
    (pair : Pattern × Pattern) : List Token :=
  let values := pair.2.leaves
  let matching := match pair.1 with
    | .scalar _ => Matching.exact
    | .group _ => Matching.possibility
  pair.1.leaves.map fun pattern =>
    { category, pattern, matching, priority, acceptance
      value1 := values.getD 0 ""
      value2 := values.getD 1 ""
      value3 := values.getD 2 "" }

/-- The tokens that a mapping describes, in order. -/
def mappingTokens (category : Category) (mapping : Mapping) (priority : Priority)
    (acceptance : Acceptance) : List Token :=
  mapping.flatMap (pairTokens category priority acceptance)

/-- Remember an accepted token in the session and in the open lists. -/
def remember (session : Session σ) (token : Token) : Session σ :=
  { session with
    built := session.built ++ [token]
    lists := session.lists.record token
    tokensCreated := session.tokensCreated + 1 }

/-- Report a problem with a token under its expression. -/
def refuse (session : Session σ) (code : DiagnosticCode) (token : Token) (message : String) :
    Session σ :=
  { session with journal := session.journal.errorIn code token.expression message }

variable [TokenSink σ]

/-- Hand a token to the sink under the active tag, and tell whether it was accepted. -/
def submit (session : Session σ) (token : Token) : Bool × Session σ :=
  let token := { token with tag := session.journal.tag.getD "" }
  if token.pattern = "" ∨ token.value1 = "" then
    (false, session.refuse .shapeEmptyValue token "Empty patterns and values are not allowed")
  else
    match TokenSink.createToken session.sink token with
    | (.error refusal, sink) =>
      (false, { session with sink }.refuse .sinkRejected token refusal.message)
    | (.ok (), sink) => (true, { session with sink }.remember token)

/-- Hand tokens to the sink in order, and count those that were accepted. -/
def submitAll (session : Session σ) : List Token → Nat × Session σ
  | [] => (0, session)
  | token :: rest =>
    let (accepted, session) := session.submit token
    let (count, session) := session.submitAll rest
    (if accepted then count + 1 else count, session)

/-- Build the tokens of a validated mapping, and count those that were accepted. -/
def buildTokens (session : Session σ) (category : Category) (mapping : Mapping)
    (priority : Priority) (acceptance : Acceptance) : Nat × Session σ :=
  session.submitAll (mappingTokens category mapping priority acceptance)

/-- Read a mapping and the options of a declaration, and build its tokens. -/
def build (session : Session σ) (category : Category) (options : TokenOptions) (value : Value) :
    Except Fault Unit × Session σ :=
  match value.toMapping session.journal with
  | (.error fault, journal) => (.error fault, { session with journal })
  | (.ok mapping, journal) =>
    let session := { session with journal }
    match Priority.ofSetting options.priority with
    | .error fault => session.abort fault
    | .ok priority =>
      match Acceptance.ofSetting options.acceptIf with
      | .error fault => session.abort fault
      | .ok acceptance => (.ok (), (session.buildTokens category mapping priority acceptance).2)

/-- Declare the non-joiner, in place of the default one. -/
def nonJoiner (session : Session σ) (value : Value) : Except Fault Unit × Session σ :=
  { session with ownNonJoiner := true }.build .nonJoiner { } value

/-- Declare the joiner, in place of the default one. -/
def joiner (session : Session σ) (value : Value) : Except Fault Unit × Session σ :=
  { session with ownJoiner := true }.build .joiner { } value

/-- Declare what a full stop stands for. -/
def period (session : Session σ) (value : Value) : Except Fault Unit × Session σ :=
  session.build .period { } (.map [(.str ".", value)])

/-- Build the compounds of all consonants and vowels built so far, and count those that were
accepted. -/
def generateCompounds (session : Session σ) : Nat × Session σ :=
  session.submitAll <|
    Token.compounds (session.tokens .consonant .all) (session.tokens .vowel .all)
      session.settings.inherentVowel

end TranslitScheme.Session
