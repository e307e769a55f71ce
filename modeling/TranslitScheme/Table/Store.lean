import TranslitScheme.Table.Sink
import TranslitScheme.Derivation.Compound
import TranslitScheme.Text.Replacement

/-!
# The token store

The sink that keeps a table in memory. Accepted tokens wait in a buffer until they are
flushed. The store limits the length of texts, finds duplicates, derives the dead form of
consonants that show the inherent vowel, and gives joiners their zero-width values.

A consonant and its dead form are stored together: when the consonant is refused after its
dead form was buffered, the buffer is cut back to where it was.
-/

namespace TranslitScheme

/-- A table under construction, with the switches that govern it. -/
structure TokenStore where
  flushed : List Token := []
  buffer : List Token := []
  stemRules : List StemRule := []
  stemExceptions : List StemException := []
  details : Option Details := none
  infersDeadConsonants : Bool := false
  ignoresDuplicates : Bool := true
  inherentVowel : Char := 'a'
  rejections : List (String × String) := []
  failsFlush : Bool := false
  deriving DecidableEq, Repr, Inhabited

namespace Token

/-- The longest text that is stored, in UTF-8 bytes. -/
def maxBytes : Nat := 30

/-- The value of every non-joiner. -/
def zeroWidthNonJoiner : String := "\u200c"

/-- The value of every joiner. -/
def zeroWidthJoiner : String := "\u200d"

/-- No text of a token is too long to be stored. -/
def fits (token : Token) : Bool :=
  [token.pattern, token.value1, token.value2, token.value3, token.tag].all fun text =>
    decide (text.utf8ByteSize ≤ maxBytes)

/-- Two tokens are the same entry when category, pattern and first value agree. -/
def sameEntry (a b : Token) : Bool :=
  a.category == b.category && a.pattern == b.pattern && a.value1 == b.value1

/-- The dead form of a consonant: the inherent vowel is dropped and the virama is written. -/
def deadForm (consonant : Token) (virama : String) : Token :=
  { consonant with
    category := .deadConsonant
    pattern := Pattern.withoutLast consonant.pattern
    value1 := consonant.value1 ++ virama
    value2 := if consonant.value2 = "" then "" else consonant.value2 ++ virama }

/-- Joiners and non-joiners have zero-width values whatever was declared for them. -/
def withZeroWidth (token : Token) : Token :=
  match token.category with
  | .nonJoiner => { token with value1 := zeroWidthNonJoiner, value2 := zeroWidthNonJoiner }
  | .joiner => { token with value1 := zeroWidthJoiner, value2 := zeroWidthJoiner }
  | _ => token

end Token

namespace TokenStore

/-- The name under which this kind of sink is known. -/
def name : String := "memory"

/-- A store that holds a table, with all switches as in a new store. -/
def ofTable (table : Table) : TokenStore where
  flushed := table.tokens
  stemRules := table.stemRules
  stemExceptions := table.stemExceptions
  details := table.details

/-- Refuse every token of a given pattern, for a given reason. -/
def withRejection (store : TokenStore) (pattern reason : String) : TokenStore :=
  { store with rejections := (pattern, reason) :: store.rejections }

/-- Fail every flush. -/
def withFlushFailure (store : TokenStore) : TokenStore := { store with failsFlush := true }

/-- All tokens, flushed ones before buffered ones. -/
def stored (store : TokenStore) : List Token := store.flushed ++ store.buffer

/-- The table of what has been flushed. -/
def toTable (store : TokenStore) : Table where
  details := store.details
  tokens := store.flushed
  stemRules := store.stemRules
  stemExceptions := store.stemExceptions

/-- The first virama. -/
def virama? (store : TokenStore) : Option Token :=
  store.stored.find? fun token => token.category == .virama

/-- Buffer a token unless the same entry is stored already. -/
def keep (store : TokenStore) (token : Token) : Except SinkError Unit × TokenStore :=
  if store.stored.any fun other => other.sameEntry token then
    if store.ignoresDuplicates then (.ok (), store)
    else (.error (.duplicate token.pattern token.value1), store)
  else (.ok (), { store with buffer := store.buffer ++ [token] })

/-- Refuse a token by its pattern, for a blank text or for its length. -/
def inspect (store : TokenStore) (token : Token) : Except SinkError Unit :=
  match store.rejections.lookup token.pattern with
  | some reason => .error (.rejected reason)
  | none =>
    if token.pattern = "" ∨ token.value1 = "" then
      .error (.rejected "pattern and value1 are required")
    else if token.fits then .ok ()
    else .error (.tooLong Token.maxBytes)

/-- What is to be stored for a consonant: its dead form if it has one, and the token itself.

A consonant whose value ends in the virama is a dead consonant already. -/
def deadForms (store : TokenStore) (token : Token) : Except SinkError (Option Token × Token) :=
  match store.virama? with
  | none => .error .viramaMissing
  | some virama =>
    if Text.endsWith token.value1 virama.value1 then
      .ok (none, { token with category := .deadConsonant })
    else if Pattern.hasInherentVowel token.pattern store.inherentVowel then
      let dead := token.deadForm virama.value1
      if dead.fits then .ok (some dead, token) else .error (.tooLong Token.maxBytes)
    else .ok (none, token)

/-- What is to be stored for a token: a derived token if there is one, and the token itself. -/
def forms (store : TokenStore) (token : Token) : Except SinkError (Option Token × Token) :=
  if token.category = .consonant ∧ store.infersDeadConsonants then
    (store.deadForms token).map fun forms => (forms.1, forms.2.withZeroWidth)
  else .ok (none, token.withZeroWidth)

/-- Buffer a derived token, if there is one. -/
def keepDerived (store : TokenStore) : Option Token → Except SinkError Unit × TokenStore
  | none => (.ok (), store)
  | some derived => store.keep derived

/-- Store a token together with the token derived from it, or neither. -/
def createToken (store : TokenStore) (token : Token) : Except SinkError Unit × TokenStore :=
  match store.inspect token with
  | .error refusal => (.error refusal, store)
  | .ok () =>
    match store.forms token with
    | .error refusal => (.error refusal, store)
    | .ok (derived, token) =>
      match store.keepDerived derived with
      | (.error refusal, kept) => (.error refusal, kept)
      | (.ok (), kept) =>
        match kept.keep token with
        | (.error refusal, kept) =>
          (.error refusal, { kept with buffer := kept.buffer.take store.buffer.length })
        | (.ok (), kept) => (.ok (), kept)

/-- Move the buffer behind the flushed tokens. -/
def flush (store : TokenStore) : Except SinkError Unit × TokenStore :=
  if store.failsFlush then (.error (.storage "Simulated flush failure"), store)
  else (.ok (), { store with flushed := store.flushed ++ store.buffer, buffer := [] })

/-- All tokens of a category, in the order in which they were stored. -/
def tokensOf (store : TokenStore) (category : Category) : List Token :=
  store.stored.filter fun token => token.category == category

/-- Store scheme details, which need a language code and an identifier. -/
def setDetails (store : TokenStore) (details : Details) : Except SinkError Unit × TokenStore :=
  if details.languageCode = "" then (.error (.invalidDetails "language code is required"), store)
  else if details.identifier = "" then (.error (.invalidDetails "identifier is required"), store)
  else (.ok (), { store with details := some details })

/-- Store a stem rule, whose endings must not be blank. -/
def createStemRule (store : TokenStore) (rule : StemRule) : Except SinkError Unit × TokenStore :=
  if rule.oldEnding = "" ∨ rule.newEnding = "" then
    (.error (.rejected "No ending supplied"), store)
  else (.ok (), { store with stemRules := store.stemRules ++ [rule] })

/-- Store a stem exception, whose texts must not be blank. -/
def createStemException (store : TokenStore) (exempt : StemException) :
    Except SinkError Unit × TokenStore :=
  if exempt.rule = "" then (.error (.rejected "No rule"), store)
  else if exempt.ending = "" then (.error (.rejected "Invalid exception supplied"), store)
  else (.ok (), { store with stemExceptions := store.stemExceptions ++ [exempt] })

/-- Set a switch. -/
def configure (store : TokenStore) : SinkOption → TokenStore
  | .inferDeadConsonants enabled => { store with infersDeadConsonants := enabled }
  | .ignoreDuplicates enabled => { store with ignoresDuplicates := enabled }
  | .inherentVowel letter => { store with inherentVowel := letter }

instance : TokenSink TokenStore where
  createToken := createToken
  flush := flush
  tokensOf store category := .ok (store.tokensOf category)
  setDetails := setDetails
  createStemRule := createStemRule
  createStemException := createStemException
  configure store option := (.ok (), store.configure option)

end TokenStore

end TranslitScheme
