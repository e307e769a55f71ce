import TranslitScheme.Table.Basic

/-!
# Token sinks

A sink is the storage side of a compilation: it takes tokens, stem rules and details one by
one and may refuse any of them. Every operation hands back the sink, also when it fails, so
that what a failure leaves behind can be told.
-/

namespace TranslitScheme

/-- Why a sink refuses something. -/
inductive SinkError where
  | rejected (reason : String)
  | duplicate (pattern value : String)
  | tooLong (limit : Nat)
  | viramaMissing
  | storage (reason : String)
  | invalidDetails (reason : String)
  deriving DecidableEq, Repr, Inhabited

namespace SinkError

/-- The message of a refusal. -/
def message : SinkError → String
  | rejected reason => reason
  | duplicate pattern value => "Duplicate token: " ++ pattern ++ " => " ++ value
  | tooLong limit =>
    "Length of pattern, tag, value1, value2 or value3 should be less than " ++ toString limit
  | viramaMissing => "Virama needs to be set before auto generating dead consonants"
  | storage reason => "Storage error: " ++ reason
  | invalidDetails reason => "Invalid scheme details: " ++ reason

end SinkError

/-- A switch of a sink that a scheme may set. -/
inductive SinkOption where
  | inferDeadConsonants (enabled : Bool)
  | ignoreDuplicates (enabled : Bool)
  | inherentVowel (letter : Char)
  deriving DecidableEq, Repr, Inhabited

/-- What a compilation asks of the storage it writes to. -/
class TokenSink (σ : Type) where
  /-- Store a token, and any token derived from it. -/
  createToken : σ → Token → Except SinkError Unit × σ
  /-- Write out what has been stored. -/
  flush : σ → Except SinkError Unit × σ
  /-- All tokens of a category, derived ones included. -/
  tokensOf : σ → Category → Except SinkError (List Token)
  /-- Store the scheme details. -/
  setDetails : σ → Details → Except SinkError Unit × σ
  /-- Store a stem rule. -/
  createStemRule : σ → StemRule → Except SinkError Unit × σ
  /-- Store a stem exception. -/
  createStemException : σ → StemException → Except SinkError Unit × σ
  /-- Set a switch. -/
  configure : σ → SinkOption → Except SinkError Unit × σ

end TranslitScheme
