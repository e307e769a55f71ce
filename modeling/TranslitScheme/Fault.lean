import TranslitScheme.Diagnostic.Journal

/-!
# Faults

A fault is a misuse of a scheme operation that stops a compilation, unlike the findings
about single pairs and tokens, which are recorded and passed over. Every fault is recorded
as an error under its own code before it is handed back.
-/

namespace TranslitScheme

/-- A misuse of a scheme operation. -/
inductive Fault where
  | notAMapping (kindName : String)
  | invalidPriority (setting : String)
  | invalidAccept (setting : String)
  | nestedList
  | unnamedList
  | invalidListName (kindName : String)
  | unknownList (name : String)
  | viramaNotSet
  deriving DecidableEq, Repr, Inhabited

namespace Fault

/-- The code under which a fault is recorded. -/
def code : Fault → DiagnosticCode
  | notAMapping _ => .shapeNotAMapping
  | invalidPriority _ => .optionInvalidPriority
  | invalidAccept _ => .optionInvalidAccept
  | nestedList => .listNested
  | unnamedList => .listUnnamed
  | invalidListName _ => .listInvalidName
  | unknownList _ => .listUnknown
  | viramaNotSet => .viramaNotSet

/-- The message of a fault. -/
def message : Fault → String
  | notAMapping kindName => "Expected a mapping of pattern => value, but got a " ++ kindName
  | invalidPriority setting =>
    "priority should be normal, low, high or a number, but got " ++ setting
  | invalidAccept setting =>
    "accept_if should be all, starts_with, in_between, ends_with or a number, but got " ++ setting
  | nestedList => "Can't create nested list"
  | unnamedList => "List should have a name"
  | invalidListName kindName => "List name should be a string, but got a " ++ kindName
  | unknownList name => "No list named '" ++ name ++ "'"
  | viramaNotSet => "Virama is not set"

/-- The finding that a fault is recorded as. -/
def finding (fault : Fault) : Finding := ⟨fault.code, .error, fault.message⟩

end Fault

end TranslitScheme
