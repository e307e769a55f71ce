/-!
# Diagnostics

A diagnostic is a finding about a scheme: a stable code, a severity, a message, and when
they are known the place in the scheme and the `pattern => value` expression at fault.

Codes are part of the report format, so each one has a fixed text and each text names at
most one code.
-/

namespace TranslitScheme

/-- How much a diagnostic matters. -/
inductive Severity where
  | info
  | warn
  | error
  deriving DecidableEq, Repr, Inhabited

namespace Severity

/-- The lower-case name of a severity, in reports and settings. -/
def name : Severity → String
  | info => "info"
  | warn => "warn"
  | error => "error"

/-- The upper-case name of a severity, on the terminal. -/
def label : Severity → String
  | info => "INFO"
  | warn => "WARN"
  | error => "ERROR"

/-- The severity with a given lower-case name. -/
def ofName? : String → Option Severity
  | "info" => some info
  | "warn" => some warn
  | "error" => some error
  | _ => none

/-- A name leads back to its severity. -/
theorem ofName?_name (severity : Severity) : ofName? severity.name = some severity := by
  cases severity <;> rfl

end Severity

/-- The stable identity of a kind of diagnostic. -/
inductive DiagnosticCode where
  | shapeNotAMapping
  | shapeInvalidType
  | shapeEmptySequence
  | shapeEmptyValue
  | shapeExtraValues
  | optionInvalidPriority
  | optionInvalidAccept
  | listNested
  | listUnnamed
  | listInvalidName
  | listUnknown
  | viramaNotSet
  | sinkRejected
  | sinkFailure
  | schemeStructure
  | info
  | warning
  deriving DecidableEq, Repr, Inhabited

namespace DiagnosticCode

/-- All codes. -/
def all : List DiagnosticCode :=
  [shapeNotAMapping, shapeInvalidType, shapeEmptySequence, shapeEmptyValue, shapeExtraValues,
    optionInvalidPriority, optionInvalidAccept, listNested, listUnnamed, listInvalidName,
    listUnknown, viramaNotSet, sinkRejected, sinkFailure, schemeStructure, info, warning]

/-- The text of a code, in reports and settings. -/
def name : DiagnosticCode → String
  | shapeNotAMapping => "SHAPE_NOT_A_MAPPING"
  | shapeInvalidType => "SHAPE_INVALID_TYPE"
  | shapeEmptySequence => "SHAPE_EMPTY_SEQUENCE"
  | shapeEmptyValue => "SHAPE_EMPTY_VALUE"
  | shapeExtraValues => "SHAPE_EXTRA_VALUES"
  | optionInvalidPriority => "OPTION_INVALID_PRIORITY"
  | optionInvalidAccept => "OPTION_INVALID_ACCEPT"
  | listNested => "LIST_NESTED"
  | listUnnamed => "LIST_UNNAMED"
  | listInvalidName => "LIST_INVALID_NAME"
  | listUnknown => "LIST_UNKNOWN"
  | viramaNotSet => "VIRAMA_NOT_SET"
  | sinkRejected => "SINK_REJECTED"
  | sinkFailure => "SINK_FAILURE"
  | schemeStructure => "SCHEME_STRUCTURE"
  | info => "INFO"
  | warning => "WARNING"

/-- The code with a given text. -/
def ofName? (text : String) : Option DiagnosticCode :=
  all.find? fun code => code.name == text

/-- A text leads back to its code. -/
theorem ofName?_name (code : DiagnosticCode) : ofName? code.name = some code := by
  cases code <;> decide

end DiagnosticCode

/-- A place in a scheme file: the whole file or one of its top-level steps, counted from one. -/
structure Location where
  file : String
  step : Option Nat := none
  deriving DecidableEq, Repr, Inhabited

namespace Location

/-- The text of a place, with the step in parentheses when it is known. -/
def text (location : Location) : String :=
  match location.step with
  | some step => location.file ++ " (step " ++ toString step ++ ")"
  | none => location.file

end Location

/-- A finding about a scheme. -/
structure Diagnostic where
  code : DiagnosticCode
  severity : Severity
  message : String
  location : Option Location := none
  expression : Option String := none
  deriving DecidableEq, Repr, Inhabited

namespace Diagnostic

/-- The message, followed by the expression at fault when there is one. -/
def text (diagnostic : Diagnostic) : String :=
  match diagnostic.expression with
  | some expression => diagnostic.message ++ " (in \x60" ++ expression ++ "\x60)"
  | none => diagnostic.message

/-- How many diagnostics have a given severity. -/
def count (severity : Severity) (diagnostics : List Diagnostic) : Nat :=
  diagnostics.countP fun diagnostic => diagnostic.severity == severity

/-- The texts of all diagnostics of a given severity, in order. -/
def texts (severity : Severity) (diagnostics : List Diagnostic) : List String :=
  (diagnostics.filter fun diagnostic => diagnostic.severity == severity).map text

end Diagnostic

end TranslitScheme
