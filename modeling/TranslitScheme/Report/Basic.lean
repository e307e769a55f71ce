import TranslitScheme.Token.Basic
import TranslitScheme.Diagnostic.Basic

/-!
# Compilation reports

A report holds the diagnostics of one or several compilations, the details of the compiled
schemes, and a summary. The summary is kept up to date diagnostic by diagnostic, and merging
recounts what it takes over, so the counts by severity do not depend on the summary that a
merged report carries.

Counts are unsigned 64-bit integers. Those by severity cannot be more than there are diagnostics,
but the others are taken over as they are stated, and adding them wraps around.
-/

namespace TranslitScheme

/-- Counts are below this limit. -/
def countLimit : Nat := 18446744073709551616

/-- The version of the report format. -/
structure ReportVersion where
  major : Nat := 1
  minor : Nat := 0
  deriving DecidableEq, Repr, Inhabited

namespace ReportVersion

/-- The format that this library writes. -/
def current : ReportVersion := { }

/-- Major and minor number with a point between them. -/
def text (version : ReportVersion) : String :=
  toString version.major ++ "." ++ toString version.minor

end ReportVersion

/-- The counts at the head of a report. -/
structure Summary where
  total : Nat := 0
  errors : Nat := 0
  warnings : Nat := 0
  info : Nat := 0
  tokensCreated : Nat := 0
  schemesCompiled : Nat := 0
  deriving DecidableEq, Repr, Inhabited

namespace Summary

/-- Count one more diagnostic of a given severity. -/
def count (summary : Summary) (severity : Severity) : Summary :=
  let counted := { summary with total := summary.total + 1 }
  match severity with
  | .error => { counted with errors := summary.errors + 1 }
  | .warn => { counted with warnings := summary.warnings + 1 }
  | .info => { counted with info := summary.info + 1 }

end Summary

/-- Diagnostics, scheme details and counts of one or several compilations. -/
structure Report where
  version : ReportVersion := .current
  timestamp : String
  summary : Summary := { }
  diagnostics : List Diagnostic := []
  schemes : List Details := []
  deriving DecidableEq, Repr, Inhabited

namespace Report

/-- A report of nothing, made at a given time. -/
def empty (now : String) : Report where
  timestamp := now

/-- Append a diagnostic and count it. -/
def add (report : Report) (diagnostic : Diagnostic) : Report :=
  { report with
    summary := report.summary.count diagnostic.severity
    diagnostics := report.diagnostics ++ [diagnostic] }

/-- Append diagnostics in order. -/
def addAll (report : Report) (diagnostics : List Diagnostic) : Report :=
  diagnostics.foldl add report

/-- The report of some diagnostics. -/
def ofDiagnostics (now : String) (diagnostics : List Diagnostic) : Report :=
  (empty now).addAll diagnostics

/-- Take over the diagnostics, schemes and totals of another report.

The diagnostics are counted anew; the numbers of tokens and schemes are added as stated, and wrap
around at the limit of counts. -/
def merge (report other : Report) : Report :=
  let joined : Report :=
    { report with
      summary :=
        { report.summary with
          tokensCreated :=
            (report.summary.tokensCreated + other.summary.tokensCreated) % countLimit
          schemesCompiled :=
            (report.summary.schemesCompiled + other.summary.schemesCompiled) % countLimit }
      schemes := report.schemes ++ other.schemes }
  joined.addAll other.diagnostics

/-- At least one error has been counted. -/
def hasErrors (report : Report) : Bool := decide (0 < report.summary.errors)

/-- Adding appends to the diagnostics. -/
@[simp] theorem diagnostics_add (report : Report) (diagnostic : Diagnostic) :
    (report.add diagnostic).diagnostics = report.diagnostics ++ [diagnostic] := rfl

/-- Adding several diagnostics appends them all. -/
@[simp] theorem diagnostics_addAll (report : Report) (diagnostics : List Diagnostic) :
    (report.addAll diagnostics).diagnostics = report.diagnostics ++ diagnostics := by
  induction diagnostics generalizing report with
  | nil => simp [addAll]
  | cons diagnostic rest ih =>
    have hstep : report.addAll (diagnostic :: rest) = (report.add diagnostic).addAll rest := rfl
    rw [hstep, ih, diagnostics_add, List.append_assoc, List.singleton_append]

end Report

end TranslitScheme
