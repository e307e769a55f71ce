import TranslitScheme.Report.Basic
import TranslitScheme.Table.Document

/-!
# Reports as JSON

The stored form of a report, and of the diagnostics in it. Counts are stored as 64-bit and
version numbers as 32-bit unsigned integers, so reading refuses larger ones.
-/

namespace TranslitScheme

namespace Location

/-- A location as JSON. -/
def toJson (location : Location) : Json :=
  .obj
    [("file", .str location.file),
      ("step", Json.ofOption (fun step : Nat => .int step) location.step)]

/-- The location that a JSON value stands for. -/
def ofJson? (value : Json) : Option Location := do
  match ← value.slots? ["file", "step"] with
  | [file, step] =>
    return {
      file := ← file.required Json.asText?
      step := ← step.optional (Json.asNat? countLimit) }
  | _ => none

end Location

namespace Diagnostic

/-- A diagnostic as JSON. -/
def toJson (diagnostic : Diagnostic) : Json :=
  .obj
    [("code", .str diagnostic.code.name),
      ("severity", .str diagnostic.severity.name),
      ("message", .str diagnostic.message),
      ("location", Json.ofOption Location.toJson diagnostic.location),
      ("expression", Json.ofOption Json.str diagnostic.expression)]

/-- The diagnostic that a JSON value stands for. -/
def ofJson? (value : Json) : Option Diagnostic := do
  match ← value.slots? ["code", "severity", "message", "location", "expression"] with
  | [code, severity, message, location, expression] =>
    return {
      code := ← code.required (Json.asCase? DiagnosticCode.ofName?)
      severity := ← severity.required (Json.asCase? Severity.ofName?)
      message := ← message.required Json.asText?
      location := ← location.optional Location.ofJson?
      expression := ← expression.optional Json.asText? }
  | _ => none

end Diagnostic

namespace ReportVersion

/-- A version as JSON. -/
def toJson (version : ReportVersion) : Json :=
  .obj [("major", .int version.major), ("minor", .int version.minor)]

/-- The version that a JSON value stands for. -/
def ofJson? (value : Json) : Option ReportVersion := do
  match ← value.slots? ["major", "minor"] with
  | [major, minor] =>
    return {
      major := ← major.required (Json.asNat? 4294967296)
      minor := ← minor.required (Json.asNat? 4294967296) }
  | _ => none

end ReportVersion

namespace Summary

/-- A summary as JSON. -/
def toJson (summary : Summary) : Json :=
  .obj
    [("total", .int summary.total),
      ("errors", .int summary.errors),
      ("warnings", .int summary.warnings),
      ("info", .int summary.info),
      ("tokens_created", .int summary.tokensCreated),
      ("schemes_compiled", .int summary.schemesCompiled)]

/-- The summary that a JSON value stands for. -/
def ofJson? (value : Json) : Option Summary := do
  match ← value.slots?
      ["total", "errors", "warnings", "info", "tokens_created", "schemes_compiled"] with
  | [total, errors, warnings, info, tokensCreated, schemesCompiled] =>
    return {
      total := ← total.required (Json.asNat? countLimit)
      errors := ← errors.required (Json.asNat? countLimit)
      warnings := ← warnings.required (Json.asNat? countLimit)
      info := ← info.required (Json.asNat? countLimit)
      tokensCreated := ← tokensCreated.required (Json.asNat? countLimit)
      schemesCompiled := ← schemesCompiled.required (Json.asNat? countLimit) }
  | _ => none

end Summary

namespace Report

/-- A report as JSON. The schemes are left out when there are none. -/
def toJson (report : Report) : Json :=
  .obj
    ([("version", report.version.toJson),
      ("timestamp", .str report.timestamp),
      ("summary", report.summary.toJson),
      ("diagnostics", .arr (report.diagnostics.map Diagnostic.toJson))] ++
      Table.listMember "schemes" Details.toJson report.schemes)

/-- The report that a JSON value stands for. -/
def ofJson? (value : Json) : Option Report := do
  match ← value.slots? ["version", "timestamp", "summary", "diagnostics", "schemes"] with
  | [version, timestamp, summary, diagnostics, schemes] =>
    return {
      version := ← version.required ReportVersion.ofJson?
      timestamp := ← timestamp.required Json.asText?
      summary := ← summary.required Summary.ofJson?
      diagnostics := ← diagnostics.required (Json.asList? Diagnostic.ofJson?)
      schemes := ← schemes.withDefault [] (Json.asList? Details.ofJson?) }
  | _ => none

/-- The text of a report, as it is stored. -/
def text (report : Report) : String := report.toJson.pretty

/-- The report that a stored text describes. -/
def parse? (text : String) : Option Report := (Json.parse? text).bind ofJson?

end Report

end TranslitScheme
