import TranslitScheme.Report.Basic

/-!
# Reports as Markdown

The readable form of a report: a summary list, a table of the schemes when there are any,
and one section for each diagnostic. Texts are inserted as they are, without escaping.
-/

namespace TranslitScheme.Report

/-- The sign in front of a diagnostic's heading. -/
def severitySign : Severity → String
  | .error => "❌"
  | .warn => "⚠️"
  | .info => "ℹ️"

/-- One labelled line, followed by a blank one. -/
def paragraph (label value : String) : String := "**" ++ label ++ ":** " ++ value ++ "\n\n"

/-- One entry of the summary list. -/
def summaryItem (label : String) (count : Nat) : String :=
  "- " ++ label ++ ": " ++ toString count ++ "\n"

/-- One row of the table of schemes. -/
def schemeRow (details : Details) : String :=
  "| " ++ details.identifier ++ " | " ++ details.languageCode ++ " | " ++ details.displayName ++
    " | " ++ (if details.isStable then "yes" else "no") ++ " |\n"

/-- The table of schemes, left out when there are none. -/
def schemeTable : List Details → String
  | [] => ""
  | schemes =>
    "## Schemes\n\n| Identifier | Language | Display name | Stable |\n|---|---|---|---|\n" ++
      String.join (schemes.map schemeRow) ++ "\n"

/-- The section of one diagnostic. -/
def diagnosticSection (diagnostic : Diagnostic) : String :=
  let heading := "### " ++ severitySign diagnostic.severity ++ " " ++ diagnostic.severity.name ++
    " - " ++ diagnostic.code.name ++ "\n\n"
  let location := match diagnostic.location with
    | some location => paragraph "Location" location.text
    | none => ""
  let expression := match diagnostic.expression with
    | some expression => paragraph "Expression" ("\x60" ++ expression ++ "\x60")
    | none => ""
  heading ++ diagnostic.message ++ "\n\n" ++ location ++ expression

/-- The sections of all diagnostics, or a line saying that there are none. -/
def diagnosticSections : List Diagnostic → String
  | [] => "✅ **No issues found!**\n"
  | diagnostics => "## Diagnostics\n\n" ++ String.join (diagnostics.map diagnosticSection)

/-- The Markdown text of a report. -/
def markdown (report : Report) : String :=
  "# Scheme Compilation Report\n\n" ++
  paragraph "Version" report.version.text ++
  paragraph "Timestamp" report.timestamp ++
  "## Summary\n\n" ++
  summaryItem "Schemes compiled" report.summary.schemesCompiled ++
  summaryItem "Tokens created" report.summary.tokensCreated ++
  summaryItem "Total diagnostics" report.summary.total ++
  summaryItem "Errors" report.summary.errors ++
  summaryItem "Warnings" report.summary.warnings ++
  summaryItem "Info" report.summary.info ++
  "\n" ++
  schemeTable report.schemes ++
  diagnosticSections report.diagnostics

end TranslitScheme.Report
