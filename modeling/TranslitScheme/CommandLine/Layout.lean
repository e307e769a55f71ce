import TranslitScheme.Report.Basic

/-!
# Terminal output

The texts that the commands print: diagnostics as they are found, the summary of a whole
run, the details of a compiled table, and failures with their causes.
-/

namespace TranslitScheme.CommandLine

/-- The name of the program. -/
def programName : String := "vstc"

/-- The version of the program. -/
def programVersion : String := "0.1.0"

/-- Lines of text, each with its line end. -/
def lines (texts : List String) : String := String.join (texts.map (· ++ "\n"))

/-- A diagnostic, followed by its location and expression when they are known. -/
def diagnosticLines (diagnostic : Diagnostic) : List String :=
  ("  [" ++ diagnostic.severity.label ++ "] " ++ diagnostic.code.name ++ ": " ++
      diagnostic.message) ::
    ((diagnostic.location.map fun location => "    at " ++ location.text).toList ++
      (diagnostic.expression.map fun expression => "    in \x60" ++ expression ++ "\x60").toList)

/-- A line across the terminal. -/
def rule : String := String.ofList (List.replicate 60 '=')

/-- The summary of a run. -/
def summaryLines (report : Report) : List String :=
  ["", rule, "Scheme Compilation Report", rule, "",
    "Version: " ++ report.version.text,
    "Timestamp: " ++ report.timestamp,
    "",
    "Summary:",
    "  Schemes compiled: " ++ toString report.summary.schemesCompiled,
    "  Tokens created:   " ++ toString report.summary.tokensCreated,
    "  Total diagnostics: " ++ toString report.summary.total,
    "  Errors:   " ++ toString report.summary.errors,
    "  Warnings: " ++ toString report.summary.warnings,
    "  Info:     " ++ toString report.summary.info,
    ""] ++
  (if report.diagnostics.isEmpty then ["✓ No issues found!"] else []) ++
  ["", rule]

/-- The details of a compiled table. -/
def detailsLines : Option Details → List String
  | none => ["  No scheme details"]
  | some details =>
    ["  Lang code    : " ++ details.languageCode,
      "  Identifier   : " ++ details.identifier,
      "  Display name : " ++ details.displayName,
      "  Author       : " ++ details.author,
      "  Compiled on  : " ++ details.compiledDate,
      "  Stable?      : " ++ (if details.isStable then "Yes" else "No")]

/-- Why a command fails: what it could not do, and the causes from the nearest to the last. -/
structure Failure where
  message : String
  causes : List String := []
  deriving DecidableEq, Repr, Inhabited

namespace Failure

/-- The causes of a failure, numbered when there are several. -/
def causeLines : List String → List String
  | [] => []
  | [cause] => ["", "Caused by:", "    " ++ cause]
  | causes =>
    "" :: "Caused by:" ::
      causes.mapIdx fun index cause => "    " ++ toString index ++ ": " ++ cause

/-- The text of a failure. -/
def text (failure : Failure) : String :=
  lines (("Error: " ++ failure.message) :: causeLines failure.causes)

end Failure

/-- The text that explains the commands and options. -/
def helpText : String := lines
  [programName ++ " - Compiler for transliteration schemes",
    "",
    "Usage: " ++ programName ++ " [OPTIONS] <COMMAND>",
    "",
    "Commands:",
    "  compile  Compile a scheme file, or every scheme under a directory",
    "  schemes  List the compiled tables in a directory",
    "  help     Print this message or the help of the given subcommand(s)",
    "",
    "Options:",
    "  -c, --config <CONFIG>  Path to config file (default: vstc.toml)",
    "  -v, --verbose          Enable verbose output",
    "  -h, --help             Print help",
    "  -V, --version          Print version"]

/-- The line that tells the version. -/
def versionText : String := lines [programName ++ " " ++ programVersion]

/-- The text for arguments that cannot be read. -/
def usageText (reason : String) : String := lines
  ["error: " ++ reason, "", "Usage: " ++ programName ++ " [OPTIONS] <COMMAND>", "",
    "For more information, try '--help'."]

end TranslitScheme.CommandLine
