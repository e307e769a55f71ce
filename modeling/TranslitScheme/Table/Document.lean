import TranslitScheme.Json.Printer
import TranslitScheme.Json.Reader
import TranslitScheme.Json.Record
import TranslitScheme.Table.Basic

/-!
# Tables as JSON

The stored form of a compiled table. A table without details leaves them out, and so it does
with stem rules and exceptions when there are none; the tokens are always written. Reading
gives back what was left out.
-/

namespace TranslitScheme

namespace Priority

/-- A priority as JSON: the name of a band, or an object with a raw value. -/
def toJson : Priority → Json
  | low => .str "low"
  | normal => .str "normal"
  | high => .str "high"
  | raw value => .obj [("raw", .int value.toInt)]

/-- The band of a given name. -/
def ofTableName? : String → Option Priority
  | "low" => some low
  | "normal" => some normal
  | "high" => some high
  | _ => none

/-- The priority that a JSON value stands for. -/
def ofJson? : Json → Option Priority := Json.asCaseOrRaw? ofTableName? raw

end Priority

namespace Acceptance

/-- A condition as JSON: its name, or an object with a raw code. -/
def toJson : Acceptance → Json
  | all => .str "all"
  | startsWith => .str "starts_with"
  | inBetween => .str "in_between"
  | endsWith => .str "ends_with"
  | raw code => .obj [("raw", .int code.toInt)]

/-- The condition of a given name. -/
def ofTableName? : String → Option Acceptance
  | "all" => some all
  | "starts_with" => some startsWith
  | "in_between" => some inBetween
  | "ends_with" => some endsWith
  | _ => none

/-- The condition that a JSON value stands for. -/
def ofJson? : Json → Option Acceptance := Json.asCaseOrRaw? ofTableName? raw

end Acceptance

namespace Token

/-- The names of the fields of a stored token. -/
def fieldNames : List String :=
  ["token_type", "pattern", "value1", "value2", "value3", "tag", "match_type", "priority",
    "accept_condition"]

/-- A token as JSON. -/
def toJson (token : Token) : Json :=
  .obj
    [("token_type", .str token.category.tableName),
      ("pattern", .str token.pattern),
      ("value1", .str token.value1),
      ("value2", .str token.value2),
      ("value3", .str token.value3),
      ("tag", .str token.tag),
      ("match_type", .str token.matching.tableName),
      ("priority", token.priority.toJson),
      ("accept_condition", token.acceptance.toJson)]

/-- The token that a JSON value stands for. -/
def ofJson? (value : Json) : Option Token := do
  match ← value.slots? fieldNames with
  | [category, pattern, value1, value2, value3, tag, matching, priority, acceptance] =>
    return {
      category := ← category.required (Json.asCase? Category.ofTableName?)
      pattern := ← pattern.required Json.asText?
      value1 := ← value1.required Json.asText?
      value2 := ← value2.withDefault "" Json.asText?
      value3 := ← value3.withDefault "" Json.asText?
      tag := ← tag.withDefault "" Json.asText?
      matching := ← matching.required (Json.asCase? Matching.ofTableName?)
      priority := ← priority.withDefault .normal Priority.ofJson?
      acceptance := ← acceptance.withDefault .all Acceptance.ofJson? }
  | _ => none

end Token

namespace Details

/-- The names of the fields of stored details. -/
def fieldNames : List String :=
  ["language_code", "identifier", "display_name", "author", "compiled_date", "is_stable"]

/-- Scheme details as JSON. -/
def toJson (details : Details) : Json :=
  .obj
    [("language_code", .str details.languageCode),
      ("identifier", .str details.identifier),
      ("display_name", .str details.displayName),
      ("author", .str details.author),
      ("compiled_date", .str details.compiledDate),
      ("is_stable", .bool details.isStable)]

/-- The scheme details that a JSON value stands for. -/
def ofJson? (value : Json) : Option Details := do
  match ← value.slots? fieldNames with
  | [languageCode, identifier, displayName, author, compiledDate, isStable] =>
    return {
      languageCode := ← languageCode.required Json.asText?
      identifier := ← identifier.required Json.asText?
      displayName := ← displayName.required Json.asText?
      author := ← author.required Json.asText?
      compiledDate := ← compiledDate.required Json.asText?
      isStable := ← isStable.required Json.asBool? }
  | _ => none

end Details

namespace StemRule

/-- A stem rule as JSON. -/
def toJson (rule : StemRule) : Json :=
  .obj [("old_ending", .str rule.oldEnding), ("new_ending", .str rule.newEnding)]

/-- The stem rule that a JSON value stands for. -/
def ofJson? (value : Json) : Option StemRule := do
  match ← value.slots? ["old_ending", "new_ending"] with
  | [oldEnding, newEnding] =>
    return {
      oldEnding := ← oldEnding.required Json.asText?
      newEnding := ← newEnding.required Json.asText? }
  | _ => none

end StemRule

namespace StemException

/-- A stem exception as JSON. -/
def toJson (exempt : StemException) : Json :=
  .obj [("rule", .str exempt.rule), ("exception", .str exempt.ending)]

/-- The stem exception that a JSON value stands for. -/
def ofJson? (value : Json) : Option StemException := do
  match ← value.slots? ["rule", "exception"] with
  | [rule, ending] =>
    return {
      rule := ← rule.required Json.asText?
      ending := ← ending.required Json.asText? }
  | _ => none

end StemException

namespace Table

/-- The member that a list becomes, which is left out when the list is empty. -/
def listMember {α : Type} (name : String) (write : α → Json) :
    List α → List (String × Json)
  | [] => []
  | items => [(name, .arr (items.map write))]

/-- A table as JSON. -/
def toJson (table : Table) : Json :=
  .obj
    ((table.details.map fun details => ("details", details.toJson)).toList ++
      ("tokens", .arr (table.tokens.map Token.toJson)) ::
        (listMember "stem_rules" StemRule.toJson table.stemRules ++
          listMember "stem_exceptions" StemException.toJson table.stemExceptions))

/-- The table that a JSON value stands for. -/
def ofJson? (value : Json) : Option Table := do
  match ← value.slots? ["details", "tokens", "stem_rules", "stem_exceptions"] with
  | [details, tokens, stemRules, stemExceptions] =>
    return {
      details := ← details.withDefault none fun value =>
        (Json.Slot.given value).optional Details.ofJson?
      tokens := ← tokens.withDefault [] (Json.asList? Token.ofJson?)
      stemRules := ← stemRules.withDefault [] (Json.asList? StemRule.ofJson?)
      stemExceptions := ← stemExceptions.withDefault [] (Json.asList? StemException.ofJson?) }
  | _ => none

/-- The text of a table, as it is stored. -/
def text (table : Table) : String := table.toJson.pretty

/-- The table that a stored text describes. -/
def parse? (text : String) : Option Table := (Json.parse? text).bind ofJson?

/-- What is wrong with a text that describes no table. -/
def complaint (text : String) : String :=
  if (Json.parse? text).isNone then "the text is not a JSON document"
  else "the document is not a compiled table"

end Table

end TranslitScheme
