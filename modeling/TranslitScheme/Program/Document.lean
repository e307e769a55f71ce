import TranslitScheme.Program.Basic
import TranslitScheme.Toml.Reader
import TranslitScheme.Toml.Record
import TranslitScheme.Toml.SpelledDate

/-!
# Scheme files as TOML

A scheme file has a table for the header and an array of steps. A step is a table that names
its operation in `op`, or an array that starts with that name; other entries are the fields
of the operation. Steps and what is in them are closed records, the header is an open one.
-/

namespace TranslitScheme

namespace Header

/-- The header that a TOML value stands for. -/
def ofToml? (value : Toml) : Option Header := do
  match ← value.slots? false
      ["language_code", "identifier", "display_name", "author", "stable"] with
  | [languageCode, identifier, displayName, author, stable] =>
    return {
      languageCode := ← Toml.optional Toml.asText? languageCode
      identifier := ← Toml.optional Toml.asText? identifier
      displayName := ← Toml.optional Toml.asText? displayName
      author := ← Toml.optional Toml.asText? author
      stable := ← Toml.optional Toml.asBool? stable }
  | _ => none

end Header

namespace Expansion

/-- The expansion with a given template whose source a TOML value describes. -/
def ofSource? (template : Value) (source : Toml) : Option Expansion := do
  match ← source.slots? true ["category", "list", "filter"] with
  | [category, list, filter] =>
    return {
      category := ← Toml.optional Toml.asText? category
      list := ← Toml.optional Toml.asText? list
      filter := ← Toml.optional Toml.asValue? filter
      template }
  | _ => none

/-- The expansion that a TOML value stands for. -/
def ofToml? (value : Toml) : Option Expansion := do
  match ← value.slots? true ["source", "template"] with
  | [some source, some template] => ofSource? (← template.asMappingValue?) source
  | _ => none

end Expansion

namespace Declaration

/-- The declaration that a TOML value stands for. -/
def ofToml? (value : Toml) : Option Declaration := do
  match ← value.slots? true ["priority", "accept_if", "tokens", "combine"] with
  | [priority, acceptIf, tokens, expansion] =>
    return {
      options := {
        priority := ← Toml.optional Toml.asValue? priority
        acceptIf := ← Toml.optional Toml.asValue? acceptIf }
      tokens := ← Toml.optional Toml.asMappingValue? tokens
      expansion := ← Toml.optional Expansion.ofToml? expansion }
  | _ => none

end Declaration

namespace Step

/-- The name of the operation of a step and a record of its fields. -/
def splitOperation? : Toml → Option (String × Toml)
  | .table entries => do
    let operation ← entries.lookup "op"
    let name ← operation.asText?
    return (name, .table (entries.filter fun entry => entry.1 ≠ "op"))
  | .arr (operation :: fields) => do
    let name ← operation.asText?
    return (name, .arr fields)
  | _ => none

/-- The only field of a step. -/
def onlyField? {α : Type} (name : String) (read : Toml → Option α) (fields : Toml) : Option α := do
  match ← fields.slots? true [name] with
  | [field] => Toml.required read field
  | _ => none

/-- A step without fields, which may be given others that are ignored. -/
def withoutFields? : Toml → Option Unit
  | .table _ => some ()
  | .arr [] => some ()
  | _ => none

/-- The step of an operation without nested steps. -/
def ofOperation? (name : String) (fields : Toml) : Option Step :=
  match name with
  | "joiner" => (onlyField? "tokens" Toml.asMappingValue? fields).map joiner
  | "non_joiner" => (onlyField? "tokens" Toml.asMappingValue? fields).map nonJoiner
  | "period" => (onlyField? "value" Toml.asValue? fields).map period
  | "stem_rules" => (onlyField? "tokens" Toml.asMappingValue? fields).map stemRules
  | "stem_exceptions" => (onlyField? "tokens" Toml.asMappingValue? fields).map stemExceptions
  | "generate_cv" => (withoutFields? fields).map fun _ => generateCompounds
  | "infer_dead_consonants" =>
    (onlyField? "enabled" Toml.asBool? fields).map inferDeadConsonants
  | "ignore_duplicates" => (onlyField? "enabled" Toml.asBool? fields).map ignoreDuplicates
  | name => do
    let part ← Section.ofName? name
    return declare part (← Declaration.ofToml? fields)

/-- The step that a TOML value stands for, when it is nested at most `bound` deep. -/
def ofToml? : Nat → Toml → Option Step
  | 0, _ => none
  | bound + 1, value => do
    let (name, fields) ← splitOperation? value
    match name with
    | "tag" =>
      match ← fields.slots? true ["name", "steps"] with
      | [name, steps] =>
        let name ← Toml.required Toml.asText? name
        let steps ← Toml.withDefault [] Toml.asList? steps
        return tag name (← steps.mapM (ofToml? bound))
      | _ => none
    | "list" =>
      match ← fields.slots? true ["names", "steps"] with
      | [names, steps] =>
        let names ← Toml.withDefault [] Toml.asList? names
        let steps ← Toml.withDefault [] Toml.asList? steps
        return list (← names.mapM Toml.asValue?) (← steps.mapM (ofToml? bound))
      | _ => none
    | name => ofOperation? name fields

/-- The steps that a TOML value stands for. -/
def listOfToml? (value : Toml) : Option (List Step) := do
  let items ← value.asList?
  items.mapM (ofToml? value.depth)

end Step

namespace Program

/-- The program that the entries of a document stand for. -/
def ofEntries? (entries : List (String × Toml)) : Option Program := do
  match ← (Toml.table entries).slots? false ["scheme", "step"] with
  | [header, steps] =>
    return {
      header := ← Toml.withDefault { } Header.ofToml? header
      steps := ← Toml.withDefault [] Step.listOfToml? steps }
  | _ => none

/-- The program in the text of a scheme file. -/
def parse? (text : String) : Option Program := (Toml.parse? text).bind ofEntries?

/-- What is wrong with a text that is not that of a scheme file. -/
def complaint (text : String) : String :=
  if (Toml.parse? text).isNone then "the text is not a TOML document"
  else "the document is not a scheme file"

end Program

end TranslitScheme
