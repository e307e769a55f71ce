import TranslitScheme.Toml.Basic

/-!
# Records in TOML

A record is written as a table and may also be given as an array of its fields in order.
Unknown entries are ignored. Whether an array may have more elements than the record has
fields depends on where the record stands. A date is taken for a record that says nothing
about any of its fields.
-/

namespace TranslitScheme.Toml

/-- What a value says about the fields of a record, in the order of their names.

A `closed` record refuses an array with more elements than fields. -/
def slots? (closed : Bool) (names : List String) : Toml → Option (List (Option Toml))
  | table entries => some (names.map fun name => entries.lookup name)
  | arr items =>
    if closed && decide (names.length < items.length) then none
    else some ((List.range names.length).map fun index => items[index]?)
  | date => some (names.map fun _ => none)
  | _ => none

/-- The text of a string. -/
def asText? : Toml → Option String
  | str text => some text
  | _ => none

/-- The flag of a boolean. -/
def asBool? : Toml → Option Bool
  | bool flag => some flag
  | _ => none

/-- The character of a string that holds just one. -/
def asChar? : Toml → Option Char
  | str text =>
    match text.toList with
    | [c] => some c
    | _ => none
  | _ => none

/-- The elements of an array. -/
def asList? : Toml → Option (List Toml)
  | arr items => some items
  | _ => none

/-- A field that may be left out. -/
def optional {α : Type} (read : Toml → Option α) : Option Toml → Option (Option α)
  | none => some none
  | some value => (read value).map some

/-- A field that has a default. -/
def withDefault {α : Type} (usual : α) (read : Toml → Option α) : Option Toml → Option α
  | none => some usual
  | some value => read value

/-- A field that must be given. -/
def required {α : Type} (read : Toml → Option α) : Option Toml → Option α
  | none => none
  | some value => read value

end TranslitScheme.Toml
