import TranslitScheme.Toml.Reader

/-!
# Dates spelled as tables

Where a value of any kind is taken, a table may spell a date: its first key is reserved for
that, and the text under it must be a date or a time. A table that starts with the reserved
key and spells no date is refused. Where a record is taken the key means nothing.

A table that spells a date may have further entries, which are not looked at, unless values
are taken as closed.
-/

namespace TranslitScheme.Toml

/-- The key of a table that spells a date. -/
def dateKey : String := "$__toml_private_datetime"

/-- The entries of a table are meant to spell a date. -/
def startsWithDateKey : List (String × Toml) → Bool
  | [] => false
  | (key, _) :: _ => key == dateKey

/-- The date that entries under the reserved key spell. -/
def spelledDate? (closed : Bool) : List (String × Toml) → Option Toml
  | (_, str text) :: rest =>
    if isMoment text.toList && (rest.isEmpty || !closed) then some date else none
  | _ => none

mutual

/-- A value with dates in place of the tables that spell them. -/
def settled? (closed : Bool) : Toml → Option Toml
  | arr items => (settledItems? closed items).map arr
  | table entries =>
    if startsWithDateKey entries then spelledDate? closed entries
    else (settledEntries? closed entries).map table
  | value => some value

/-- Elements with dates in place of the tables that spell them. -/
def settledItems? (closed : Bool) : List Toml → Option (List Toml)
  | [] => some []
  | item :: rest => do return (← settled? closed item) :: (← settledItems? closed rest)

/-- Entries with dates in place of the tables that spell them. -/
def settledEntries? (closed : Bool) : List (String × Toml) → Option (List (String × Toml))
  | [] => some []
  | (key, value) :: rest => do
    return (key, ← settled? closed value) :: (← settledEntries? closed rest)

end

/-- The entries of a document whose values are of any kind. -/
def parseValues? (text : String) : Option (List (String × Toml)) :=
  (parse? text).bind (settledEntries? false)

/-- The scheme value that a value taken as closed stands for. -/
def asValue? (value : Toml) : Option Value := (settled? true value).map toValue

/-- The scheme value that a value taken as closed stands for where a mapping is meant. -/
def asMappingValue? (value : Toml) : Option Value := (settled? true value).map toMappingValue

end TranslitScheme.Toml
