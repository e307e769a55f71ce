import TranslitScheme.Value.Basic

/-!
# TOML values

The values of a TOML document. Tables keep their entries in the order of the document. What
a floating point number or a date says is of no interest to a scheme, so only their kind is
kept.

A value becomes a scheme value as it is, except where a mapping is meant: since the keys of
a table are strings, an array of pairs may stand for a mapping with other keys.
-/

namespace TranslitScheme

/-- A TOML value. -/
inductive Toml where
  | str (text : String)
  | int (number : Int)
  | float
  | bool (flag : Bool)
  | date
  | arr (items : List Toml)
  | table (entries : List (String × Toml))
  deriving Repr, Inhabited

namespace Toml

mutual

/-- The scheme value that a TOML value stands for. -/
def toValue : Toml → Value
  | str text => .str text
  | int number => .int number
  | float => .other "float"
  | bool flag => .bool flag
  | date => .other "datetime"
  | arr items => .list (toValues items)
  | table entries => .map (toPairs entries)

/-- The scheme values of the elements of an array. -/
def toValues : List Toml → List Value
  | [] => []
  | item :: rest => toValue item :: toValues rest

/-- The pairs that the entries of a table stand for. -/
def toPairs : List (String × Toml) → List (Value × Value)
  | [] => []
  | (key, value) :: rest => (.str key, toValue value) :: toPairs rest

end

/-- The pairs that an array stands for, if all its elements are arrays of two elements. -/
def pairs? : List Toml → Option (List (Value × Value))
  | [] => some []
  | arr [key, value] :: rest => (pairs? rest).map ((key.toValue, value.toValue) :: ·)
  | _ => none

/-- The scheme value of a TOML value that is meant to be a mapping. -/
def toMappingValue : Toml → Value
  | arr items =>
    match pairs? items with
    | some pairs => .map pairs
    | none => .list (toValues items)
  | value => value.toValue

mutual

/-- How deeply a value is nested. -/
def depth : Toml → Nat
  | arr items => depthItems items + 1
  | table entries => depthEntries entries + 1
  | _ => 1

/-- The greatest depth of the elements of an array. -/
def depthItems : List Toml → Nat
  | [] => 0
  | item :: rest => max (depth item) (depthItems rest)

/-- The greatest depth of the entries of a table. -/
def depthEntries : List (String × Toml) → Nat
  | [] => 0
  | (_, value) :: rest => max (depth value) (depthEntries rest)

end

end Toml

end TranslitScheme
