import TranslitScheme.Json.Basic
import TranslitScheme.Value.Setting

/-!
# Records in JSON

A record is written as an object and may also be given as an array of its fields in order.
In an object the order of the members is free, unknown members are ignored, and a field must
not be given twice. In an array no field may be skipped, and there may be no more elements
than fields.
-/

namespace TranslitScheme.Json

/-- What a record says about one field. -/
inductive Slot where
  /-- The field has this value. -/
  | given (value : Json)
  /-- The object has no such member. -/
  | missing
  /-- The array ends before this field. -/
  | cut
  deriving Repr, Inhabited

/-- What the members of an object say about a field, unless it is given twice. -/
def memberSlot? (members : List (String × Json)) (name : String) : Option Slot :=
  match members.filter fun member => member.1 == name with
  | [] => some .missing
  | [member] => some (.given member.2)
  | _ => none

/-- What a value says about the fields of a record, in the order of their names. -/
def slots? (names : List String) : Json → Option (List Slot)
  | obj members => names.mapM (memberSlot? members)
  | arr items =>
    if items.length ≤ names.length then
      some (items.map Slot.given ++ List.replicate (names.length - items.length) .cut)
    else none
  | _ => none

namespace Slot

variable {α : Type}

/-- A field that must be given. -/
def required (read : Json → Option α) : Slot → Option α
  | given value => read value
  | _ => none

/-- A field that has a default. -/
def withDefault (usual : α) (read : Json → Option α) : Slot → Option α
  | given value => read value
  | _ => some usual

/-- A field that may be `null`, and may be left out of an object. -/
def optional (read : Json → Option α) : Slot → Option (Option α)
  | given null => some none
  | given value => (read value).map some
  | missing => some none
  | cut => none

end Slot

/-- The text of a string. -/
def asText? : Json → Option String
  | str text => some text
  | _ => none

/-- The flag of a boolean. -/
def asBool? : Json → Option Bool
  | bool flag => some flag
  | _ => none

/-- A natural number below a limit. -/
def asNat? (limit : Nat) : Json → Option Nat
  | int (.ofNat number) => if number < limit then some number else none
  | _ => none

/-- An engine code. -/
def asEngineCode? : Json → Option Int32
  | int number => Value.engineCode? number
  | _ => none

/-- The elements of an array, each read alike. -/
def asList? {α : Type} (read : Json → Option α) : Json → Option (List α)
  | arr items => items.mapM read
  | _ => none

/-- A named case: its name, or an object that maps the name to `null`. -/
def asCase? {α : Type} (named? : String → Option α) : Json → Option α
  | str name => named? name
  | obj [(name, null)] => named? name
  | _ => none

/-- A named case, or an object that maps `raw` to an engine code. -/
def asCaseOrRaw? {α : Type} (named? : String → Option α) (raw : Int32 → α) : Json → Option α
  | obj [("raw", code)] => (asEngineCode? code).map raw
  | value => asCase? named? value

/-- A value, or `null` in its place. -/
def ofOption {α : Type} (write : α → Json) : Option α → Json
  | some value => write value
  | none => null

end TranslitScheme.Json
