import TranslitScheme.Token.Option
import TranslitScheme.Value.Basic
import TranslitScheme.Fault

/-!
# Priority and acceptance settings

The options of a declaration are written as a name or as an integer. A name must be a known
one and an integer must be an engine code of 32 bits; a setting that is left out takes the
default. Either way the result is in canonical form.
-/

namespace TranslitScheme

namespace Value

/-- The engine code that an integer stands for, when it fits in 32 bits. -/
def engineCode? (number : Int) : Option Int32 :=
  if -2147483648 ≤ number ∧ number ≤ 2147483647 then some (Int32.ofInt number) else none

/-- The priority that a name stands for. -/
def priorityNamed? : String → Option Priority
  | "normal" => some .normal
  | "low" => some .low
  | "high" => some .high
  | _ => none

/-- The condition that a name stands for. -/
def acceptanceNamed? : String → Option Acceptance
  | "all" => some .all
  | "starts_with" => some .startsWith
  | "in_between" => some .inBetween
  | "ends_with" => some .endsWith
  | _ => none

/-- The priority that a setting stands for, if it is a valid one. -/
def priority? : Value → Option Priority
  | str text => priorityNamed? text
  | int number => (engineCode? number).map Priority.ofValue
  | _ => none

/-- The condition that a setting stands for, if it is a valid one. -/
def acceptance? : Value → Option Acceptance
  | str text => acceptanceNamed? text
  | int number => (engineCode? number).map Acceptance.ofCode
  | _ => none

end Value

namespace Priority

/-- The priority of a declaration. -/
def ofSetting : Option Value → Except Fault Priority
  | none => .ok .normal
  | some setting =>
    match setting.priority? with
    | some priority => .ok priority
    | none => .error (.invalidPriority setting.display)

end Priority

namespace Acceptance

/-- The acceptance condition of a declaration. -/
def ofSetting : Option Value → Except Fault Acceptance
  | none => .ok .all
  | some setting =>
    match setting.acceptance? with
    | some condition => .ok condition
    | none => .error (.invalidAccept setting.display)

end Acceptance

end TranslitScheme
