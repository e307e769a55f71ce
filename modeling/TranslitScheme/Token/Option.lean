/-!
# Matching, priority and acceptance

A token says whether its pattern stands alone or is one of several spellings, how strongly
it is preferred, and where in a word it may apply. Priorities and conditions are engine
codes of 32 bits, some of which have names.

A named code and a raw code of the same number are different values with the same meaning
to the engine. The canonical form of a code uses the name where there is one.
-/

namespace TranslitScheme

/-- Whether a pattern is the spelling of a value or one of several spellings. -/
inductive Matching where
  | exact
  | possibility
  deriving DecidableEq, Repr, Inhabited

namespace Matching

/-- The engine code of a way of matching. -/
def code : Matching → Int
  | exact => 1
  | possibility => 2

/-- The name that a compiled table stores. -/
def tableName : Matching → String
  | exact => "exact"
  | possibility => "possibility"

/-- The spelling used in messages. -/
def label : Matching → String
  | exact => "EXACT"
  | possibility => "POSSIBILITY"

/-- The way of matching that a table calls by a given name. -/
def ofTableName? : String → Option Matching
  | "exact" => some exact
  | "possibility" => some possibility
  | _ => none

end Matching

/-- A priority band, or an engine value without a name. -/
inductive Priority where
  | low
  | normal
  | high
  | raw (value : Int32)
  deriving DecidableEq, Repr, Inhabited

namespace Priority

/-- The engine value of a priority; lower values are stricter. -/
def value : Priority → Int32
  | low => -1
  | normal => 0
  | high => 1
  | raw v => v

/-- The canonical priority with a given engine value. -/
def ofValue (v : Int32) : Priority :=
  if v = -1 then low else if v = 0 then normal else if v = 1 then high else raw v

/-- Priorities are ordered by engine value, whatever way they are written. -/
def compare (a b : Priority) : Ordering :=
  if a.value.toInt < b.value.toInt then .lt
  else if a.value.toInt = b.value.toInt then .eq
  else .gt

/-- The priority of lower engine value, the first one if both have the same. -/
def min (a b : Priority) : Priority :=
  match compare b a with
  | .lt => b
  | _ => a

/-- The canonical priority of a value has that value. -/
theorem value_ofValue (v : Int32) : (ofValue v).value = v := by
  unfold ofValue
  split
  · simp_all [value]
  · split
    · simp_all [value]
    · split <;> simp_all [value]

end Priority

/-- Where in a word a pattern may apply. -/
inductive Acceptance where
  | all
  | startsWith
  | inBetween
  | endsWith
  | raw (code : Int32)
  deriving DecidableEq, Repr, Inhabited

namespace Acceptance

/-- The engine code of a condition. -/
def code : Acceptance → Int32
  | all => 0
  | startsWith => 1
  | inBetween => 2
  | endsWith => 3
  | raw c => c

/-- The canonical condition with a given engine code. -/
def ofCode (c : Int32) : Acceptance :=
  if c = 0 then all
  else if c = 1 then startsWith
  else if c = 2 then inBetween
  else if c = 3 then endsWith
  else raw c

/-- A condition restricts nothing when its code is the one of `all`. -/
def isAll (condition : Acceptance) : Bool := condition.code == 0

/-- The canonical condition of a code has that code. -/
theorem code_ofCode (c : Int32) : (ofCode c).code = c := by
  unfold ofCode
  split
  · simp_all [code]
  · split
    · simp_all [code]
    · split
      · simp_all [code]
      · split <;> simp_all [code]

end Acceptance

end TranslitScheme
