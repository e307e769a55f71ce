import TranslitScheme.Value.Pattern
import TranslitScheme.Fault

/-!
# Shapes of mappings

Scheme operations take mappings of keys to values. A key is a string, an integer or a
non-empty sequence of such, to any depth, without blank texts. A value has the same form,
but only its first text must not be blank, since later texts fill optional slots. A pair of
the wrong shape is dropped with findings that say why; the others become patterns.

Checking one element is a pure function to findings and a pattern. The journal enters only
where a whole mapping is read, so that every finding about a pair carries that pair's text.
-/

namespace TranslitScheme

namespace Value

/-- Values beyond the third of a pair are never stored. -/
def maxValues : Nat := 3

/-- A blank text where one is required. -/
def emptyValueFinding : Finding := ⟨.shapeEmptyValue, .error, "Empty values are not allowed"⟩

/-- A blank text in a key. -/
def emptyPatternFinding : Finding := ⟨.shapeEmptyValue, .error, "Empty patterns are not allowed"⟩

/-- A sequence without elements. -/
def emptySequenceFinding : Finding :=
  ⟨.shapeEmptySequence, .error, "An empty sequence won't work out"⟩

/-- An element that is neither a string nor an integer nor a sequence. -/
def invalidTypeFinding (value : Value) : Finding :=
  ⟨.shapeInvalidType, .error,
    value.kind ++ " is not a valid type. Valid types are integer, string and sequence"⟩

/-- A value with more texts than a token has slots. -/
def extraValuesFinding (value : Value) : Finding :=
  ⟨.shapeExtraValues, .warn,
    value.display ++ " has more than three elements. Additional elements specified will be ignored"⟩

mutual

/-- Read an element that stands on its own, where a blank string is not allowed. -/
def checkElement : Value → Option Pattern × List Finding
  | str text =>
    if text = "" then (none, [emptyValueFinding]) else (some (.scalar text), [])
  | int number => (some (.scalar (toString number)), [])
  | list [] => (none, [emptySequenceFinding])
  | list (item :: rest) =>
    let (items, findings) := checkItems (item :: rest)
    (items.map Pattern.group, findings)
  | bool flag => (none, [invalidTypeFinding (bool flag)])
  | map pairs => (none, [invalidTypeFinding (map pairs)])
  | other kindName => (none, [invalidTypeFinding (other kindName)])

/-- Read the elements of a sequence, where blank strings are left to the caller.

All elements are read, so that each bad one is found. -/
def checkItems : List Value → Option (List Pattern) × List Finding
  | [] => (some [], [])
  | str text :: rest =>
    let (items, findings) := checkItems rest
    (items.map (Pattern.scalar text :: ·), findings)
  | item :: rest =>
    let (first, firstFindings) := checkElement item
    let (items, findings) := checkItems rest
    (first.bind fun pattern => items.map (pattern :: ·), firstFindings ++ findings)

end

/-- Read a key: an element without blank texts. -/
def checkKey (key : Value) : Option Pattern × List Finding :=
  match checkElement key with
  | (some pattern, findings) =>
    if "" ∈ pattern.leaves then (none, findings ++ [emptyPatternFinding])
    else (some pattern, findings)
  | rejected => rejected

/-- Read a value: an element whose first text is not blank. -/
def checkValue (value : Value) : Option Pattern × List Finding :=
  match checkElement value with
  | (some pattern, findings) =>
    if pattern.leaves.headD "" = "" then (none, findings ++ [emptyValueFinding])
    else if pattern.leaves.length > maxValues then
      (some pattern, findings ++ [extraValuesFinding value])
    else (some pattern, findings)
  | rejected => rejected

/-- Read a pair, with the findings about its key before those about its value. -/
def checkPair (key value : Value) : Option (Pattern × Pattern) × List Finding :=
  let (keyPattern, keyFindings) := checkKey key
  let (valuePattern, valueFindings) := checkValue value
  (keyPattern.bind fun k => valuePattern.map fun v => (k, v), keyFindings ++ valueFindings)

/-- Read pairs in order, recording the findings about each one under its own text. -/
def checkPairs : List (Value × Value) → Journal → Mapping × Journal
  | [], journal => ([], journal)
  | (key, value) :: rest, journal =>
    let (pair, findings) := checkPair key value
    let reported :=
      { journal with expression := some (pairText key value) }.recordAll findings
    let (mapping, journal) := checkPairs rest { reported with expression := none }
    (pair.toList ++ mapping, journal)

/-- Read a mapping. Anything else is a fault, which is recorded. -/
def toMapping (value : Value) (journal : Journal) : Except Fault Mapping × Journal :=
  match value with
  | map pairs =>
    let (mapping, journal) := checkPairs pairs journal
    (.ok mapping, journal)
  | value =>
    let fault := Fault.notAMapping value.kind
    (.error fault, journal.record fault.finding)

end Value

end TranslitScheme
