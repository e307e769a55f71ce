import TranslitScheme.Value.Basic

/-!
# Patterns and mappings

A validated key or value is a pattern: a text, or a group of patterns nested to any depth.
The leaves of a pattern are its texts from left to right, and texts can be replaced by
patterns in place. A mapping is a list of key and value patterns.

Replacing leaves commutes with listing them: `leaves_bind` says that the leaves of the
result are the leaves of the replacements, in order.
-/

namespace TranslitScheme

/-- A text, or a group of alternatives. -/
inductive Pattern where
  | scalar (text : String)
  | group (items : List Pattern)
  deriving Repr, Inhabited

namespace Pattern

mutual

/-- Equality of patterns can be decided. -/
def decEq : (a b : Pattern) → Decidable (a = b)
  | scalar s, scalar t =>
    if h : s = t then isTrue (by rw [h]) else isFalse (by intro hst; cases hst; exact h rfl)
  | scalar _, group _ => isFalse (by intro h; cases h)
  | group _, scalar _ => isFalse (by intro h; cases h)
  | group xs, group ys =>
    match decEqItems xs ys with
    | isTrue h => isTrue (by rw [h])
    | isFalse h => isFalse (by intro hxy; cases hxy; exact h rfl)

/-- Equality of groups can be decided. -/
def decEqItems : (xs ys : List Pattern) → Decidable (xs = ys)
  | [], [] => isTrue rfl
  | [], _ :: _ => isFalse (by intro h; cases h)
  | _ :: _, [] => isFalse (by intro h; cases h)
  | x :: xs, y :: ys =>
    match decEq x y with
    | isFalse h => isFalse (by intro hxy; cases hxy; exact h rfl)
    | isTrue h =>
      match decEqItems xs ys with
      | isFalse hs => isFalse (by intro hxy; cases hxy; exact hs rfl)
      | isTrue hs => isTrue (by rw [h, hs])

end

instance : DecidableEq Pattern := decEq

/-- The text of a pattern that is not a group. -/
def asScalar? : Pattern → Option String
  | scalar text => some text
  | group _ => none

mutual

/-- All texts of a pattern, from left to right. -/
def leaves : Pattern → List String
  | scalar text => [text]
  | group items => leavesItems items

/-- All texts of the patterns of a group, from left to right. -/
def leavesItems : List Pattern → List String
  | [] => []
  | item :: rest => leaves item ++ leavesItems rest

end

mutual

/-- Replace every text of a pattern by a pattern, keeping the nesting around it. -/
def bind (replace : String → Pattern) : Pattern → Pattern
  | scalar text => replace text
  | group items => group (bindItems replace items)

/-- Replace every text of the patterns of a group. -/
def bindItems (replace : String → Pattern) : List Pattern → List Pattern
  | [] => []
  | item :: rest => bind replace item :: bindItems replace rest

end

/-- Replace every text of a pattern by a text. -/
def map (replace : String → String) (pattern : Pattern) : Pattern :=
  pattern.bind fun text => scalar (replace text)

mutual

/-- A pattern as a value that a scheme could have written. -/
def toValue : Pattern → Value
  | scalar text => .str text
  | group items => .list (toValues items)

/-- The patterns of a group as values. -/
def toValues : List Pattern → List Value
  | [] => []
  | item :: rest => toValue item :: toValues rest

end

/-- The text by which diagnostics quote a pattern. -/
def display (pattern : Pattern) : String := pattern.toValue.display

mutual

/-- The leaves after a replacement are the leaves of the replacements, in order. -/
theorem leaves_bind (replace : String → Pattern) :
    (pattern : Pattern) →
      (pattern.bind replace).leaves = pattern.leaves.flatMap fun text => (replace text).leaves
  | scalar text => by simp [bind, leaves]
  | group items => by simp [bind, leaves, leavesItems_bindItems replace items]

/-- The same for the patterns of a group. -/
theorem leavesItems_bindItems (replace : String → Pattern) :
    (items : List Pattern) →
      leavesItems (bindItems replace items) =
        (leavesItems items).flatMap fun text => (replace text).leaves
  | [] => rfl
  | item :: rest => by
    simp [bindItems, leavesItems, leaves_bind replace item, leavesItems_bindItems replace rest]

end

end Pattern

/-- Key and value patterns in order. -/
abbrev Mapping := List (Pattern × Pattern)

namespace Mapping

/-- The value of the first pair with a given key. -/
def get? (mapping : Mapping) (key : Pattern) : Option Pattern :=
  (mapping.find? fun pair => decide (pair.1 = key)).map Prod.snd

/-- A mapping as a value that a scheme could have written. -/
def toValue (mapping : Mapping) : Value :=
  .map (mapping.map fun pair => (pair.1.toValue, pair.2.toValue))

end Mapping

end TranslitScheme
