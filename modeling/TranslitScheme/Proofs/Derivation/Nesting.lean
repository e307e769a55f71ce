import TranslitScheme.Proofs.Repetition.Template
import Mathlib.Data.List.Forall2

/-!
# Leaves and nesting

Patterns are changed in place: every text is replaced by a pattern, and the groups around it stay.
The leaves of what comes of it are those of the replacements, and when texts are put in for texts
there are as many as before, nested alike.

A key of a template is expanded in this way, and for a token that is one of several spellings it is
wrapped in groups besides. Where the groups go depends on the key and on the token, but the texts in
them do not: the way of matching is all that the wrapping decides.
-/

namespace TranslitScheme

namespace Pattern

/-- Two patterns are nested alike: a text stands for a text, and a group for a group of as many
items, each nested like its counterpart. -/
inductive NestedLike : Pattern → Pattern → Prop where
  | scalar (text other : String) : NestedLike (.scalar text) (.scalar other)
  | group {items others : List Pattern} (h : List.Forall₂ NestedLike items others) :
    NestedLike (.group items) (.group others)

variable {replace : String → Pattern}

mutual

/-- Texts that are put in for texts leave the nesting as it was. -/
theorem nestedLike_bind (h : ∀ text, ∃ other, replace text = .scalar other) :
    (pattern : Pattern) → pattern.NestedLike (pattern.bind replace)
  | .scalar text => by
    obtain ⟨other, hother⟩ := h text
    rw [bind, hother]
    exact .scalar text other
  | .group items => by
    rw [bind]
    exact .group (nestedLike_bindItems h items)

/-- The same for the patterns of a group. -/
theorem nestedLike_bindItems (h : ∀ text, ∃ other, replace text = .scalar other) :
    (items : List Pattern) → List.Forall₂ NestedLike items (bindItems replace items)
  | [] => .nil
  | item :: rest => .cons (nestedLike_bind h item) (nestedLike_bindItems h rest)

end

mutual

/-- Replacing the texts of replacements is replacing at once. -/
theorem bind_bind (again : String → Pattern) : (pattern : Pattern) →
    (pattern.bind replace).bind again = pattern.bind fun text => (replace text).bind again
  | .scalar _ => rfl
  | .group items => congrArg group (bindItems_bindItems again items)

/-- The same for the patterns of a group. -/
theorem bindItems_bindItems (again : String → Pattern) : (items : List Pattern) →
    bindItems again (bindItems replace items) =
      bindItems (fun text => (replace text).bind again) items
  | [] => rfl
  | item :: rest => congrArg₂ List.cons (bind_bind again item) (bindItems_bindItems again rest)

end

/-- Texts that are put in for texts are as many as these. -/
theorem length_leaves_bind (h : ∀ text, ∃ other, replace text = .scalar other)
    (pattern : Pattern) : (pattern.bind replace).leaves.length = pattern.leaves.length := by
  have hone (text : String) : (replace text).leaves.length = 1 := by
    obtain ⟨other, hother⟩ := h text
    rw [hother]
    rfl
  rw [leaves_bind, List.length_flatMap]
  simp [hone]

end Pattern

namespace Text

/-- Stars are replaced by a text, each of them, and the other letters stay. -/
theorem replaceAll_star (put text : String) :
    replaceAll "*" put text =
      String.ofList (text.toList.flatMap fun letter =>
        if letter = '*' then put.toList else [letter]) := by
  have hscan (letters : List Char) : scanReplacing ['*'] put.toList 0 letters =
      letters.flatMap fun letter => if letter = '*' then put.toList else [letter] := by
    induction letters with
    | nil => rfl
    | cons letter rest ih =>
      rw [List.flatMap_cons, ← ih, scanReplacing]
      by_cases hstar : letter = '*'
      · simp [hstar]
      · simp [hstar, Ne.symm hstar]
  exact congrArg String.ofList (hscan text.toList)

end Text

namespace Template

/-- A key with the groups that a way of matching asks for: none for an exact token, and for a
spelling two around a key that is a text and one around each text of a key that is a group. -/
def wrap : Matching → Pattern → Pattern
  | .exact, key => key
  | .possibility, .scalar text => .group [.group [.scalar text]]
  | .possibility, .group items => (Pattern.group items).bind fun text => .group [.scalar text]

/-- The groups that a way of matching asks for hold the texts of the key. -/
theorem leaves_wrap (matching : Matching) (key : Pattern) :
    (wrap matching key).leaves = key.leaves := by
  cases matching with
  | exact => rfl
  | possibility =>
    cases key with
    | scalar text => rfl
    | group items =>
      rw [wrap, Pattern.leaves_bind]
      exact List.flatMap_singleton' _

/-- Expanding a key is wrapping it and replacing its stars. -/
theorem expandKey_eq (key : Pattern) (token : Token) :
    expandKey key token =
      (wrap token.matching key).map (Text.replaceAll "*" token.pattern) := by
  unfold expandKey Token.isPossibility
  cases token.matching with
  | exact => rfl
  | possibility =>
    cases key with
    | scalar text => rfl
    | group items =>
      rw [wrap, Pattern.map, Pattern.bind_bind]
      rfl

/-- The leaves of a pattern whose texts are replaced are the leaves of the replacements, in order.
If only texts are put in, there are as many leaves as before, nested as before. A key that is
expanded has the texts of the key with the pattern of the token in place of every star, nested like
the key in the groups that the way of matching asks for, which hold the same texts. -/
theorem leaves_of_replaced (pattern : Pattern) (replace : String → Pattern) (token : Token) :
    (pattern.bind replace).leaves = pattern.leaves.flatMap (fun text => (replace text).leaves) ∧
    ((∀ text, ∃ other, replace text = .scalar other) →
      (pattern.bind replace).leaves.length = pattern.leaves.length ∧
        pattern.NestedLike (pattern.bind replace)) ∧
    (expandKey pattern token).leaves = pattern.leaves.map (fun text =>
      String.ofList (text.toList.flatMap fun letter =>
        if letter = '*' then token.pattern.toList else [letter])) ∧
    (wrap token.matching pattern).leaves = pattern.leaves ∧
    (wrap token.matching pattern).NestedLike (expandKey pattern token) := by
  refine ⟨Pattern.leaves_bind replace pattern, fun h =>
    ⟨Pattern.length_leaves_bind h pattern, Pattern.nestedLike_bind h pattern⟩, ?_,
    leaves_wrap token.matching pattern, ?_⟩
  · rw [leaves_expandKey]
    exact List.map_congr_left fun text _ => Text.replaceAll_star token.pattern text
  · rw [expandKey_eq]
    exact Pattern.nestedLike_bind (fun text => ⟨_, rfl⟩) _

/-- A text beside a group of two, in which letters are put in for texts. -/
theorem leaves_of_replaced_doubled :
    let pattern : Pattern := .group [.scalar "*x", .group [.scalar "y", .scalar "**"]]
    let double : String → Pattern := fun text => .scalar (text ++ text)
    let spelling : Token :=
      { category := .vowel, pattern := "ab", value1 := "A", matching := .possibility }
    (∀ text, ∃ other, double text = .scalar other) ∧
      (pattern.bind double).leaves.length = 3 ∧ pattern.NestedLike (pattern.bind double) ∧
      (expandKey pattern spelling).leaves = ["abx", "y", "abab"] := by
  intro pattern double spelling
  have hdouble : ∀ text, ∃ other, double text = .scalar other := fun text => ⟨text ++ text, rfl⟩
  obtain ⟨-, hscalar, hkey, -, -⟩ := leaves_of_replaced pattern double spelling
  obtain ⟨hlength, hnested⟩ := hscalar hdouble
  exact ⟨hdouble, hlength, hnested, hkey.trans (by decide +kernel)⟩

end Template

end TranslitScheme
