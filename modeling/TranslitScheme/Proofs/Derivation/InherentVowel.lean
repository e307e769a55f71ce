import TranslitScheme.Derivation.Compound

/-!
# Patterns that show the inherent vowel

A pattern shows the inherent vowel when it ends in that letter after another one. Only one letter
is then taken away, and what is left does not show the vowel again. So it makes no difference
whether a vowel is attached to such a pattern or to what is left of it.
-/

namespace TranslitScheme.Pattern

variable {text : String} {letter before : Char} {front : List Char}

/-- A pattern shows the inherent vowel when that letter is the last one, behind a different one. -/
theorem hasInherentVowel_iff (text : String) (letter : Char) :
    hasInherentVowel text letter = true ↔
      ∃ front before, text.toList = front ++ [before, letter] ∧ before ≠ letter := by
  unfold hasInherentVowel
  constructor
  · intro h
    cases hletters : text.toList.reverse with
    | nil => simp [hletters, endsInSingle] at h
    | cons last letters =>
      cases letters with
      | nil => simp [hletters, endsInSingle] at h
      | cons before front =>
        simp only [hletters, endsInSingle, Bool.and_eq_true, beq_iff_eq, bne_iff_ne] at h
        obtain ⟨rfl, hbefore⟩ := h
        have htext := congrArg List.reverse hletters
        exact ⟨front.reverse, before, by simpa using htext, hbefore⟩
  · intro h
    obtain ⟨front, before, htext, hbefore⟩ := h
    simp [htext, endsInSingle, hbefore]

/-- The last letter is the only one that is taken away. -/
theorem withoutLast_of_toList (h : text.toList = front ++ [before, letter]) :
    withoutLast text = String.ofList (front ++ [before]) := by
  rw [withoutLast, h, List.dropLast_append_of_ne_nil (by simp)]
  rfl

/-- The inherent vowel behind what is left gives the pattern back. -/
theorem withoutLast_append_letter (h : hasInherentVowel text letter = true) :
    withoutLast text ++ String.singleton letter = text := by
  obtain ⟨front, before, htext, -⟩ := (hasInherentVowel_iff text letter).mp h
  apply String.toList_injective
  rw [withoutLast_of_toList htext, htext]
  simp

/-- What is left does not show the inherent vowel. -/
theorem hasInherentVowel_withoutLast (h : hasInherentVowel text letter = true) :
    hasInherentVowel (withoutLast text) letter = false := by
  obtain ⟨front, before, htext, hbefore⟩ := (hasInherentVowel_iff text letter).mp h
  rw [withoutLast_of_toList htext, Bool.eq_false_iff]
  intro hagain
  obtain ⟨shorter, earlier, hshorter, -⟩ := (hasInherentVowel_iff _ letter).mp hagain
  have hlast := congrArg List.getLast? hshorter
  simp at hlast
  exact hbefore hlast

/-- A pattern that shows the inherent vowel has the stem of what is left of it, which is all. -/
theorem stem_eq_of_hasInherentVowel (h : hasInherentVowel text letter = true) :
    stem text letter = withoutLast text ∧ stem (withoutLast text) letter = withoutLast text := by
  simp [stem, h, hasInherentVowel_withoutLast h]

end TranslitScheme.Pattern
