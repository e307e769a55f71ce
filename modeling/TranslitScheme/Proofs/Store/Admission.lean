import TranslitScheme.Table.Store

/-!
# What creating a token stores

Creating a token runs through checks, a derivation and two insertions, with a cut of the buffer
when the second one fails. `createToken_eq` removes the mutation: a token is either refused, or
its entries are known beforehand and those that are not held yet are appended.

The entries of a token are its derived dead form, if there is one, and its normal form. Both are
described here as functions of the store and the token alone. A dead form and the token it comes
from are of different categories, so that neither can make the other a duplicate.
-/

namespace TranslitScheme.TokenStore

/-- The same entry as a token is stored already. -/
def holds (store : TokenStore) (token : Token) : Bool :=
  store.stored.any fun other => other.sameEntry token

/-- Store tokens without a check. -/
def append (store : TokenStore) (tokens : List Token) : TokenStore :=
  { store with buffer := store.buffer ++ tokens }

/-- The tokens of a list that are not held yet. -/
def missing (store : TokenStore) (tokens : List Token) : List Token :=
  tokens.filter fun token => !store.holds token

/-- The consonants that a store takes for dead ones: their value ends in the first virama. -/
def takesForDead (store : TokenStore) (token : Token) : Bool :=
  token.category == .consonant && store.infersDeadConsonants &&
    store.virama?.any fun virama => Text.endsWith token.value1 virama.value1

/-- The dead form that a store derives from a token, if it derives one. -/
def derived? (store : TokenStore) (token : Token) : Option Token :=
  if token.category = .consonant ∧ store.infersDeadConsonants ∧ ¬ store.takesForDead token ∧
      Pattern.hasInherentVowel token.pattern store.inherentVowel then
    store.virama?.map fun virama => token.deadForm virama.value1
  else none

/-- A token as it is stored. -/
def normalForm (store : TokenStore) (token : Token) : Token :=
  if store.takesForDead token then { token with category := .deadConsonant }
  else token.withZeroWidth

/-- What is to be stored for a token, the derived dead form first. -/
def entries (store : TokenStore) (token : Token) : List Token :=
  (store.derived? token).toList ++ [store.normalForm token]

/-- The checks that come before anything is stored. -/
def vet (store : TokenStore) (token : Token) : Except SinkError Unit :=
  match store.inspect token with
  | .error refusal => .error refusal
  | .ok () => (store.forms token).map fun _ => ()

/-- Appended tokens are stored behind the others. -/
@[simp] theorem stored_append (store : TokenStore) (tokens : List Token) :
    (store.append tokens).stored = store.stored ++ tokens := by
  simp [stored, append, List.append_assoc]

/-- An entry is held after appending when it was before or is among what was appended. -/
theorem holds_append (store : TokenStore) (tokens : List Token) (token : Token) :
    (store.append tokens).holds token =
      (store.holds token || tokens.any fun other => other.sameEntry token) := by
  simp [holds, List.any_append]

/-- Appending in two parts is appending at once. -/
theorem append_append (store : TokenStore) (first second : List Token) :
    (store.append first).append second = store.append (first ++ second) := by
  simp [append, List.append_assoc]

/-- Appending nothing changes nothing. -/
@[simp] theorem append_nil (store : TokenStore) : store.append [] = store := by
  simp [append]

/-- A token is the same entry as itself. -/
@[simp] theorem sameEntry_self (token : Token) : token.sameEntry token = true := by
  simp [Token.sameEntry]

/-- Keeping a token stores it, passes over a duplicate, or refuses one. -/
theorem keep_eq (store : TokenStore) (token : Token) :
    store.keep token =
      if store.holds token then
        if store.ignoresDuplicates then (.ok (), store)
        else (.error (.duplicate token.pattern token.value1), store)
      else (.ok (), store.append [token]) := rfl

/-- Zero-width values change no category. -/
@[simp] theorem category_withZeroWidth (token : Token) :
    token.withZeroWidth.category = token.category := by
  unfold Token.withZeroWidth
  split <;> rfl

/-- Only joiners and non-joiners get zero-width values. -/
theorem withZeroWidth_eq_self (token : Token) (hnon : token.category ≠ .nonJoiner)
    (hjoiner : token.category ≠ .joiner) : token.withZeroWidth = token := by
  unfold Token.withZeroWidth
  split <;> first | contradiction | rfl

/-- A token is stored under its own pattern. -/
theorem pattern_normalForm (store : TokenStore) (token : Token) :
    (store.normalForm token).pattern = token.pattern := by
  unfold normalForm Token.withZeroWidth
  split
  · rfl
  · split <;> rfl

/-- Without inference for consonants there is no dead form, and the token is stored as it is but
for zero-width values. -/
theorem derived?_of_not_inferring (store : TokenStore) (token : Token)
    (h : ¬ (token.category = .consonant ∧ store.infersDeadConsonants = true)) :
    store.derived? token = none ∧ store.normalForm token = token.withZeroWidth := by
  have hnot : store.takesForDead token = false := by
    simp only [takesForDead, Bool.and_eq_false_imp, Bool.and_eq_true, beq_iff_eq]
    exact fun hboth => absurd hboth h
  constructor
  · rw [derived?, if_neg fun hall => h ⟨hall.1, hall.2.1⟩]
  · simp [normalForm, hnot]

/-- The forms of a token are its derived dead form and its normal form. They cannot be found for
a consonant without a virama, nor when the dead form is too long. -/
theorem forms_eq (store : TokenStore) (token : Token) :
    store.forms token =
      if token.category = .consonant ∧ store.infersDeadConsonants ∧ store.virama? = none then
        .error .viramaMissing
      else if (store.derived? token).all Token.fits then
        .ok (store.derived? token, store.normalForm token)
      else .error (.tooLong Token.maxBytes) := by
  unfold TokenStore.forms
  by_cases hinfer : token.category = .consonant ∧ store.infersDeadConsonants = true
  · have hzero : token.withZeroWidth = token :=
      withZeroWidth_eq_self token (by simp [hinfer.1]) (by simp [hinfer.1])
    rw [if_pos hinfer]
    unfold deadForms
    cases hvirama : store.virama? with
    | none => simp [hinfer.1, hinfer.2, Except.map]
    | some virama =>
      by_cases hdead : Text.endsWith token.value1 virama.value1 = true
      · simp [derived?, normalForm, takesForDead, hinfer.1, hinfer.2, hvirama, hdead, Except.map,
          Token.withZeroWidth]
      · by_cases hvowel : Pattern.hasInherentVowel token.pattern store.inherentVowel = true
        · by_cases hfits : (token.deadForm virama.value1).fits = true <;>
            simp [derived?, normalForm, takesForDead, hinfer.1, hinfer.2, hvirama, hdead, hvowel,
              hfits, hzero, Except.map]
        · simp [derived?, normalForm, takesForDead, hinfer.1, hinfer.2, hvirama, hdead, hvowel,
            hzero, Except.map]
  · obtain ⟨hnone, hnormal⟩ := derived?_of_not_inferring store token hinfer
    rw [if_neg hinfer, if_neg fun hall => hinfer ⟨hall.1, hall.2.1⟩, hnone, hnormal]
    simp

/-- Forms that are found are the derived dead form and the normal form. -/
theorem eq_of_forms (store : TokenStore) (token : Token) (forms : Option Token × Token)
    (h : store.forms token = .ok forms) :
    forms = (store.derived? token, store.normalForm token) := by
  rw [forms_eq] at h
  split at h
  · contradiction
  · split at h
    · exact (Except.ok.inj h).symm
    · contradiction

/-- The checks are those of the token, the search for a virama and the length of the dead form. -/
theorem vet_eq (store : TokenStore) (token : Token) :
    store.vet token =
      match store.inspect token with
      | .error refusal => .error refusal
      | .ok () =>
        if token.category = .consonant ∧ store.infersDeadConsonants ∧ store.virama? = none then
          .error .viramaMissing
        else if (store.derived? token).all Token.fits then .ok ()
        else .error (.tooLong Token.maxBytes) := by
  unfold vet
  rw [forms_eq]
  cases store.inspect token with
  | error refusal => rfl
  | ok _ =>
    change Except.map _ (ite _ _ _) = ite _ _ _
    split
    · rfl
    · split <;> rfl

/-- A dead form is a dead consonant, and is derived only from a token that stays a consonant. -/
theorem category_of_derived? (store : TokenStore) (token dead : Token)
    (h : store.derived? token = some dead) :
    dead.category = .deadConsonant ∧ (store.normalForm token).category = .consonant := by
  unfold derived? at h
  split at h
  · rename_i hall
    obtain ⟨virama, _, rfl⟩ := Option.map_eq_some_iff.mp h
    refine ⟨rfl, ?_⟩
    rw [normalForm, if_neg hall.2.2.1, category_withZeroWidth]
    exact hall.1
  · contradiction

/-- The entries of a token are of its category, or else dead consonants made of a consonant. -/
theorem category_of_mem_entries (store : TokenStore) (token entry : Token)
    (h : entry ∈ store.entries token) :
    entry.category = token.category ∨
      token.category = .consonant ∧ entry.category = .deadConsonant := by
  rcases List.mem_append.mp h with hderived | hnormal
  · have hdead := Option.mem_toList.mp hderived
    have hconsonant : token.category = .consonant := by
      unfold derived? at hdead
      split at hdead
      · rename_i hall
        exact hall.1
      · contradiction
    exact Or.inr ⟨hconsonant, (category_of_derived? store token entry hdead).1⟩
  · rw [List.mem_singleton.mp hnormal, normalForm]
    split
    · rename_i htakes
      simp only [takesForDead, Bool.and_eq_true, beq_iff_eq] at htakes
      exact Or.inr ⟨htakes.1.1, rfl⟩
    · exact Or.inl (category_withZeroWidth token)

/-- A dead form is never a duplicate of the token it comes from. -/
theorem not_sameEntry_of_derived? (store : TokenStore) (token dead : Token)
    (h : store.derived? token = some dead) :
    dead.sameEntry (store.normalForm token) = false := by
  obtain ⟨hdead, hnormal⟩ := category_of_derived? store token dead h
  simp [Token.sameEntry, hdead, hnormal]

/-- Keeping a token behind others that make it no duplicate. When it is refused, cutting the
buffer back to its old length takes the others away as well. -/
theorem keep_or_cut (store : TokenStore) (others : List Token) (token : Token)
    (hothers : (others.any fun other => other.sameEntry token) = false) :
    (match (store.append others).keep token with
      | (.error refusal, kept) =>
        (Except.error refusal, { kept with buffer := kept.buffer.take store.buffer.length })
      | (.ok (), kept) => (Except.ok (), kept)) =
      if store.holds token then
        if store.ignoresDuplicates then (.ok (), store.append others)
        else (.error (.duplicate token.pattern token.value1), store)
      else (.ok (), store.append (others ++ [token])) := by
  have hholds : (store.append others).holds token = store.holds token := by
    rw [holds_append, hothers, Bool.or_false]
  have hignores : (store.append others).ignoresDuplicates = store.ignoresDuplicates := rfl
  rw [keep_eq, hholds, hignores, append_append]
  by_cases hheld : store.holds token = true
  · by_cases hignore : store.ignoresDuplicates = true
    · rw [if_pos hheld, if_pos hignore, if_pos hheld, if_pos hignore]
    · rw [if_pos hheld, if_neg hignore, if_pos hheld, if_neg hignore]
      simp only [append, List.take_left]
  · rw [if_neg hheld, if_neg hheld]

/-- Creating a token, without the intermediate states: a token is refused with the store as it
was, or all its entries that are not held yet are appended. -/
theorem createToken_eq (store : TokenStore) (token : Token) :
    store.createToken token =
      match store.vet token with
      | .error refusal => (.error refusal, store)
      | .ok () =>
        if store.ignoresDuplicates then (.ok (), store.append (store.missing (store.entries token)))
        else
          match (store.entries token).find? store.holds with
          | some entry => (.error (.duplicate entry.pattern entry.value1), store)
          | none => (.ok (), store.append (store.entries token)) := by
  unfold createToken vet
  cases hinspect : store.inspect token with
  | error refusal => rfl
  | ok _ =>
    cases hforms : store.forms token with
    | error refusal => rfl
    | ok forms =>
      obtain rfl := eq_of_forms store token forms hforms
      have hnothing := keep_or_cut store [] (store.normalForm token) rfl
      rw [append_nil, List.nil_append] at hnothing
      cases hderived : store.derived? token with
      | none =>
        refine hnothing.trans ?_
        by_cases hheld : store.holds (store.normalForm token) = true <;>
          simp [entries, missing, hderived, hheld, Except.map]
      | some dead =>
        -- Whether the token is a duplicate is asked after its dead form was kept, but the answer
        -- is the one for the old store, as the two are different entries.
        have hdeadKept := keep_or_cut store [dead] (store.normalForm token)
          (by simp [not_sameEntry_of_derived? store token dead hderived])
        by_cases hdead : store.holds dead = true
        · by_cases hignore : store.ignoresDuplicates = true
          · simp only [keepDerived, keep_eq store dead, hdead, hignore, if_true]
            refine hnothing.trans ?_
            by_cases hheld : store.holds (store.normalForm token) = true <;>
              simp [entries, missing, hderived, hdead, hheld, hignore, Except.map]
          · simp [keepDerived, keep_eq, hdead, hignore, Except.map, entries, hderived]
        · simp only [keepDerived, keep_eq store dead, hdead]
          refine hdeadKept.trans ?_
          by_cases hheld : store.holds (store.normalForm token) = true <;>
            simp [entries, missing, hderived, hdead, hheld, Except.map]

end TranslitScheme.TokenStore
