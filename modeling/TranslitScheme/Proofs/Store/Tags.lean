import TranslitScheme.Proofs.Store.Operation

/-!
# Tokens without their tags

A store copies the tag of a token and checks its length, and that is all it does with it. Tags take
no part in the search for duplicates or for the virama, nor in deriving dead forms, to which they
are handed on. So a store from which all tags are erased does the same with a token without its tag,
as long as the tag is short enough.

A tag that is too long makes the store refuse every token that carries it, whatever is stored. Such
a tag is kept, so that `createToken_untag` covers both kinds.
-/

namespace TranslitScheme

namespace Token

/-- A token without its tag. -/
def untagged (token : Token) : Token := { token with tag := "" }

/-- A tag that is short enough to be stored. -/
def TagFits (tag : String) : Prop := tag.utf8ByteSize ≤ maxBytes

instance (tag : String) : Decidable (TagFits tag) := inferInstanceAs (Decidable (_ ≤ _))

/-- An active tag, erased if it is short enough to be stored. -/
def untag (tag : Option String) : Option String := tag.filter fun name => !decide (TagFits name)

variable {token : Token}

/-- Tags do not decide whether two tokens are the same entry. -/
@[simp] theorem sameEntry_untagged (token other : Token) :
    token.untagged.sameEntry other.untagged = token.sameEntry other := rfl

/-- Joiners get the same values. -/
@[simp] theorem withZeroWidth_untagged (token : Token) :
    token.untagged.withZeroWidth = token.withZeroWidth.untagged := by
  obtain ⟨category, _⟩ := token
  cases category <;> rfl

/-- A tag that is short enough does not decide whether a token is. -/
theorem fits_untagged (h : TagFits token.tag) : token.untagged.fits = token.fits := by
  have htag : decide (token.tag.utf8ByteSize ≤ maxBytes) = true := decide_eq_true h
  simp [fits, untagged, htag]

/-- A token whose tag is too long does not fit. -/
theorem fits_of_not_tagFits (h : ¬ TagFits token.tag) : token.fits = false := by
  have htag : decide (token.tag.utf8ByteSize ≤ maxBytes) = false := decide_eq_false h
  simp [fits, htag]

/-- A tag that is short enough is erased. -/
theorem untag_of_fits {tag : Option String} (h : TagFits (tag.getD "")) : untag tag = none := by
  cases tag with
  | none => rfl
  | some name =>
    have hfits : TagFits name := h
    simp [untag, Option.filter, hfits]

/-- A tag that is too long is kept. -/
theorem untag_of_not_fits {tag : Option String} (h : ¬ TagFits (tag.getD "")) :
    untag tag = tag := by
  cases tag with
  | none => rfl
  | some name =>
    have hfits : ¬ TagFits name := h
    simp [untag, Option.filter, hfits]

end Token

namespace TokenStore

open Token (untagged)

/-- A store without the tags of its tokens. -/
def untagged (store : TokenStore) : TokenStore :=
  { store with
    flushed := store.flushed.map Token.untagged
    buffer := store.buffer.map Token.untagged }

variable {token : Token}

/-- The stored tokens lose their tags. -/
@[simp] theorem stored_untagged (store : TokenStore) :
    store.untagged.stored = store.stored.map Token.untagged := by
  simp [stored, TokenStore.untagged]

/-- The same entries are held. -/
theorem holds_untagged (store : TokenStore) (token : Token) :
    store.untagged.holds token.untagged = store.holds token := by
  simp [holds, List.any_map, Function.comp_def]

/-- The virama is the same one. -/
theorem virama?_untagged (store : TokenStore) :
    store.untagged.virama? = store.virama?.map Token.untagged := by
  simp only [virama?, stored_untagged, List.find?_map]
  rfl

/-- The tokens of a category lose their tags. -/
theorem tokensOf_untagged (store : TokenStore) (category : Category) :
    store.untagged.tokensOf category = (store.tokensOf category).map Token.untagged := by
  simp only [tokensOf, stored_untagged, List.filter_map]
  rfl

/-- The same consonants are taken for dead ones. -/
theorem takesForDead_untagged (store : TokenStore) (token : Token) :
    store.untagged.takesForDead token.untagged = store.takesForDead token := by
  simp only [takesForDead, virama?_untagged, Option.any_map]
  rfl

/-- The dead form is the same but for the tag, which it has from its consonant. -/
theorem derived?_untagged (store : TokenStore) (token : Token) :
    store.untagged.derived? token.untagged = (store.derived? token).map Token.untagged := by
  unfold derived?
  rw [takesForDead_untagged, virama?_untagged, apply_ite (Option.map Token.untagged),
    Option.map_map, Option.map_map]
  rfl

/-- A token is kept in the same form. -/
theorem normalForm_untagged (store : TokenStore) (token : Token) :
    store.untagged.normalForm token.untagged = (store.normalForm token).untagged := by
  unfold normalForm
  rw [takesForDead_untagged, apply_ite Token.untagged, Token.withZeroWidth_untagged]
  rfl

/-- The entries of a token are the same. -/
theorem entries_untagged (store : TokenStore) (token : Token) :
    store.untagged.entries token.untagged = (store.entries token).map Token.untagged := by
  rw [entries, entries, derived?_untagged, normalForm_untagged, List.map_append,
    Option.toList_map, List.map_singleton]

/-- A dead form has the tag of its consonant. -/
theorem tag_of_derived? {store : TokenStore} {dead : Token} (h : store.derived? token = some dead) :
    dead.tag = token.tag := by
  unfold derived? at h
  split at h
  · obtain ⟨virama, -, rfl⟩ := Option.map_eq_some_iff.mp h
    rfl
  · contradiction

/-- A token with a short tag passes the same checks without it. -/
theorem vet_untagged (store : TokenStore) (h : Token.TagFits token.tag) :
    store.untagged.vet token.untagged = store.vet token := by
  have hinspect : store.untagged.inspect token.untagged = store.inspect token := by
    rw [inspect, inspect, Token.fits_untagged h]
    rfl
  have hdead : (store.derived? token).all (fun dead => dead.untagged.fits) =
      (store.derived? token).all Token.fits := by
    cases hderived : store.derived? token with
    | none => rfl
    | some dead => exact Token.fits_untagged (tag_of_derived? hderived ▸ h)
  rw [vet_eq, vet_eq, hinspect, derived?_untagged, virama?_untagged, Option.all_map, hdead]
  simp only [Option.map_eq_none_iff]
  rfl

/-- What is appended loses its tags. -/
theorem append_untagged (store : TokenStore) (tokens : List Token) :
    (store.append tokens).untagged = store.untagged.append (tokens.map Token.untagged) := by
  simp [append, TokenStore.untagged]

/-- A token with a short tag is taken or refused alike without it. -/
theorem createToken_untagged (store : TokenStore) (token : Token) (h : Token.TagFits token.tag) :
    store.untagged.createToken token.untagged =
      ((store.createToken token).1, (store.createToken token).2.untagged) := by
  have hmissing : store.untagged.missing ((store.entries token).map Token.untagged) =
      (store.missing (store.entries token)).map Token.untagged := by
    simp only [missing, List.filter_map, Function.comp_def, holds_untagged]
  have hfind : ((store.entries token).map Token.untagged).find? store.untagged.holds =
      ((store.entries token).find? store.holds).map Token.untagged := by
    simp only [List.find?_map, Function.comp_def, holds_untagged]
  have hignores : store.untagged.ignoresDuplicates = store.ignoresDuplicates := rfl
  rw [createToken_eq, createToken_eq, vet_untagged store h, entries_untagged, hmissing, hfind,
    hignores]
  cases store.vet token with
  | error refusal => rfl
  | ok _ =>
    dsimp only
    split
    · rw [append_untagged]
    · cases (store.entries token).find? store.holds with
      | none => exact congrArg (Prod.mk _) (append_untagged store _).symm
      | some entry => rfl

/-- A token whose tag is too long does not pass its inspection. -/
theorem inspect_of_not_tagFits (store : TokenStore) (h : ¬ Token.TagFits token.tag) :
    ∃ refusal, store.inspect token = .error refusal := by
  unfold inspect
  rw [Token.fits_of_not_tagFits h]
  split
  · exact ⟨_, rfl⟩
  · split
    · exact ⟨_, rfl⟩
    · exact ⟨_, rfl⟩

/-- A token that is accepted has a short tag. -/
theorem tagFits_of_createToken_ok {store : TokenStore} (h : (store.createToken token).1 = .ok ()) :
    Token.TagFits token.tag := by
  by_cases hfits : Token.TagFits token.tag
  · exact hfits
  · obtain ⟨refusal, hinspect⟩ := inspect_of_not_tagFits store hfits
    simp [createToken, hinspect] at h

/-- A token whose tag is too long is refused for what can be seen without looking at the store. -/
theorem createToken_of_not_tagFits (store : TokenStore) (token : Token)
    (h : ¬ Token.TagFits token.tag) :
    store.untagged.createToken token =
      ((store.createToken token).1, (store.createToken token).2.untagged) := by
  obtain ⟨refusal, hinspect⟩ := inspect_of_not_tagFits store h
  have huntagged : store.untagged.inspect token = .error refusal := hinspect
  rw [createToken, createToken, hinspect, huntagged]

/-- A token under an active tag is taken or refused alike when the tag is erased, if it may be. -/
theorem createToken_untag (store : TokenStore) (token : Token) (tag : Option String) :
    store.untagged.createToken { token with tag := (Token.untag tag).getD "" } =
      ((store.createToken { token with tag := tag.getD "" }).1,
        (store.createToken { token with tag := tag.getD "" }).2.untagged) := by
  by_cases h : Token.TagFits (tag.getD "")
  · rw [Token.untag_of_fits h]
    exact createToken_untagged store { token with tag := tag.getD "" } h
  · rw [Token.untag_of_not_fits h]
    exact createToken_of_not_tagFits store { token with tag := tag.getD "" } h

/-- Every other operation does the same. -/
theorem perform_untagged (store : TokenStore) (operation : Operation)
    (h : ∀ token, operation ≠ .createToken token) :
    store.untagged.perform operation =
      ((store.perform operation).1, (store.perform operation).2.untagged) := by
  rcases perform_cases store operation with ⟨token, htoken, -⟩ | ⟨rfl, -⟩ | ⟨option, rfl, -⟩ |
    ⟨_, _, _, _, hdescribed⟩
  · exact absurd htoken (h token)
  · have hfails : store.untagged.failsFlush = store.failsFlush := rfl
    simp only [perform, flush, hfails]
    split
    · rfl
    · simp [TokenStore.untagged]
  · cases option <;> rfl
  · have huntagged : store.untagged.perform operation = _ :=
      hdescribed (store.flushed.map Token.untagged) (store.buffer.map Token.untagged)
    have hstore : store.perform operation = _ := hdescribed store.flushed store.buffer
    rw [huntagged, hstore]
    rfl

end TokenStore

end TranslitScheme
