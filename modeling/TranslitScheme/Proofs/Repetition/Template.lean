import TranslitScheme.Proofs.Repetition.Sequence
import TranslitScheme.Proofs.Repetition.Store
import TranslitScheme.Proofs.Value.Reading
import TranslitScheme.Session.Building

/-!
# Templates over tokens that repeat

A template is expanded over tokens, and over tokens that repeat them. The same values come out of
it, in the same order, and each key has the same texts, again with repetitions. The keys differ in
one more respect: a plain key that occurs again is merged with itself into a group, so that its
tokens become spellings.

This needs a plain key in the template. With sequences for keys every key that comes out is a
group, whether or not tokens were repeated, and so are the tokens that are built from it.
-/

namespace TranslitScheme

/-- How the tokens of a key match. -/
def Pattern.matching : Pattern → Matching
  | .scalar _ => .exact
  | .group _ => .possibility

/-- The tokens of a pair match as its key says. -/
theorem Session.pairTokens_eq (category : Category) (priority : Priority) (acceptance : Acceptance)
    (pair : Pattern × Pattern) :
    pairTokens category priority acceptance pair =
      pair.1.leaves.map fun pattern =>
        { category, pattern, priority, acceptance
          matching := pair.1.matching
          value1 := pair.2.leaves.getD 0 ""
          value2 := pair.2.leaves.getD 1 ""
          value3 := pair.2.leaves.getD 2 "" } := by
  obtain ⟨key, value⟩ := pair
  cases key <;> rfl

namespace Template

variable {again loose may : Prop} {tokens tokens' : List Token}

/-- A key of the template is a plain text. -/
def HasPlainKey (template : Mapping) : Prop := ∃ pair ∈ template, ∃ text, pair.1 = .scalar text

/-- The same texts, some of them again, as spellings where that is allowed. -/
structure KeyRepeats (again may : Prop) (key key' : Pattern) : Prop where
  leaves : Repeats again Eq key.leaves key'.leaves
  matching : key'.matching = key.matching ∨ may ∧ key'.matching = .possibility

/-- The same value under a key that repeats the other. -/
def PairRepeats (again may : Prop) (pair pair' : Pattern × Pattern) : Prop :=
  KeyRepeats again may pair.1 pair'.1 ∧ pair'.2 = pair.2

/-- The texts of an expanded key do not depend on the way of matching. -/
theorem leaves_expandKey (key : Pattern) (token : Token) :
    (expandKey key token).leaves = key.leaves.map (Text.replaceAll "*" token.pattern) := by
  unfold expandKey
  rw [List.map_eq_flatMap]
  cases token.isPossibility <;> cases key <;>
    simp [Pattern.leaves_bind, Pattern.leaves, Pattern.leavesItems]

/-- Related tokens expand a key to the same texts, and to another way of matching only if the key
is plain. -/
theorem expandKey_repeats {token token' : Token} (h : token.Loosens loose token') (key : Pattern) :
    KeyRepeats False (loose ∧ ∃ text, key = .scalar text) (expandKey key token)
      (expandKey key token') where
  leaves := by
    have hpattern : token'.pattern = token.pattern := by
      obtain ⟨matching, rfl⟩ := h.exists_matching
      rfl
    rw [leaves_expandKey, leaves_expandKey, hpattern]
    exact .refl (fun _ => rfl) _
  matching := by
    rcases h with rfl | ⟨hloose, rfl⟩
    · exact Or.inl rfl
    · cases key with
      | scalar text => exact Or.inr ⟨⟨hloose, text, rfl⟩, rfl⟩
      | group items =>
        have hgroup (token : Token) : (expandKey (.group items) token).matching = .possibility := by
          unfold expandKey
          cases token.isPossibility <;> rfl
        exact Or.inl ((hgroup _).trans (hgroup token).symm)

/-- Related tokens expand a value alike. -/
theorem expandValue_eq {token token' : Token} (h : token.Loosens loose token') (value : Pattern) :
    expandValue value token' = expandValue value token := by
  obtain ⟨matching, rfl⟩ := h.exists_matching
  rfl

/-- Expansions over repeated tokens repeat. -/
theorem expansions_repeats (h : Repeats again (Token.Loosens loose) tokens tokens')
    (template : Mapping) :
    Repeats again (PairRepeats False (loose ∧ HasPlainKey template))
      (expansions tokens template) (expansions tokens' template) := by
  refine h.flatMap fun token _ token' htoken => ?_
  refine (Repeats.refl (fun _ => rfl) template).map fun pair hpair _ heq => ?_
  subst heq
  obtain ⟨hleaves, hmatching⟩ := expandKey_repeats htoken pair.1
  refine ⟨⟨hleaves, hmatching.imp_right fun ⟨⟨hloose, hplain⟩, hgroup⟩ => ?_⟩,
    expandValue_eq htoken pair.2⟩
  exact ⟨⟨hloose, pair, hpair, hplain⟩, hgroup⟩

/-- A plain key comes from a plain key of the template. -/
theorem hasPlainKey_of_mem_expansions {template : Mapping} {pair : Pattern × Pattern}
    (h : pair ∈ expansions tokens template) {text : String} (hplain : pair.1 = .scalar text) :
    HasPlainKey template := by
  obtain ⟨token, _, hpair⟩ := List.mem_flatMap.mp h
  obtain ⟨source, hsource, rfl⟩ := List.mem_map.mp hpair
  exact ⟨source, hsource, ((expandKey_isScalar_iff source.1 token).mp ⟨text, hplain⟩).2⟩

/-- Joining keys and joining keys that repeat them gives the same texts. The way of matching is
different only if it was before, or if a single plain key occurs again. -/
theorem joinKeys_repeats {keys keys' : List Pattern} {free : Prop}
    (h : Repeats again (KeyRepeats False may) keys keys') (hmay : may → free)
    (hagain : again → ∀ text, Pattern.scalar text ∈ keys → free) :
    KeyRepeats again free (joinKeys keys) (joinKeys keys') where
  leaves := by
    rw [leaves_joinKeys, leaves_joinKeys]
    exact h.flatMap fun key _ key' hkey => hkey.leaves.imp False.elim fun _ _ => id
  matching := by
    cases hjoined' : joinKeys keys' with
    | scalar text =>
      -- A single key is a repetition of a single key only.
      rw [joinKeys_eq_scalar_iff] at hjoined'
      rw [hjoined'] at h
      obtain ⟨key, rfl, hkey⟩ := h.eq_single
      rcases hkey.matching with hsame | ⟨_, hgroup⟩
      · exact Or.inl hsame
      · contradiction
    | group items' =>
      cases hjoined : joinKeys keys with
      | group items => exact Or.inl rfl
      | scalar text =>
        rw [joinKeys_eq_scalar_iff] at hjoined
        subst hjoined
        refine Or.inr ⟨?_, rfl⟩
        by_cases hrepeats : again
        · exact hagain hrepeats text (List.mem_singleton_self _)
        · obtain ⟨key', rest', hkey, hrest, rfl⟩ :=
            List.forall₂_cons_left_iff.mp (h.forall₂ hrepeats)
          obtain rfl := List.forall₂_nil_left_iff.mp hrest
          rcases hkey.matching with hsame | ⟨hallowed, _⟩
          · rw [joinKeys, List.foldl_nil] at hjoined'
            rw [hjoined'] at hsame
            contradiction
          · exact hmay hallowed

/-- Combining over repeated tokens gives the same values in the same order, under keys that
repeat. -/
theorem combine_repeats (h : Repeats again (Token.Loosens loose) tokens tokens')
    (template : Mapping) :
    List.Forall₂ (PairRepeats again ((again ∨ loose) ∧ HasPlainKey template))
      (combine tokens template) (combine tokens' template) := by
  have hpairs := expansions_repeats h template
  have hvalues : ((expansions tokens' template).map Prod.snd).eraseDups =
      ((expansions tokens template).map Prod.snd).eraseDups :=
    (hpairs.map fun _ _ _ hpair => hpair.2.symm).eraseDups_eq
  rw [combine, combine, merge_eq, merge_eq, hvalues, List.forall₂_map_left_iff,
    List.forall₂_map_right_iff, List.forall₂_same]
  intro value _
  have hkeys : Repeats again (KeyRepeats False (loose ∧ HasPlainKey template))
      (keysOf (expansions tokens template) value) (keysOf (expansions tokens' template) value) :=
    (hpairs.filter fun _ _ _ hpair => by rw [hpair.2]).map fun _ _ _ hpair => hpair.1
  refine ⟨joinKeys_repeats hkeys (And.imp_left Or.inr) fun hagain text htext => ?_, rfl⟩
  obtain ⟨pair, hpair, hplain⟩ := List.mem_map.mp htext
  exact ⟨Or.inl hagain, hasPlainKey_of_mem_expansions (List.mem_filter.mp hpair).1 hplain⟩

/-- A mapping without empty groups. -/
def Full (mapping : Mapping) : Prop := ∀ pair ∈ mapping, pair.1.Full ∧ pair.2.Full

/-- A single text in a group. -/
theorem full_singleton {pattern : Pattern} (h : pattern.Full) : (Pattern.group [pattern]).Full :=
  .group (by simp) (by simpa using h)

/-- Expanding a key adds no empty group. -/
theorem full_expandKey {key : Pattern} (h : key.Full) (token : Token) :
    (expandKey key token).Full := by
  unfold expandKey
  split
  · split
    · exact full_singleton (full_singleton (.scalar _))
    · exact h.bind fun text => full_singleton (.scalar _)
  · exact h.bind fun text => .scalar _

/-- Joining keys adds no empty group, when there are keys. -/
theorem full_joinKeys (keys : List Pattern) (hne : keys ≠ []) (h : ∀ key ∈ keys, key.Full) :
    (joinKeys keys).Full := by
  induction keys using List.reverseRecOn with
  | nil => contradiction
  | append_singleton keys key ih =>
    have hkey := h key (by simp)
    by_cases hkeys : keys = []
    · simpa [hkeys, joinKeys] using hkey
    · rw [joinKeys_append_singleton keys key hkeys]
      have hjoined := ih hkeys fun other hother => h other (List.mem_append_left _ hother)
      generalize joinKeys keys = joined at hjoined
      cases hjoined with
      | scalar text => exact .group (by simp) (by simpa using ⟨.scalar text, hkey⟩)
      | group _ hitems =>
        refine .group (by simp) fun item hitem => ?_
        rcases List.mem_append.mp hitem with hold | hnew
        · exact hitems item hold
        · rwa [List.mem_singleton.mp hnew]

/-- Combining adds no empty group. -/
theorem full_combine (tokens : List Token) {template : Mapping} (h : Full template) :
    Full (combine tokens template) := by
  have hexpansions : Full (expansions tokens template) := by
    intro pair hpair
    obtain ⟨token, _, hpair⟩ := List.mem_flatMap.mp hpair
    obtain ⟨source, hsource, rfl⟩ := List.mem_map.mp hpair
    exact ⟨full_expandKey (h source hsource).1 token, (h source hsource).2.bind fun _ => .scalar _⟩
  intro pair hpair
  rw [combine, merge_eq] at hpair
  obtain ⟨value, hvalue, rfl⟩ := List.mem_map.mp hpair
  obtain ⟨entry, hentry, rfl⟩ := List.mem_map.mp (List.mem_eraseDups.mp hvalue)
  refine ⟨full_joinKeys _ ?_ fun key hkey => ?_, (hexpansions entry hentry).2⟩
  · refine List.ne_nil_of_mem (a := entry.1) (List.mem_map.mpr ⟨entry, ?_, rfl⟩)
    exact List.mem_filter.mpr ⟨hentry, by simp⟩
  · obtain ⟨other, hother, rfl⟩ := List.mem_map.mp hkey
    exact (hexpansions other (List.mem_filter.mp hother).1).1

/-- The same pairs can be read, whichever keys are repeated. -/
theorem canRead_eq {pair pair' : Pattern × Pattern} (h : PairRepeats again may pair pair') :
    Value.canRead pair' = Value.canRead pair := by
  have hblank : "" ∈ pair'.1.leaves ↔ "" ∈ pair.1.leaves := by
    constructor
    · intro hmem
      obtain ⟨text, htext, rfl⟩ := h.1.leaves.exists_left _ hmem
      exact htext
    · intro hmem
      obtain ⟨text, htext, rfl⟩ := h.1.leaves.exists_right _ hmem
      exact htext
  rw [Bool.eq_iff_iff, Value.canRead_iff, Value.canRead_iff, hblank, h.2]

/-- The tokens that are built from a template repeat when the tokens do that it is expanded over.
They become spellings only by a plain key, for tokens that are repeated or are loose. -/
theorem mappingTokens_repeats (h : Repeats again (Token.Loosens loose) tokens tokens')
    (template : Mapping) (category : Category) (priority : Priority) (acceptance : Acceptance) :
    Repeats again (Token.Loosens ((again ∨ loose) ∧ HasPlainKey template))
      (Session.mappingTokens category ((combine tokens template).filter Value.canRead) priority
        acceptance)
      (Session.mappingTokens category ((combine tokens' template).filter Value.canRead) priority
        acceptance) := by
  have hpairs : Repeats again (PairRepeats again ((again ∨ loose) ∧ HasPlainKey template))
      (combine tokens template) (combine tokens' template) :=
    .of_forall₂ (combine_repeats h template)
  refine (hpairs.filter fun _ _ _ hpair => (canRead_eq hpair).symm).flatMap ?_
  intro pair _ pair' hpair
  rw [Session.pairTokens_eq, Session.pairTokens_eq, hpair.2]
  refine hpair.1.leaves.map fun pattern _ _ heq => ?_
  subst heq
  rcases hpair.1.matching with hsame | ⟨hmay, hgroup⟩
  · rw [hsame]
    exact .refl _
  · rw [hgroup]
    exact Or.inr ⟨hmay, rfl⟩

end Template

end TranslitScheme
