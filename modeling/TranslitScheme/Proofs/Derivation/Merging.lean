import TranslitScheme.Derivation.Template
import Mathlib.Data.List.Induction
import Mathlib.Data.List.ProdSigma

/-!
# Merging expansions by value

Merging walks over pairs and turns the key of an earlier pair into a group whenever its value
comes again. `merge_eq` gives the result at once: there is one pair for each distinct value, in
the order in which values first occur, and its key joins the keys of all pairs with that value.

Nothing is lost, since joining keys concatenates their leaves. A joined key is a plain text only
when it is the single key of its value, which then comes from an exact token and a plain key of
the template.
-/

namespace TranslitScheme.Template

variable {α : Type} [DecidableEq α]

/-- One more value is listed at the end, unless it is there already. -/
theorem eraseDups_append_singleton (values : List α) (value : α) :
    (values ++ [value]).eraseDups =
      if value ∈ values then values.eraseDups else values.eraseDups ++ [value] := by
  rw [List.eraseDups_append]
  by_cases hvalue : value ∈ values <;> simp [List.removeAll, List.eraseDups_cons, hvalue]

/-- Values without repetitions are listed once. -/
theorem nodup_eraseDups (values : List α) :
    values.eraseDups.Nodup := by
  induction values using List.reverseRecOn with
  | nil => simp
  | append_singleton values value ih =>
    rw [eraseDups_append_singleton]
    split
    · exact ih
    · rename_i hvalue
      refine List.nodup_append.mpr ⟨ih, List.pairwise_singleton _ _, fun a ha b hb => ?_⟩
      rw [List.mem_singleton.mp hb]
      exact fun heq => hvalue (heq ▸ List.mem_eraseDups.mp ha)

/-- Values that come once each stay as they are. -/
theorem eraseDups_of_nodup {values : List α} (h : values.Nodup) : values.eraseDups = values := by
  induction values using List.reverseRecOn with
  | nil => rfl
  | append_singleton values value ih =>
    obtain ⟨hvalues, -, hnew⟩ := List.nodup_append.mp h
    rw [eraseDups_append_singleton, ih hvalues]
    exact if_neg fun hmem => hnew value hmem value (List.mem_singleton_self value) rfl

/-- The keys of all pairs with a given value, in order. -/
def keysOf (pairs : Mapping) (value : Pattern) : List Pattern :=
  (pairs.filter fun pair => pair.2 = value).map Prod.fst

/-- Keys as alternatives of one key. A single key stays as it is. -/
def joinKeys : List Pattern → Pattern
  | [] => .group []
  | key :: rest => rest.foldl addAlternative key

/-- Another key behind keys that are joined is one more alternative. -/
theorem joinKeys_append_singleton (keys : List Pattern) (key : Pattern) (hkeys : keys ≠ []) :
    joinKeys (keys ++ [key]) = addAlternative (joinKeys keys) key := by
  cases keys with
  | nil => contradiction
  | cons first rest => simp [joinKeys, List.foldl_append]

/-- Merging a pair into pairs that are given by their values. -/
theorem mergePair_map (pair : Pattern × Pattern) (key : Pattern → Pattern)
    (values : List Pattern) (hvalues : values.Nodup) :
    mergePair pair (values.map fun value => (key value, value)) =
      if pair.2 ∈ values then
        values.map fun value =>
          (if value = pair.2 then addAlternative (key value) pair.1 else key value, value)
      else (values.map fun value => (key value, value)) ++ [pair] := by
  induction values with
  | nil => rfl
  | cons value rest ih =>
    obtain ⟨hvalue, hrest⟩ := List.nodup_cons.mp hvalues
    rw [List.map_cons, mergePair]
    by_cases hsame : value = pair.2
    · have hkept : ∀ other ∈ rest, other ≠ pair.2 :=
        fun other hother heq => hvalue (hsame ▸ heq ▸ hother)
      rw [if_pos hsame, if_pos (by simp [hsame]), List.map_cons, if_pos hsame]
      refine congrArg _ (List.map_congr_left fun other hother => ?_)
      rw [if_neg (hkept other hother)]
    · rw [if_neg hsame, ih hrest]
      by_cases hmem : pair.2 ∈ rest
      · rw [if_pos hmem, if_pos (List.mem_cons_of_mem _ hmem), List.map_cons, if_neg hsame]
      · rw [if_neg hmem, if_neg (by simp [hmem, Ne.symm hsame]), List.cons_append]

/-- Merging lists the values in the order in which they first occur, each with its keys joined. -/
theorem merge_eq (pairs : Mapping) :
    merge pairs =
      (pairs.map Prod.snd).eraseDups.map fun value => (joinKeys (keysOf pairs value), value) := by
  induction pairs using List.reverseRecOn with
  | nil => rfl
  | append_singleton pairs pair ih =>
    have hstep : merge (pairs ++ [pair]) = mergePair pair (merge pairs) := by
      simp [merge, List.foldl_append]
    have hkeys (value : Pattern) : keysOf (pairs ++ [pair]) value =
        if value = pair.2 then keysOf pairs value ++ [pair.1] else keysOf pairs value := by
      by_cases hvalue : pair.2 = value
      · simp [keysOf, hvalue]
      · simp [keysOf, hvalue, Ne.symm hvalue]
    have hmem : pair.2 ∈ (pairs.map Prod.snd).eraseDups ↔ pair.2 ∈ pairs.map Prod.snd :=
      List.mem_eraseDups
    rw [hstep, ih, mergePair_map pair _ _ (nodup_eraseDups _), List.map_append, List.map_singleton,
      eraseDups_append_singleton]
    by_cases hold : pair.2 ∈ pairs.map Prod.snd
    · rw [if_pos (hmem.mpr hold), if_pos hold]
      refine List.map_congr_left fun value _ => ?_
      rw [hkeys]
      by_cases hvalue : value = pair.2
      · have hsome : keysOf pairs value ≠ [] := by
          obtain ⟨other, hother, heq⟩ := List.mem_map.mp hold
          refine List.ne_nil_of_mem (a := other.1) (List.mem_map.mpr ⟨other, ?_, rfl⟩)
          exact List.mem_filter.mpr ⟨hother, by simp [heq, hvalue]⟩
        rw [if_pos hvalue, if_pos hvalue, joinKeys_append_singleton _ _ hsome]
      · rw [if_neg hvalue, if_neg hvalue]
    · have hnone : keysOf pairs pair.2 = [] := by
        rw [keysOf, List.map_eq_nil_iff, List.filter_eq_nil_iff]
        intro other hother
        simpa using fun heq : other.2 = pair.2 =>
          hold (List.mem_map.mpr ⟨other, hother, heq⟩)
      rw [if_neg fun h => hold (hmem.mp h), if_neg hold, List.map_append, List.map_singleton]
      refine congrArg₂ _ (List.map_congr_left fun value hvalue => ?_) ?_
      · have hne : value ≠ pair.2 := fun heq => hold (hmem.mp (heq ▸ hvalue))
        rw [hkeys, if_neg hne]
      · rw [hkeys, if_pos rfl, hnone]
        rfl

/-- An alternative adds its leaves behind those of the key. -/
theorem leaves_addAlternative (key alternative : Pattern) :
    (addAlternative key alternative).leaves = key.leaves ++ alternative.leaves := by
  have hitems (items : List Pattern) :
      Pattern.leavesItems (items ++ [alternative]) =
        Pattern.leavesItems items ++ alternative.leaves := by
    induction items with
    | nil => simp [Pattern.leavesItems]
    | cons item rest ih => simp [Pattern.leavesItems, ih]
  cases key with
  | scalar text => simp [addAlternative, Pattern.leaves, Pattern.leavesItems]
  | group items => simp [addAlternative, Pattern.leaves, hitems]

/-- Joined keys have all the leaves of the keys, in order. -/
theorem leaves_joinKeys (keys : List Pattern) :
    (joinKeys keys).leaves = keys.flatMap Pattern.leaves := by
  induction keys using List.reverseRecOn with
  | nil => rfl
  | append_singleton keys key ih =>
    by_cases hkeys : keys = []
    · simp [hkeys, joinKeys]
    · rw [joinKeys_append_singleton keys key hkeys, leaves_addAlternative, ih]
      simp

/-- Joined keys are a plain text only when they are a single plain text. -/
theorem joinKeys_eq_scalar_iff (keys : List Pattern) (text : String) :
    joinKeys keys = .scalar text ↔ keys = [.scalar text] := by
  induction keys using List.reverseRecOn with
  | nil => simp [joinKeys]
  | append_singleton keys key _ =>
    by_cases hkeys : keys = []
    · simp [hkeys, joinKeys]
    · rw [joinKeys_append_singleton keys key hkeys]
      have hgroup : addAlternative (joinKeys keys) key ≠ .scalar text := by
        unfold addAlternative
        split <;> simp
      have hmore : keys ++ [key] ≠ [.scalar text] := by
        intro heq
        exact hkeys (List.append_eq_singleton_iff.mp heq |>.elim And.left fun h => by simp at h)
      exact iff_of_false hgroup hmore

/-- A key expands to a plain text only for an exact token, and when it is one itself. -/
theorem expandKey_isScalar_iff (key : Pattern) (token : Token) :
    (∃ text, expandKey key token = .scalar text) ↔
      token.matching = .exact ∧ ∃ text, key = .scalar text := by
  unfold expandKey Token.isPossibility
  cases hmatching : token.matching <;> cases key <;> simp [Pattern.bind]

/-- Expansions, with every pair under the token and the template pair that it comes from. -/
theorem expansions_eq_map (tokens : List Token) (template : Mapping) :
    expansions tokens template =
      (tokens ×ˢ template).map fun source =>
        (expandKey source.2.1 source.1, expandValue source.2.2 source.1) := by
  simp [expansions, SProd.sprod, List.product, List.map_flatMap, List.map_map, Function.comp_def]

/-- The keys of a value are the expanded keys of the sources that expand to it. -/
theorem keysOf_expansions (tokens : List Token) (template : Mapping) (value : Pattern) :
    keysOf (expansions tokens template) value =
      ((tokens ×ˢ template).filter fun source => expandValue source.2.2 source.1 = value).map
        fun source => expandKey source.2.1 source.1 := by
  rw [keysOf, expansions_eq_map, List.filter_map, List.map_map]
  rfl

/-- Combining gives one pair for each distinct value of the expansions, in the order in which
values first occur. The key of a pair has the leaves of all keys with its value, in order, and is
a plain text just when its value occurs once, from an exact token and a plain key. -/
theorem combine_by_value (tokens : List Token) (template : Mapping) :
    (combine tokens template).map Prod.snd =
        ((expansions tokens template).map Prod.snd).eraseDups ∧
      ∀ pair ∈ combine tokens template,
        pair.1.leaves =
            ((expansions tokens template).filter fun entry => entry.2 = pair.2).flatMap
              (fun entry => entry.1.leaves) ∧
          ((∃ text, pair.1 = .scalar text) ↔
            ∃ source,
              ((tokens ×ˢ template).filter fun source =>
                expandValue source.2.2 source.1 = pair.2) = [source] ∧
              source.1.matching = .exact ∧ ∃ text, source.2.1 = .scalar text) := by
  rw [combine, merge_eq]
  refine ⟨?_, fun pair hpair => ?_⟩
  · rw [List.map_map]
    exact List.map_id _
  · obtain ⟨value, _, rfl⟩ := List.mem_map.mp hpair
    refine ⟨?_, ?_⟩
    · rw [leaves_joinKeys, keysOf, List.flatMap_map]
    · constructor
      · rintro ⟨text, htext⟩
        have hkeys := (joinKeys_eq_scalar_iff _ text).mp htext
        rw [keysOf_expansions] at hkeys
        obtain ⟨source, hsource, hkey⟩ := List.map_eq_singleton_iff.mp hkeys
        exact ⟨source, hsource, (expandKey_isScalar_iff _ _).mp ⟨text, hkey⟩⟩
      · rintro ⟨source, hsource, hplain⟩
        obtain ⟨text, hkey⟩ := (expandKey_isScalar_iff _ _).mpr hplain
        refine ⟨text, (joinKeys_eq_scalar_iff _ text).mpr ?_⟩
        rw [keysOf_expansions, hsource, List.map_singleton, hkey]

/-- Two vowels of the same value and a spelling of another one. -/
def threeVowels : List Token :=
  [{ category := .vowel, pattern := "a", value1 := "A" },
    { category := .vowel, pattern := "e", value1 := "E", matching := .possibility },
    { category := .vowel, pattern := "b", value1 := "A" }]

/-- Over them a plain key gives a group of the two texts with one value. -/
theorem combine_by_value_threeVowels :
    (.group [.scalar "ax", .scalar "bx"], .scalar "A") ∈
        combine threeVowels [(.scalar "*x", .scalar "*1")] ∧
      (Pattern.group [.scalar "ax", .scalar "bx"]).leaves =
        ((expansions threeVowels [(.scalar "*x", .scalar "*1")]).filter fun entry =>
          entry.2 = .scalar "A").flatMap fun entry => entry.1.leaves :=
  have hmem : (.group [.scalar "ax", .scalar "bx"], .scalar "A") ∈
      combine threeVowels [(.scalar "*x", .scalar "*1")] := by decide +kernel
  ⟨hmem, ((combine_by_value threeVowels [(.scalar "*x", .scalar "*1")]).2 _ hmem).1⟩

end TranslitScheme.Template
