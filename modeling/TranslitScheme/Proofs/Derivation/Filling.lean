import TranslitScheme.Proofs.Repetition.Template
import Mathlib.Data.List.Perm.Basic

/-!
# Templates that are filled in

A template is filled in with the texts of tokens, and what comes of it is merged and read again as
a mapping. Two things could get lost on the way: a text that was not blank could become blank, so
that its pair is dropped, and a text of a key could disappear when keys are merged.

Neither happens when the tokens are not blank. `canRead_of_mem_combine` says that every pair can be
read again, and `attempts_perm` that the tokens which are built from it are one for each token,
each pair of the template and each text of that pair's key.
-/

namespace TranslitScheme

namespace Text

/-- Replacing does not make a text blank, unless by a blank text. -/
theorem replaceAll_ne (old : String) {new text : String} (hnew : new ≠ "") (htext : text ≠ "") :
    replaceAll old new text ≠ "" := by
  unfold replaceAll
  split
  · exact htext
  · have hletters : new.toList ≠ [] := fun hnil => hnew (String.toList_eq_nil_iff.mp hnil)
    have hscan : scanReplacing old.toList new.toList 0 text.toList ≠ [] := by
      cases hcase : text.toList with
      | nil => exact absurd (String.toList_eq_nil_iff.mp hcase) htext
      | cons letter rest =>
        rw [scanReplacing]
        split
        · simp [hletters]
        · simp
    intro hblank
    exact hscan (by simpa using congrArg String.toList hblank)

end Text

namespace Template

/-- A slot that is filled in does not make a text blank. -/
theorem fillSlot_ne (placeholder value : String) {text : String} (htext : text ≠ "") :
    fillSlot placeholder value text ≠ "" := by
  unfold fillSlot
  split
  · exact htext
  · rename_i hvalue
    exact Text.replaceAll_ne placeholder hvalue htext

/-- A token with a first value does not make a text blank. -/
theorem expandText_ne {text : String} {token : Token} (hvalue : token.value1 ≠ "")
    (htext : text ≠ "") : expandText text token ≠ "" :=
  fillSlot_ne _ _ (fillSlot_ne _ _ (Text.replaceAll_ne _ hvalue htext))

/-- A value keeps its texts in place when it is filled in. -/
theorem leaves_expandValue (value : Pattern) (token : Token) :
    (expandValue value token).leaves = value.leaves.map fun text => expandText text token := by
  rw [expandValue, Pattern.map, Pattern.leaves_bind, List.map_eq_flatMap]
  rfl

variable {tokens : List Token} {template : Mapping}

/-- What is filled in with tokens that are not blank can be read again. -/
theorem canRead_of_mem_expansions
    (htokens : ∀ token ∈ tokens, token.pattern ≠ "" ∧ token.value1 ≠ "")
    (htemplate : ∀ pair ∈ template, Value.canRead pair = true) {pair : Pattern × Pattern}
    (hpair : pair ∈ expansions tokens template) : Value.canRead pair = true := by
  obtain ⟨token, htoken, hpair⟩ := List.mem_flatMap.mp hpair
  obtain ⟨source, hsource, rfl⟩ := List.mem_map.mp hpair
  obtain ⟨hpattern, hvalue⟩ := htokens token htoken
  obtain ⟨hkey, hfirst⟩ := (Value.canRead_iff source).mp (htemplate source hsource)
  refine (Value.canRead_iff _).mpr ⟨fun hblank => ?_, ?_⟩
  · rw [leaves_expandKey] at hblank
    obtain ⟨text, htext, hsame⟩ := List.mem_map.mp hblank
    exact Text.replaceAll_ne "*" hpattern (fun hnone => hkey (hnone ▸ htext)) hsame
  · rw [leaves_expandValue]
    cases hleaves : source.2.leaves with
    | nil => simp [hleaves] at hfirst
    | cons first rest =>
      rw [hleaves, List.headD_cons] at hfirst
      exact expandText_ne hvalue hfirst

/-- What is combined from tokens that are not blank can be read again. -/
theorem canRead_of_mem_combine
    (htokens : ∀ token ∈ tokens, token.pattern ≠ "" ∧ token.value1 ≠ "")
    (htemplate : ∀ pair ∈ template, Value.canRead pair = true) {pair : Pattern × Pattern}
    (hpair : pair ∈ combine tokens template) : Value.canRead pair = true := by
  have hfilled {entry : Pattern × Pattern} (hentry : entry ∈ expansions tokens template) :=
    (Value.canRead_iff entry).mp (canRead_of_mem_expansions htokens htemplate hentry)
  obtain ⟨hvalues, hkeys⟩ := combine_by_value tokens template
  refine (Value.canRead_iff pair).mpr ⟨fun hblank => ?_, ?_⟩
  · rw [(hkeys pair hpair).1] at hblank
    obtain ⟨entry, hentry, hmem⟩ := List.mem_flatMap.mp hblank
    exact (hfilled (List.mem_filter.mp hentry).1).1 hmem
  · have hvalue : pair.2 ∈ (combine tokens template).map Prod.snd := List.mem_map_of_mem hpair
    rw [hvalues, List.mem_eraseDups] at hvalue
    obtain ⟨entry, hentry, hsame⟩ := List.mem_map.mp hvalue
    rw [← hsame]
    exact (hfilled hentry).2

/-- Every text of every key, with the value that it stands for. -/
def spellings (mapping : Mapping) : List (String × Pattern) :=
  mapping.flatMap fun pair => pair.1.leaves.map fun leaf => (leaf, pair.2)

/-- A pair that is merged adds its spellings. -/
theorem spellings_mergePair (pair : Pattern × Pattern) (merged : Mapping) :
    (spellings (mergePair pair merged)).Perm
      (spellings merged ++ pair.1.leaves.map fun leaf => (leaf, pair.2)) := by
  induction merged with
  | nil => simp [mergePair, spellings]
  | cons entry rest ih =>
    have hcons (first : Pattern × Pattern) : spellings (first :: rest) =
        (first.1.leaves.map fun leaf => (leaf, first.2)) ++ spellings rest := List.flatMap_cons
    rw [mergePair]
    split
    · rename_i hvalue
      have hmerged : spellings ((addAlternative entry.1 pair.1, entry.2) :: rest) =
          (entry.1.leaves.map fun leaf => (leaf, entry.2)) ++
            ((pair.1.leaves.map fun leaf => (leaf, pair.2)) ++ spellings rest) := by
        rw [hcons, leaves_addAlternative, List.map_append, List.append_assoc, hvalue]
      rw [hmerged, hcons, List.append_assoc]
      exact List.perm_append_comm.append_left _
    · have hkept : spellings (entry :: mergePair pair rest) =
          (entry.1.leaves.map fun leaf => (leaf, entry.2)) ++ spellings (mergePair pair rest) :=
        List.flatMap_cons
      rw [hkept, hcons, List.append_assoc]
      exact ih.append_left _

/-- Merging loses no spelling and adds none. -/
theorem spellings_merge (pairs : Mapping) : (spellings (merge pairs)).Perm (spellings pairs) := by
  induction pairs using List.reverseRecOn with
  | nil => exact .refl _
  | append_singleton pairs pair ih =>
    have hstep : merge (pairs ++ [pair]) = mergePair pair (merge pairs) := by
      simp [merge, List.foldl_append]
    have hlast : spellings (pairs ++ [pair]) =
        spellings pairs ++ pair.1.leaves.map fun leaf => (leaf, pair.2) := by
      simp [spellings]
    rw [hstep, hlast]
    exact (spellings_mergePair pair (merge pairs)).trans (ih.append_right _)

variable (category : Category) (priority : Priority) (acceptance : Acceptance)

/-- The token that a text of a key stands for, as one that matches exactly. -/
def spelled (spelling : String × Pattern) : Token where
  category
  pattern := spelling.1
  value1 := spelling.2.leaves.getD 0 ""
  value2 := spelling.2.leaves.getD 1 ""
  value3 := spelling.2.leaves.getD 2 ""
  priority
  acceptance

/-- Apart from how they match, the tokens of a mapping are those of its spellings. -/
theorem mappingTokens_eq (mapping : Mapping) :
    (Session.mappingTokens category mapping priority acceptance).map
        (fun token => { token with matching := .exact }) =
      (spellings mapping).map (spelled category priority acceptance) := by
  rw [Session.mappingTokens, spellings, List.map_flatMap, List.map_flatMap]
  refine congrArg (List.flatMap · mapping) (funext fun pair => ?_)
  rw [Session.pairTokens_eq, List.map_map, List.map_map]
  rfl

/-- The tokens of pairs that can be read are not blank. -/
theorem ne_of_mem_mappingTokens {mapping : Mapping}
    (h : ∀ pair ∈ mapping, Value.canRead pair = true) {token : Token}
    (htoken : token ∈ Session.mappingTokens category mapping priority acceptance) :
    token.pattern ≠ "" ∧ token.value1 ≠ "" := by
  obtain ⟨pair, hpair, htoken⟩ := List.mem_flatMap.mp htoken
  obtain ⟨hkey, hfirst⟩ := (Value.canRead_iff pair).mp (h pair hpair)
  rw [Session.pairTokens_eq] at htoken
  obtain ⟨text, htext, rfl⟩ := List.mem_map.mp htoken
  refine ⟨fun hblank => hkey (hblank ▸ htext), ?_⟩
  rw [List.headD_eq_getD] at hfirst
  exact hfirst

/-- The token that a text of a template's key asks for, when the template is filled in for another
token. -/
def attempt (token : Token) (value : Pattern) (text : String) : Token :=
  let values := value.leaves.map fun text => expandText text token
  { category, priority, acceptance
    pattern := Text.replaceAll "*" token.pattern text
    value1 := values.getD 0 ""
    value2 := values.getD 1 ""
    value3 := values.getD 2 "" }

/-- The tokens that a template asks for: one for each token, each pair of the template and each
text of that pair's key. -/
def attempts (tokens : List Token) (template : Mapping) : List Token :=
  tokens.flatMap fun token => template.flatMap fun pair =>
    pair.1.leaves.map (attempt category priority acceptance token pair.2)

/-- What is spelled by the filled-in template is what the template asks for. -/
theorem spelled_expansions (tokens : List Token) (template : Mapping) :
    (spellings (expansions tokens template)).map (spelled category priority acceptance) =
      attempts category priority acceptance tokens template := by
  rw [spellings, expansions, attempts, List.flatMap_assoc, List.map_flatMap]
  refine congrArg (List.flatMap · tokens) (funext fun token => ?_)
  rw [List.flatMap_map, List.map_flatMap]
  refine congrArg (List.flatMap · template) (funext fun pair => ?_)
  rw [leaves_expandKey, List.map_map, List.map_map]
  refine List.map_congr_left fun text _ => ?_
  rw [Function.comp_apply, Function.comp_apply, spelled, attempt, leaves_expandValue]

/-- Apart from how they match, the tokens that are built from a combined template are those that
the template asks for, each just as often. -/
theorem attempts_perm (tokens : List Token) (template : Mapping) :
    ((Session.mappingTokens category (combine tokens template) priority acceptance).map
        fun token => { token with matching := .exact }).Perm
      (attempts category priority acceptance tokens template) := by
  rw [mappingTokens_eq, ← spelled_expansions]
  exact (spellings_merge _).map _

end Template

end TranslitScheme
