import TranslitScheme.Proofs.Value.Grammar

/-!
# What reading a mapping gives

Reading a mapping writes findings into the journal, but what is read does not depend on the
journal, and the active tag stays. `readPairs` is the result alone, and `readPairs_eq` says that it
consists of the pairs of the grammar, each as the patterns that it stands for.

Patterns that are read have no empty groups. Such a pattern is read back as itself, but for a key
with a blank text and a value that starts with one: `readPairs_toValue` says that a mapping made of
them loses just these pairs.
-/

namespace TranslitScheme

/-- A pattern without empty groups, at any depth. -/
inductive Pattern.Full : Pattern → Prop where
  | scalar (text : String) : Full (.scalar text)
  | group {items : List Pattern} : items ≠ [] → (∀ item ∈ items, Full item) → Full (.group items)

/-- Replacing texts by patterns without empty groups leaves no empty groups. -/
theorem Pattern.Full.bind {pattern : Pattern} (h : pattern.Full) {replace : String → Pattern}
    (hreplace : ∀ text, (replace text).Full) : (pattern.bind replace).Full := by
  have hmap (items : List Pattern) :
      bindItems replace items = items.map (Pattern.bind replace) := by
    induction items with
    | nil => rfl
    | cons item rest ih => rw [bindItems, ih, List.map_cons]
  induction h with
  | scalar text => exact hreplace text
  | @group items hne _ ih =>
    rw [Pattern.bind, hmap]
    exact .group (by simpa using hne) fun item hitem => by
      obtain ⟨source, hsource, rfl⟩ := List.mem_map.mp hitem
      exact ih source hsource

namespace Value

/-- The patterns of a sequence, one for each element. -/
theorem toPatterns_eq (items : List Value) : toPatterns items = items.map toPattern := by
  induction items with
  | nil => rfl
  | cons item rest ih => rw [toPatterns, ih, List.map_cons]

/-- A shape stands for a pattern without empty groups. -/
theorem Shaped.full {value : Value} (h : Shaped value) : value.toPattern.Full := by
  induction h with
  | str text => exact .scalar text
  | int number => exact .scalar _
  | @list items hne _ ih =>
    rw [toPattern, toPatterns_eq]
    exact .group (by simpa using hne) fun pattern hpattern => by
      obtain ⟨item, hitem, rfl⟩ := List.mem_map.mp hpattern
      exact ih item hitem

/-- The values of a group, one for each pattern. -/
theorem toValues_eq (items : List Pattern) :
    Pattern.toValues items = items.map Pattern.toValue := by
  induction items with
  | nil => rfl
  | cons item rest ih => rw [Pattern.toValues, ih, List.map_cons]

/-- A pattern without empty groups is written as a shape, which stands for it. -/
theorem shaped_toValue {pattern : Pattern} (h : pattern.Full) :
    Shaped pattern.toValue ∧ pattern.toValue.toPattern = pattern := by
  induction h with
  | scalar text => exact ⟨.str text, rfl⟩
  | @group items hne _ ih =>
    rw [Pattern.toValue, toValues_eq, toPattern, toPatterns_eq, List.map_map]
    refine ⟨.list (by simpa using hne) fun value hvalue => ?_, congrArg Pattern.group ?_⟩
    · obtain ⟨item, hitem, rfl⟩ := List.mem_map.mp hvalue
      exact (ih item hitem).1
    · exact (List.map_congr_left fun item hitem => (ih item hitem).2).trans (List.map_id items)

/-- The pairs that are read from the pairs of a mapping. -/
def readPairs (pairs : List (Value × Value)) : Mapping :=
  pairs.filterMap fun pair => (checkPair pair.1 pair.2).1

/-- What is read are the pairs of the grammar, in order, each as the patterns it stands for. -/
theorem readPairs_eq (pairs : List (Value × Value)) :
    readPairs pairs = (pairs.filter fun pair => decide (Readable pair.1 pair.2)).map
      fun pair => (pair.1.toPattern, pair.2.toPattern) := by
  induction pairs with
  | nil => rfl
  | cons pair rest ih =>
    rw [readPairs] at ih ⊢
    have hverdict := verdict_checkPair pair.1 pair.2
    by_cases hreadable : Readable pair.1 pair.2
    · rw [List.filterMap_cons, hverdict.of_accepted hreadable,
        List.filter_cons_of_pos (by simpa using hreadable), List.map_cons, ih]
    · rw [List.filterMap_cons, (hverdict.of_not_accepted hreadable).1,
        List.filter_cons_of_neg (by simpa using hreadable), ih]

/-- The diagnostic that a finding about a pair becomes, under the text of the pair. -/
def stampPair (journal : Journal) (key value : Value) : Finding → Diagnostic :=
  { journal with expression := some (pairText key value) }.stamp

/-- Reading pairs gives the same whatever is in the journal, and records the findings about each of
them in order. The journal is left without an expression, if there was a pair. -/
theorem checkPairs_eq (pairs : List (Value × Value)) (journal : Journal) :
    checkPairs pairs journal =
      (readPairs pairs, { journal with
        entries := journal.entries ++ pairs.flatMap fun pair =>
          (checkPair pair.1 pair.2).2.map (stampPair journal pair.1 pair.2)
        expression := if pairs = [] then journal.expression else none }) := by
  induction pairs generalizing journal with
  | nil => simp [checkPairs, readPairs]
  | cons pair rest ih =>
    obtain ⟨key, value⟩ := pair
    have hread : readPairs ((key, value) :: rest) =
        (checkPair key value).1.toList ++ readPairs rest := by
      rw [readPairs, List.filterMap_cons]
      cases (checkPair key value).1 <;> rfl
    simp only [checkPairs, Journal.recordAll_eq, ih, hread, ite_self, reduceCtorEq, if_false,
      List.flatMap_cons, ← List.append_assoc]
    -- The journal stamps later findings as before, since only its entries have changed.
    rfl

/-- Reading a mapping gives its pairs or a fault, whatever is in the journal, and keeps its tag. -/
theorem toMapping_eq (value : Value) (journal : Journal) :
    (value.toMapping journal).1 =
        (match value with
          | map pairs => .ok (readPairs pairs)
          | value => .error (.notAMapping value.kind)) ∧
      (value.toMapping journal).2.tag = journal.tag := by
  cases value with
  | map pairs =>
    rw [toMapping]
    dsimp only
    rw [checkPairs_eq]
    exact ⟨rfl, rfl⟩
  | _ => exact ⟨rfl, rfl⟩

/-- Reading pairs records the findings about each of them in order, and nothing else. -/
theorem entries_checkPairs (pairs : List (Value × Value)) (journal : Journal) :
    (checkPairs pairs journal).2.entries = journal.entries ++
      pairs.flatMap fun pair =>
        (checkPair pair.1 pair.2).2.map (stampPair journal pair.1 pair.2) := by
  rw [checkPairs_eq]

/-- A pair can be read: no text of its key is blank, nor the first text of its value. -/
def canRead (pair : Pattern × Pattern) : Bool :=
  decide ("" ∉ pair.1.leaves) && decide (pair.2.leaves.headD "" ≠ "")

/-- What it means that a pair can be read. -/
theorem canRead_iff (pair : Pattern × Pattern) :
    canRead pair = true ↔ "" ∉ pair.1.leaves ∧ pair.2.leaves.headD "" ≠ "" := by
  rw [canRead, Bool.and_eq_true, decide_eq_true_eq, decide_eq_true_eq]

/-- Pairs that are read come from pairs of the grammar. -/
theorem exists_readable_of_mem_readPairs {pairs : List (Value × Value)} {pair : Pattern × Pattern}
    (h : pair ∈ readPairs pairs) :
    ∃ key value, Readable key value ∧ pair = (key.toPattern, value.toPattern) := by
  rw [readPairs_eq] at h
  obtain ⟨written, hwritten, rfl⟩ := List.mem_map.mp h
  exact ⟨_, _, of_decide_eq_true (List.mem_filter.mp hwritten).2, rfl⟩

/-- Pairs that are read have no empty groups on either side. -/
theorem full_of_mem_readPairs {pairs : List (Value × Value)} {pair : Pattern × Pattern}
    (h : pair ∈ readPairs pairs) : pair.1.Full ∧ pair.2.Full := by
  obtain ⟨key, value, hreadable, rfl⟩ := exists_readable_of_mem_readPairs h
  exact ⟨hreadable.key_shape.1.full, hreadable.value_shape.1.full⟩

/-- Pairs that were read can be read again. -/
theorem canRead_of_mem_readPairs {pairs : List (Value × Value)} {pair : Pattern × Pattern}
    (h : pair ∈ readPairs pairs) : canRead pair = true := by
  obtain ⟨key, value, hreadable, rfl⟩ := exists_readable_of_mem_readPairs h
  exact (canRead_iff _).mpr ⟨hreadable.key_texts, hreadable.first_value⟩

/-- A pair without empty groups is written as a pair of the grammar, if it can be read. -/
theorem readable_toValue {pair : Pattern × Pattern} (h : pair.1.Full ∧ pair.2.Full) :
    Readable pair.1.toValue pair.2.toValue ↔ canRead pair = true := by
  obtain ⟨hkey, hkeyPattern⟩ := shaped_toValue h.1
  obtain ⟨hvalue, hvaluePattern⟩ := shaped_toValue h.2
  rw [canRead_iff]
  constructor
  · intro hreadable
    exact ⟨hkeyPattern ▸ hreadable.key_texts, hvaluePattern ▸ hreadable.first_value⟩
  · intro ⟨htexts, hfirst⟩
    rw [← hkeyPattern] at htexts
    rw [← hvaluePattern] at hfirst
    -- A blank text alone would be a blank text of the key, or the first one of the value.
    exact ⟨⟨hkey, fun hblank => htexts (by simp [hblank, toPattern, Pattern.leaves])⟩,
      ⟨hvalue, fun hblank => hfirst (by simp [hblank, toPattern, Pattern.leaves])⟩, htexts, hfirst⟩

end Value

namespace Mapping

variable {mapping : Mapping}

/-- A mapping without empty groups is read back but for the pairs that cannot be read. -/
theorem readPairs_toValue (h : ∀ pair ∈ mapping, pair.1.Full ∧ pair.2.Full) :
    Value.readPairs (mapping.map fun pair => (pair.1.toValue, pair.2.toValue)) =
      mapping.filter Value.canRead := by
  rw [Value.readPairs_eq, List.filter_map, List.map_map]
  have hfilter : mapping.filter ((fun pair : Value × Value =>
        decide (Value.Readable pair.1 pair.2)) ∘ fun pair => (pair.1.toValue, pair.2.toValue)) =
      mapping.filter Value.canRead :=
    List.filter_congr fun pair hpair => by
      rw [Function.comp_apply, Bool.eq_iff_iff, decide_eq_true_eq]
      exact Value.readable_toValue (h pair hpair)
  rw [hfilter]
  refine (List.map_congr_left fun pair hpair => ?_).trans (List.map_id _)
  obtain ⟨hkey, hvalue⟩ := h pair (List.mem_filter.mp hpair).1
  exact Prod.ext (Value.shaped_toValue hkey).2 (Value.shaped_toValue hvalue).2

/-- Reading back a pair that can be read finds only whether it has more texts than are stored. -/
theorem findings_checkPair_toValue {pair : Pattern × Pattern} (h : pair.1.Full ∧ pair.2.Full)
    (hread : Value.canRead pair = true) :
    (Value.checkPair pair.1.toValue pair.2.toValue).2 =
      if pair.2.leaves.length > Value.maxValues then [Value.extraValuesFinding pair.2.toValue]
      else [] := by
  have hreadable := (Value.readable_toValue h).mpr hread
  rw [(Value.verdict_checkPair _ _).of_accepted hreadable, Value.valueFindings,
    (Value.shaped_toValue h.2).2]

/-- Reading back pairs that can be read records which of them have more texts than are stored. -/
theorem entries_checkPairs_toValue (h : ∀ pair ∈ mapping, pair.1.Full ∧ pair.2.Full)
    (hread : ∀ pair ∈ mapping, Value.canRead pair = true) (journal : Journal) :
    (mapping.toValue.toMapping journal).2.entries = journal.entries ++
      (mapping.filter fun pair => pair.2.leaves.length > Value.maxValues).map fun pair =>
        Value.stampPair journal pair.1.toValue pair.2.toValue
          (Value.extraValuesFinding pair.2.toValue) := by
  refine (Value.entries_checkPairs _ journal).trans (congrArg (journal.entries ++ ·) ?_)
  rw [List.flatMap_map]
  induction mapping with
  | nil => rfl
  | cons pair rest ih =>
    obtain ⟨hpair, hrest⟩ := List.forall_mem_cons.mp h
    obtain ⟨hreadPair, hreadRest⟩ := List.forall_mem_cons.mp hread
    rw [List.flatMap_cons, ih hrest hreadRest, findings_checkPair_toValue hpair hreadPair,
      List.filter_cons]
    by_cases hextra : pair.2.leaves.length > Value.maxValues <;> simp [hextra]

/-- A mapping without empty groups whose pairs can be read is read back as itself, whatever is in
the journal, and nothing is recorded but that values will be ignored. -/
theorem toMapping_toValue (h : ∀ pair ∈ mapping, pair.1.Full ∧ pair.2.Full)
    (hread : ∀ pair ∈ mapping, Value.canRead pair = true) (journal : Journal) :
    (mapping.toValue.toMapping journal).1 = .ok mapping ∧
      ∃ found, (mapping.toValue.toMapping journal).2.entries = journal.entries ++ found ∧
        ∀ diagnostic ∈ found, diagnostic.code = .shapeExtraValues := by
  refine ⟨?_, _, entries_checkPairs_toValue h hread journal, fun diagnostic hdiagnostic => ?_⟩
  · rw [(Value.toMapping_eq mapping.toValue journal).1]
    exact congrArg Except.ok ((readPairs_toValue h).trans (List.filter_eq_self.mpr hread))
  · obtain ⟨pair, -, rfl⟩ := List.mem_map.mp hdiagnostic
    rfl

end Mapping

/-- The pairs of a mapping that was read have no empty groups and can be read again. -/
theorem canRead_of_toMapping {value : Value} {journal : Journal} {pairs : Mapping}
    (h : (value.toMapping journal).1 = .ok pairs) :
    (∀ pair ∈ pairs, pair.1.Full ∧ pair.2.Full) ∧ ∀ pair ∈ pairs, Value.canRead pair = true := by
  rw [(Value.toMapping_eq value journal).1] at h
  cases value with
  | map written =>
    obtain rfl := Except.ok.inj h
    exact ⟨fun _ hpair => Value.full_of_mem_readPairs hpair,
      fun _ hpair => Value.canRead_of_mem_readPairs hpair⟩
  | _ => contradiction

namespace Value

/-- Reading follows the grammar. Just mappings are read, each as its pairs of the grammar, in order
and as the patterns that they stand for. What is found about a pair depends on the pair alone and
is recorded under its text: for a pair of the grammar nothing but that it has more than three
texts, if it has, and for any other pair at least one error. Anything else is a fault, and nothing
but that fault is recorded. -/
theorem toMapping_by_grammar (value : Value) (journal : Journal) :
    ((∃ mapping, (value.toMapping journal).1 = .ok mapping) ↔ ∃ pairs, value = map pairs) ∧
    match value with
    | map pairs =>
      (value.toMapping journal).1 =
        .ok ((pairs.filter fun pair => decide (Readable pair.1 pair.2)).map
          fun pair => (pair.1.toPattern, pair.2.toPattern)) ∧
      ∃ found : Value → Value → List Finding,
        (value.toMapping journal).2.entries = journal.entries ++
          pairs.flatMap (fun pair =>
            (found pair.1 pair.2).map (stampPair journal pair.1 pair.2)) ∧
        ∀ key value,
          if Readable key value then
            found key value =
              if value.toPattern.leaves.length > 3 then [extraValuesFinding value] else []
          else ∃ finding ∈ found key value, finding.severity = .error
    | value =>
      value.toMapping journal =
        (.error (.notAMapping value.kind),
          journal.record ⟨.shapeNotAMapping, .error,
            "Expected a mapping of pattern => value, but got a " ++ value.kind⟩) := by
  cases value with
  | map pairs =>
    have hread : ((map pairs).toMapping journal).1 = .ok (readPairs pairs) :=
      (toMapping_eq (map pairs) journal).1
    refine ⟨⟨fun _ => ⟨pairs, rfl⟩, fun _ => ⟨_, hread⟩⟩, ?_, fun key value =>
      (checkPair key value).2, entries_checkPairs pairs journal, fun key value => ?_⟩
    · rw [hread, readPairs_eq]
    · have hverdict := verdict_checkPair key value
      split
      · rename_i hreadable
        exact congrArg Prod.snd (hverdict.of_accepted hreadable)
      · rename_i hrefused
        exact (hverdict.of_not_accepted hrefused).2
  | _ => exact ⟨⟨fun ⟨_, hread⟩ => by contradiction, fun ⟨_, hmap⟩ => by contradiction⟩, rfl⟩

/-- Reading again changes nothing. What was read is read as itself, whatever is in the journal then,
and the journal gets one finding for each pair with more than three texts, in order and under the
pair's text, and no other. -/
theorem toMapping_again (value : Value) (journal again : Journal) (mapping : Mapping)
    (h : (value.toMapping journal).1 = .ok mapping) :
    (mapping.toValue.toMapping again).1 = .ok mapping ∧
      (mapping.toValue.toMapping again).2.entries = again.entries ++
        (mapping.filter fun pair => pair.2.leaves.length > 3).map fun pair =>
          stampPair again pair.1.toValue pair.2.toValue (extraValuesFinding pair.2.toValue) := by
  obtain ⟨hfull, hread⟩ := canRead_of_toMapping h
  exact ⟨(Mapping.toMapping_toValue hfull hread again).1,
    Mapping.entries_checkPairs_toValue hfull hread again⟩

/-- Pairs with a number, a nested key, blank texts and too many of them, among pairs that are
dropped for a blank text, an empty sequence and a truth value. -/
def variedPairs : Value :=
  .map [(.int (-1), .list [.str "x", .list [.str "", .int 2], .str "z"]), (.str "", .str "a"),
    (.list [.str "k", .list [.str "g"]], .list [.int 1, .list [.str ""], .str "b", .str "c"]),
    (.str "e", .list [.str "a", .list []]), (.str "f", .list [.bool true])]

/-- The two pairs that are left are read again under settings that make their warning an error. -/
theorem toMapping_again_variedPairs :
    let mapping : Mapping :=
      [(.scalar "-1", .group [.scalar "x", .group [.scalar "", .scalar "2"], .scalar "z"]),
        (.group [.scalar "k", .group [.scalar "g"]],
          .group [.scalar "1", .group [.scalar ""], .scalar "b", .scalar "c"])]
    let again : Journal := { overrides := .ofList [("SHAPE_EXTRA_VALUES", .error)] }
    (variedPairs.toMapping { }).1 = .ok mapping ∧
      (mapping.toValue.toMapping again).1 = .ok mapping ∧
      (mapping.toValue.toMapping again).2.entries.map (fun found => (found.code, found.severity)) =
        [(.shapeExtraValues, .error), (.shapeExtraValues, .error)] := by
  intro mapping again
  have hread : (variedPairs.toMapping { }).1 = .ok mapping := by rfl
  obtain ⟨hagain, hentries⟩ := toMapping_again variedPairs { } again mapping hread
  refine ⟨hread, hagain, ?_⟩
  rw [hentries]
  decide +kernel

end Value

end TranslitScheme
