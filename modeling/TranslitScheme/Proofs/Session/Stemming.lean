import TranslitScheme.Proofs.Session.Remarks
import TranslitScheme.Session.Stemming

/-!
# No pair of endings is lost

Stem rules and exceptions pass three filters. Reading drops the pairs that are not of the right
shape, of the others those with a group on either side are reported, and the rest is handed to the
sink, which may refuse a pair. A token store refuses pairs with a blank ending, but reading has
dropped these, so that each pair that is read is either stored or reported.
-/

namespace TranslitScheme

/-- Both sides of a pair are plain texts. -/
def Mapping.Plain (pair : Pattern × Pattern) : Prop :=
  ∃ key value, pair = (.scalar key, .scalar value)

instance : DecidablePred Mapping.Plain
  | (.scalar key, .scalar value) => isTrue ⟨key, value, rfl⟩
  | (.group _, _) => isFalse fun ⟨_, _, h⟩ => by simp at h
  | (.scalar _, .group _) => isFalse fun ⟨_, _, h⟩ => by simp at h

namespace Session

/-- What is found about a pair that has a group on either side. -/
def groupFinding : Finding :=
  ⟨.shapeInvalidType, .error, "Stem rules and exceptions take a single string on each side"⟩

/-- The remarks on the pairs of a mapping that have a group on either side. -/
def groupRemarks (mapping : Mapping) : List Remark :=
  (mapping.filter fun pair => ¬ Mapping.Plain pair).map fun pair =>
    ⟨.endings pair.1 pair.2, groupFinding⟩

/-- The pairs of plain texts are those of which both sides are plain, in order. -/
theorem map_plainPairs (mapping : Mapping) :
    (plainPairs mapping).map (fun pair => (Pattern.scalar pair.1, Pattern.scalar pair.2)) =
      mapping.filter fun pair => Mapping.Plain pair := by
  induction mapping with
  | nil => rfl
  | cons pair rest ih =>
    rw [plainPairs] at ih ⊢
    obtain ⟨key | items, value | values⟩ := pair
    · exact congrArg ((Pattern.scalar key, Pattern.scalar value) :: ·) ih
    all_goals exact ih

/-- Where nothing is quoted, pairs with a group on either side are remarked on, and nothing is
quoted afterwards. -/
theorem reportGroups_eq_tell (mapping : Mapping) {journal : Journal}
    (h : journal.expression = none) :
    reportGroups mapping journal = journal.tell (groupRemarks mapping) := by
  induction mapping generalizing journal with
  | nil => exact (journal.tell_nil).symm
  | cons pair rest ih =>
    obtain ⟨key, value⟩ := pair
    have hreport : { { journal with
          expression := some (key.display ++ " => " ++ value.display) }.error .shapeInvalidType
            "Stem rules and exceptions take a single string on each side" with
        expression := none } = journal.tell [⟨.endings key value, groupFinding⟩] := by
      rw [← h]
      rfl
    have hgroup : reportGroups rest (journal.tell [⟨.endings key value, groupFinding⟩]) =
        journal.tell (⟨.endings key value, groupFinding⟩ :: groupRemarks rest) := by
      have htold : (journal.tell [⟨.endings key value, groupFinding⟩]).expression = none := h
      rw [ih htold, Journal.tell_tell, List.singleton_append]
    rw [reportGroups]
    cases key with
    | scalar key =>
      cases value with
      | scalar value => exact ih h
      | group items => exact (congrArg (reportGroups rest) hreport).trans hgroup
    | group items => exact (congrArg (reportGroups rest) hreport).trans hgroup

section Submission

variable {σ : Type} (create : σ → String × String → Except SinkError Unit × σ) (what : String)

/-- The remarks on pairs that are handed to an operation of the sink one after the other, and the
sink that is left. Only a refusal is remarked on. -/
def handOver (sink : σ) : List (String × String) → List Remark × σ
  | [] => ([], sink)
  | pair :: rest =>
    match create sink pair with
    | (.ok (), sink) => handOver sink rest
    | (.error refusal, sink) =>
      let refused : Remark :=
        ⟨.endings (.scalar pair.1) (.scalar pair.2),
          ⟨.sinkRejected, .error, "could not create " ++ what ++ ": " ++ refusal.message⟩⟩
      let (remarks, sink) := handOver sink rest
      (refused :: remarks, sink)

/-- Handing pairs to the sink tells the remarks on them, and changes nothing else. -/
theorem submitPairs_eq_tell (pairs : List (String × String)) (session : Session σ) :
    submitPairs create what pairs session =
      let (remarks, sink) := handOver create what session.sink pairs
      { session with sink, journal := session.journal.tell remarks } := by
  induction pairs generalizing session with
  | nil => simp only [submitPairs, handOver, Journal.tell_nil]
  | cons pair rest ih =>
    rw [submitPairs, handOver]
    rcases create session.sink pair with ⟨refusal | ⟨⟩, sink⟩
    · have hrefused := session.journal.errorIn_eq_tell
        (show (Subject.endings (.scalar pair.1) (.scalar pair.2)).quoted =
          some (pair.1 ++ " => " ++ pair.2) from rfl)
        .sinkRejected ("could not create " ++ what ++ ": " ++ refusal.message)
      simp only [ih, hrefused, Journal.tell_tell, List.singleton_append]
    · exact ih { session with sink }

variable {create} in
/-- A sink that accepts all pairs leaves nothing to remark on. What it does with a list of pairs is
given, as far as it does the same with them one by one. -/
theorem handOver_of_accepts (store : σ → List (String × String) → σ)
    (hnil : ∀ sink, store sink [] = sink)
    (hcons : ∀ sink pair rest, store (store sink [pair]) rest = store sink (pair :: rest))
    {pairs : List (String × String)}
    (haccepts : ∀ pair ∈ pairs, ∀ sink, create sink pair = (.ok (), store sink [pair])) (sink : σ) :
    handOver create what sink pairs = ([], store sink pairs) := by
  induction pairs generalizing sink with
  | nil => rw [handOver, hnil]
  | cons pair rest ih =>
    obtain ⟨hpair, hrest⟩ := List.forall_mem_cons.mp haccepts
    simp only [handOver, hpair, ih hrest, hcons]

end Submission

variable {σ : Type}

/-- The remarks on the pairs of a mapping that were read, and the sink that is left: first those
with a group on either side, and then those that the sink refuses. -/
def pairRemarks (create : σ → String × String → Except SinkError Unit × σ) (what : String)
    (sink : σ) (mapping : Mapping) : List Remark × σ :=
  let (refused, sink) := handOver create what sink (plainPairs mapping)
  (groupRemarks mapping ++ refused, sink)

/-- Pairs of endings are read, and then the remarks on what was read are told. -/
theorem createPairs_map (session : Session σ) (pairs : List (Value × Value))
    (create : σ → String × String → Except SinkError Unit × σ) (what : String) :
    session.createPairs (.map pairs) create what =
      let (remarks, sink) := pairRemarks create what session.sink (Value.readPairs pairs)
      (.ok (), { session with
        sink
        journal := ((Value.map pairs).toMapping session.journal).2.tell remarks }) := by
  have hread : (Value.map pairs).toMapping session.journal =
      (.ok (Value.readPairs pairs), ((Value.map pairs).toMapping session.journal).2) :=
    Prod.ext (Value.toMapping_eq _ _).1 rfl
  have hgroups : reportGroups (Value.readPairs pairs)
        ((Value.map pairs).toMapping session.journal).2 =
      ((Value.map pairs).toMapping session.journal).2.tell
        (groupRemarks (Value.readPairs pairs)) := by
    cases pairs with
    | nil => exact (Journal.tell_nil _).symm
    | cons pair rest =>
      refine reportGroups_eq_tell _ ?_
      change (Value.checkPairs (pair :: rest) session.journal).2.expression = none
      rw [Value.checkPairs_eq_tell]
      rfl
  rw [createPairs, hread]
  simp only [hgroups, submitPairs_eq_tell, Journal.tell_tell, pairRemarks]

/-- Pairs of plain texts that were read have no blank text. -/
theorem not_blank_of_mem_plainPairs {pairs : List (Value × Value)} {pair : String × String}
    (h : pair ∈ plainPairs (Value.readPairs pairs)) : pair.1 ≠ "" ∧ pair.2 ≠ "" := by
  have hmem : (Pattern.scalar pair.1, Pattern.scalar pair.2) ∈ Value.readPairs pairs := by
    have hmap := List.mem_map_of_mem
      (f := fun pair : String × String => (Pattern.scalar pair.1, Pattern.scalar pair.2)) h
    rw [map_plainPairs] at hmap
    exact List.mem_of_mem_filter hmap
  obtain ⟨hkey, hvalue⟩ := (Value.canRead_iff _).mp (Value.canRead_of_mem_readPairs hmem)
  exact ⟨fun hblank => hkey (by simp [Pattern.leaves, hblank]),
    fun hblank => hvalue (by simp [Pattern.leaves, hblank])⟩

/-- A token store keeps all stem rules without a blank ending. -/
theorem handOver_createStemRule (what : String) {pairs : List (String × String)}
    (h : ∀ pair ∈ pairs, pair.1 ≠ "" ∧ pair.2 ≠ "") (store : TokenStore) :
    handOver (fun sink pair => TokenSink.createStemRule sink ⟨pair.1, pair.2⟩) what store pairs =
      ([], { store with
        stemRules := store.stemRules ++ pairs.map fun pair => ⟨pair.1, pair.2⟩ }) := by
  let kept (store : TokenStore) (pairs : List (String × String)) : TokenStore :=
    { store with stemRules := store.stemRules ++ pairs.map fun pair => ⟨pair.1, pair.2⟩ }
  have haccepts (pair : String × String) (hpair : pair ∈ pairs) (store : TokenStore) :
      store.createStemRule ⟨pair.1, pair.2⟩ = (.ok (), kept store [pair]) :=
    if_neg (not_or.mpr (h pair hpair))
  exact handOver_of_accepts what kept (by simp [kept]) (by simp [kept]) haccepts store

/-- A token store keeps all stem exceptions without a blank text. -/
theorem handOver_createStemException (what : String) {pairs : List (String × String)}
    (h : ∀ pair ∈ pairs, pair.1 ≠ "" ∧ pair.2 ≠ "") (store : TokenStore) :
    handOver (fun sink pair => TokenSink.createStemException sink ⟨pair.1, pair.2⟩) what store
        pairs =
      ([], { store with
        stemExceptions := store.stemExceptions ++ pairs.map fun pair => ⟨pair.1, pair.2⟩ }) := by
  let kept (store : TokenStore) (pairs : List (String × String)) : TokenStore :=
    { store with
      stemExceptions := store.stemExceptions ++ pairs.map fun pair => ⟨pair.1, pair.2⟩ }
  have haccepts (pair : String × String) (hpair : pair ∈ pairs) (store : TokenStore) :
      store.createStemException ⟨pair.1, pair.2⟩ = (.ok (), kept store [pair]) :=
    (if_neg (h pair hpair).1).trans (if_neg (h pair hpair).2)
  exact handOver_of_accepts what kept (by simp [kept]) (by simp [kept]) haccepts store

/-- Pairs of endings are taken of mappings only. -/
theorem createPairs_ok_iff (session : Session σ) (value : Value)
    (create : σ → String × String → Except SinkError Unit × σ) (what : String) :
    (session.createPairs value create what).1 = .ok () ↔ ∃ pairs, value = .map pairs := by
  cases value with
  | map pairs => exact iff_of_true (by rw [createPairs_map]) ⟨pairs, rfl⟩
  | _ => exact iff_of_false (fun h => by cases h) fun ⟨_, h⟩ => by cases h

/-- No pair of endings is lost, and none that was read is refused. Stem rules and exceptions are
taken of just the mappings. Of the pairs that are read, those of plain texts are appended to the
rules or exceptions of the store, in order and with these texts, and each of the others has one
diagnostic, which quotes it. Nothing else is recorded after reading, and nothing else in the session
is changed. -/
theorem endings_accounted (session : Session TokenStore) :
    (∀ value,
      ((session.stemRules value).1 = .ok () ↔ ∃ pairs, value = .map pairs) ∧
      ((session.stemExceptions value).1 = .ok () ↔ ∃ pairs, value = .map pairs)) ∧
    ∀ pairs, ∃ (mapping : Mapping) (validated : Journal) (plain : List (String × String)),
      (Value.map pairs).toMapping session.journal = (.ok mapping, validated) ∧
      plain.map (fun pair => (Pattern.scalar pair.1, Pattern.scalar pair.2)) =
        (mapping.filter fun pair => Mapping.Plain pair) ∧
      let told : List Diagnostic :=
        (mapping.filter fun pair => ¬ Mapping.Plain pair).map fun pair =>
          { code := .shapeInvalidType
            severity := validated.overrides.severityOf .shapeInvalidType .error
            message := "Stem rules and exceptions take a single string on each side"
            location := validated.location
            expression := some (pair.1.display ++ " => " ++ pair.2.display) }
      let journal := { validated with entries := validated.entries ++ told }
      session.stemRules (.map pairs) =
        (.ok (), { session with
          journal
          sink := { session.sink with
            stemRules := session.sink.stemRules ++ plain.map fun pair => ⟨pair.1, pair.2⟩ } }) ∧
      session.stemExceptions (.map pairs) =
        (.ok (), { session with
          journal
          sink := { session.sink with
            stemExceptions :=
              session.sink.stemExceptions ++ plain.map fun pair => ⟨pair.1, pair.2⟩ } }) := by
  refine ⟨fun value => ⟨createPairs_ok_iff session value _ _, createPairs_ok_iff session value _ _⟩,
    fun pairs => ?_⟩
  have hplain : ∀ pair ∈ plainPairs (Value.readPairs pairs), pair.1 ≠ "" ∧ pair.2 ≠ "" :=
    fun pair hpair => not_blank_of_mem_plainPairs hpair
  refine ⟨Value.readPairs pairs, ((Value.map pairs).toMapping session.journal).2,
    plainPairs (Value.readPairs pairs), Prod.ext (Value.toMapping_eq _ _).1 rfl,
    map_plainPairs _, ?_⟩
  intro told journal
  have htold : ((Value.map pairs).toMapping session.journal).2.tell
      (groupRemarks (Value.readPairs pairs)) = journal := by
    rw [Journal.tell, groupRemarks, List.map_map]
    rfl
  constructor
  · rw [stemRules, createPairs_map]
    simp only [pairRemarks, handOver_createStemRule "stem rule" hplain, List.append_nil, htold]
  · rw [stemExceptions, createPairs_map]
    simp only [pairRemarks, handOver_createStemException "stem exception" hplain, List.append_nil,
      htold]

end Session

end TranslitScheme
