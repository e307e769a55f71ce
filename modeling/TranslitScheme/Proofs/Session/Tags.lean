import TranslitScheme.Proofs.Repetition.Operation
import TranslitScheme.Proofs.Store.Tags

/-!
# Sessions without tags

A session hands tokens to its sink under the active tag and remembers them with it, and otherwise
does not look at tags. `Session.bare` erases them: the tags of stored, remembered and listed tokens,
and the active tag unless it is so long that the sink refuses whatever carries it. The places of
diagnostics are erased as well, as nothing looks at them either.

Every operation does the same on the bare session, and leaves what is bare of what it leaves. What
is derived from tokens, by compounds or by templates, is derived without their tags.
-/

namespace TranslitScheme

/-- A diagnostic without its place. -/
def Diagnostic.unlocated (diagnostic : Diagnostic) : Diagnostic :=
  { diagnostic with location := none }

/-- A journal without places, and without an active tag that is short enough to be stored. -/
def Journal.bare (journal : Journal) : Journal :=
  { journal with
    entries := journal.entries.map Diagnostic.unlocated
    location := none
    tag := Token.untag journal.tag }

/-- A list of tokens without their tags. -/
def NamedList.untagged (list : NamedList) : NamedList :=
  { list with tokens := list.tokens.map Token.untagged }

/-- Lists keep their names without tags. -/
theorem NamedList.map_name_untagged (lists : List NamedList) :
    (lists.map untagged).map name = lists.map name := by
  rw [List.map_map]
  rfl

/-- Lists of tokens without their tags. -/
def NamedLists.untagged (registry : NamedLists) : NamedLists where
  lists := registry.lists.map NamedList.untagged
  scope := registry.scope
  indexed := registry.indexed.of_names_eq (NamedList.map_name_untagged registry.lists)

/-- A session without tags and places. -/
def Session.bare (session : Session TokenStore) : Session TokenStore :=
  { session with
    sink := session.sink.untagged
    journal := session.journal.bare
    built := session.built.map Token.untagged
    lists := session.lists.untagged }

/-- What an operation leaves, without tags and places. -/
def Session.bareIn {α : Type} (outcome : α × Session TokenStore) : α × Session TokenStore :=
  (outcome.1, outcome.2.bare)

namespace Journal

/-- A finding is recorded. -/
theorem record_bare (journal : Journal) (finding : Finding) :
    journal.bare.record finding = (journal.record finding).bare := by
  simp [record, bare, stamp, Diagnostic.unlocated]

/-- Findings are recorded. -/
theorem recordAll_bare (journal : Journal) (findings : List Finding) :
    journal.bare.recordAll findings = (journal.recordAll findings).bare := by
  induction findings generalizing journal with
  | nil => rfl
  | cons finding rest ih =>
    change (journal.bare.record finding).recordAll rest = _
    rw [record_bare, ih]
    rfl

/-- An error under an expression of its own is recorded. -/
theorem errorIn_bare (journal : Journal) (code : DiagnosticCode) (expression message : String) :
    journal.bare.errorIn code expression message =
      (journal.errorIn code expression message).bare := by
  simp [errorIn, error, record, bare, stamp, Diagnostic.unlocated]

end Journal

namespace Value

/-- Pairs are read to the same mapping. -/
theorem checkPairs_bare (pairs : List (Value × Value)) (journal : Journal) :
    checkPairs pairs journal.bare =
      ((checkPairs pairs journal).1, (checkPairs pairs journal).2.bare) := by
  induction pairs generalizing journal with
  | nil => rfl
  | cons pair rest ih =>
    obtain ⟨key, value⟩ := pair
    have hfound := Journal.recordAll_bare
      { journal with expression := some (pairText key value) } (checkPair key value).2
    have hrest := ih { { journal with expression := some (pairText key value) }.recordAll
      (checkPair key value).2 with expression := none }
    have hread : checkPairs rest { { journal.bare with
        expression := some (pairText key value) }.recordAll (checkPair key value).2 with
          expression := none } = _ := (congrArg (fun reported : Journal =>
        checkPairs rest { reported with expression := none }) hfound).trans hrest
    simp only [checkPairs, hread]

/-- A value is read to the same mapping. -/
theorem toMapping_bare (value : Value) (journal : Journal) :
    value.toMapping journal.bare =
      ((value.toMapping journal).1, (value.toMapping journal).2.bare) := by
  cases value with
  | map pairs => simp only [toMapping, checkPairs_bare]
  | _ => exact congrArg (Prod.mk _) (Journal.record_bare journal _)

end Value

namespace NamedLists

/-- A token is recorded in the same lists. -/
theorem record_untagged (registry : NamedLists) (token : Token) :
    registry.untagged.record token.untagged = (registry.record token).untagged := by
  refine NamedLists.ext ((lists_record _ _).trans ?_) rfl
  change (registry.lists.map NamedList.untagged).mapIdx _ =
    (registry.record token).lists.map NamedList.untagged
  rw [lists_record]
  refine List.ext_getElem? fun place => ?_
  simp only [List.getElem?_mapIdx, List.getElem?_map, Option.map_map]
  refine congrArg (Option.map · _) (funext fun list => ?_)
  have hscope : registry.untagged.scope = registry.scope := rfl
  rw [Function.comp_apply, Function.comp_apply, hscope]
  split <;> simp [NamedList.push, NamedList.untagged]

/-- The same list is found. -/
theorem get?_untagged (registry : NamedLists) (name : String) :
    registry.untagged.get? name = (registry.get? name).map NamedList.untagged := by
  simp only [get?, untagged, List.find?_map]
  rfl

/-- The same lists are declared. -/
theorem declare_untagged (lists : List NamedList) (name : String) :
    NamedList.declare (lists.map NamedList.untagged) name =
      (NamedList.declare lists name).map NamedList.untagged := by
  unfold NamedList.declare
  rw [NamedList.map_name_untagged]
  split
  · rfl
  · rw [List.map_append]
    rfl

/-- The same scope is opened, or none can be. -/
theorem openScope_untagged (registry : NamedLists) (names : List Value) :
    registry.untagged.openScope names =
      ((registry.openScope names).1, (registry.openScope names).2.untagged) := by
  have hdeclared (texts : List String) (lists : List NamedList) :
      texts.foldl NamedList.declare (lists.map NamedList.untagged) =
        (texts.foldl NamedList.declare lists).map NamedList.untagged := by
    induction texts generalizing lists with
    | nil => rfl
    | cons text rest ih => rw [List.foldl_cons, List.foldl_cons, declare_untagged, ih]
  have hscope : registry.untagged.scope = registry.scope := rfl
  unfold openScope
  rw [hscope]
  cases registry.scope with
  | some places => rfl
  | none =>
    cases names with
    | nil => rfl
    | cons name rest =>
      dsimp only
      cases scopeNames (name :: rest) with
      | error fault => rfl
      | ok texts =>
        refine Prod.ext rfl (NamedLists.ext ?_ (congrArg some ?_))
        · refine (registry.untagged.indexed.closed.locateAll_eq texts).1.trans ?_
          refine (hdeclared texts registry.lists).trans (congrArg _ ?_)
          exact (registry.indexed.closed.locateAll_eq texts).1.symm
        · exact NamedList.fst_locateAll_congr (NamedList.map_name_untagged registry.lists) texts

end NamedLists

namespace Token

/-- Compounds are made without tags. -/
theorem compounds_untagged (consonants vowels : List Token) (inherent : Char) :
    compounds (consonants.map untagged) (vowels.map untagged) inherent =
      compounds consonants vowels inherent := by
  simp only [compounds, List.flatMap_map, List.filterMap_map]
  rfl

end Token

/-- Templates are expanded without tags. -/
theorem Template.combine_untagged (tokens : List Token) (template : Mapping) :
    combine (tokens.map Token.untagged) template = combine tokens template := by
  simp only [combine, expansions, List.flatMap_map]
  rfl

/-- Tokens are selected by anything but their tags. -/
theorem TokenFilter.selects_untagged (filter : TokenFilter) (token : Token) :
    filter.selects token.untagged = filter.selects token := by
  cases filter <;> rfl

namespace Session

variable (session : Session TokenStore)

/-- A problem with a token is reported. -/
theorem refuse_bare (code : DiagnosticCode) (token : Token) (message : String) :
    (session.refuse code token message).bare = session.bare.refuse code token message :=
  congrArg (fun journal => { session.bare with journal })
    (Journal.errorIn_bare session.journal code token.expression message).symm

/-- A fault is recorded. -/
theorem abort_bare {α : Type} (fault : Fault) :
    session.bare.abort (α := α) fault = bareIn (session.abort fault) :=
  congrArg (fun journal => (_, { session.bare with journal }))
    (Journal.record_bare session.journal fault.finding)

/-- A token is remembered without its tag. -/
theorem remember_bare (token : Token) :
    (session.remember token).bare = session.bare.remember token.untagged := by
  have hlists := NamedLists.record_untagged session.lists token
  simp only [remember, bare, List.map_append, List.map_singleton]
  rw [hlists]

/-- Tokens of a category are selected without their tags. -/
theorem tokens_bare (category : Category) (filter : TokenFilter) :
    session.bare.tokens category filter =
      (session.tokens category filter).map Token.untagged := by
  simp only [tokens, bare, List.filter_map]
  congr 1
  refine List.filter_congr fun token _ => ?_
  rw [Function.comp_apply, TokenFilter.selects_untagged]
  rfl

/-- A token is accepted or refused alike. -/
theorem submit_bare (token : Token) :
    session.bare.submit token = bareIn (session.submit token) := by
  by_cases hblank : Blank (session.tagged token)
  · rw [submit_of_blank session token hblank, submit_of_blank session.bare token hblank]
    exact congrArg (Prod.mk false) (session.refuse_bare _ _ _).symm
  · have hcreated := session.sink.createToken_untag token session.journal.tag
    change session.bare.sink.createToken (session.bare.tagged token) =
      ((session.sink.createToken (session.tagged token)).1,
        (session.sink.createToken (session.tagged token)).2.untagged) at hcreated
    have hfits := @TokenStore.tagFits_of_createToken_ok (session.tagged token) session.sink
    rw [submit_of_not_blank session token hblank, submit_of_not_blank session.bare token hblank,
      hcreated]
    generalize session.sink.createToken (session.tagged token) = created at hfits ⊢
    obtain ⟨refusal | ⟨⟩, sink⟩ := created
    · exact congrArg (Prod.mk false)
        (refuse_bare { session with sink } .sinkRejected (session.tagged token) _).symm
    · have htagged : session.bare.tagged token = (session.tagged token).untagged := by
        have herased : Token.untag session.journal.tag = none := Token.untag_of_fits (hfits rfl)
        simp only [tagged, bare, Journal.bare, herased]
        rfl
      dsimp only
      rw [htagged]
      exact congrArg (Prod.mk true)
        (remember_bare { session with sink } (session.tagged token)).symm

/-- The same tokens are accepted. -/
theorem submitAll_bare (tokens : List Token) :
    session.bare.submitAll tokens = bareIn (session.submitAll tokens) := by
  induction tokens generalizing session with
  | nil => rfl
  | cons token rest ih =>
    have hrest := ih (session.submit token).2
    simp only [submitAll, submit_bare, bareIn, hrest]

/-- A declaration does the same. -/
theorem build_bare (category : Category) (options : TokenOptions) (value : Value) :
    session.bare.build category options value =
      bareIn (session.build category options value) := by
  have hread := Value.toMapping_bare value session.journal
  change value.toMapping session.bare.journal = _ at hread
  unfold build
  rw [hread]
  rcases value.toMapping session.journal with ⟨fault | mapping, journal⟩
  · rfl
  · dsimp only
    cases Priority.ofSetting options.priority with
    | error fault => exact abort_bare { session with journal } fault
    | ok priority =>
      cases Acceptance.ofSetting options.acceptIf with
      | error fault => exact abort_bare { session with journal } fault
      | ok acceptance =>
        refine congrArg (Prod.mk (Except.ok ())) ?_
        exact congrArg Prod.snd (submitAll_bare { session with journal } _)

/-- Declaring the non-joiner does the same. -/
theorem nonJoiner_bare (value : Value) :
    session.bare.nonJoiner value = bareIn (session.nonJoiner value) :=
  build_bare { session with ownNonJoiner := true } .nonJoiner { } value

/-- Declaring the joiner does the same. -/
theorem joiner_bare (value : Value) : session.bare.joiner value = bareIn (session.joiner value) :=
  build_bare { session with ownJoiner := true } .joiner { } value

/-- Setting a switch does the same. -/
theorem configure_bare (option : SinkOption) :
    session.bare.configure option = (session.configure option).bare :=
  congrArg (fun ran => { session.bare with sink := ran.2 })
    (session.sink.perform_untagged (.configure option) fun _ => by simp)

/-- The same compounds are built. -/
theorem generateCompounds_bare :
    session.bare.generateCompounds = bareIn session.generateCompounds := by
  rw [generateCompounds, generateCompounds, tokens_bare, tokens_bare, Token.compounds_untagged]
  exact session.submitAll_bare _

/-- The same dead consonants are read back. -/
theorem refreshDeadConsonants_bare :
    session.bare.refreshDeadConsonants = session.refreshDeadConsonants.bare := by
  let isOther (token : Token) : Bool := token.category != .deadConsonant
  have hkept : (session.built.map Token.untagged).filter isOther =
      (session.built.filter isOther).map Token.untagged := by
    rw [List.filter_map]
    rfl
  have hbuilt : (session.built.map Token.untagged).filter isOther ++
        session.sink.untagged.tokensOf .deadConsonant =
      (session.built.filter isOther ++ session.sink.tokensOf .deadConsonant).map
        Token.untagged := by
    rw [hkept, session.sink.tokensOf_untagged, List.map_append]
  exact congrArg (fun built : List Token => ({ session.bare with built } : Session TokenStore))
    hbuilt

/-- A source has the same tokens but for their tags, or is unknown. -/
theorem sourceTokens_bare (source : TokenSource) :
    session.bare.sourceTokens source =
      ((session.sourceTokens source).1.map (List.map Token.untagged),
        (session.sourceTokens source).2.bare) := by
  cases source with
  | category category =>
    cases category with
    | deadConsonant =>
      simp only [sourceTokens, deadConsonants, refreshDeadConsonants_bare, tokens_bare]
      rfl
    | _ =>
      exact congrArg (fun tokens => (Except.ok tokens, session.bare)) (session.tokens_bare _ _)
  | list name =>
    have hfound := session.lists.get?_untagged name
    change session.bare.lists.get? name = _ at hfound
    simp only [sourceTokens, customList, hfound]
    cases session.lists.get? name with
    | none => exact session.abort_bare _
    | some list => rfl

/-- A template expands to the same mapping. -/
theorem combine_bare (source : TokenSource) (filter : TokenFilter) (template : Value) :
    session.bare.combine source filter template =
      bareIn (session.combine source filter template) := by
  have hread := Value.toMapping_bare template session.journal
  change template.toMapping session.bare.journal = _ at hread
  unfold combine
  rw [hread]
  rcases template.toMapping session.journal with ⟨fault | mapping, journal⟩
  · rfl
  · have hasked := sourceTokens_bare { session with journal } source
    change ({ session.bare with journal := journal.bare } : Session TokenStore).sourceTokens
      source = _ at hasked
    dsimp only
    rw [hasked]
    rcases sourceTokens { session with journal } source with ⟨fault | tokens, asked⟩
    · rfl
    · have hselected : (tokens.map Token.untagged).filter filter.selects =
          (tokens.filter filter.selects).map Token.untagged := by
        rw [List.filter_map]
        exact congrArg (List.map _)
          (List.filter_congr fun token _ => filter.selects_untagged token)
      simp only [Except.map, hselected, Template.combine_untagged, bareIn]

/-- The same groups are reported. -/
theorem reportGroups_bare (mapping : Mapping) (journal : Journal) :
    reportGroups mapping journal.bare = (reportGroups mapping journal).bare := by
  induction mapping generalizing journal with
  | nil => rfl
  | cons pair rest ih =>
    obtain ⟨key, value⟩ := pair
    unfold reportGroups
    split
    · exact ih journal
    · let expressed : Journal :=
        { journal with expression := some (key.display ++ " => " ++ value.display) }
      let finding : Finding := ⟨.shapeInvalidType, .error,
        "Stem rules and exceptions take a single string on each side"⟩
      have hreported := congrArg (fun reported : Journal =>
        reportGroups rest { reported with expression := none }) (expressed.record_bare finding)
      exact hreported.trans (ih { expressed.record finding with expression := none })

variable {create : TokenStore → String × String → Except SinkError Unit × TokenStore}

/-- The same pairs are handed to the sink. -/
theorem submitPairs_bare (hcreate : ∀ store pair, create store.untagged pair =
      ((create store pair).1, (create store pair).2.untagged))
    (what : String) (pairs : List (String × String)) :
    submitPairs create what pairs session.bare = (submitPairs create what pairs session).bare := by
  induction pairs generalizing session with
  | nil => rfl
  | cons pair rest ih =>
    have hcreated := hcreate session.sink pair
    change create session.bare.sink pair = _ at hcreated
    rw [submitPairs, submitPairs, hcreated]
    rcases create session.sink pair with ⟨refusal | ⟨⟩, sink⟩
    · have hreported := congrArg (fun journal : Journal =>
        submitPairs create what rest { session.bare with sink := sink.untagged, journal })
        (session.journal.errorIn_bare .sinkRejected (pair.1 ++ " => " ++ pair.2)
          ("could not create " ++ what ++ ": " ++ refusal.message))
      exact hreported.trans (ih { session with
        sink
        journal := session.journal.errorIn .sinkRejected (pair.1 ++ " => " ++ pair.2)
          ("could not create " ++ what ++ ": " ++ refusal.message) })
    · exact ih { session with sink }

/-- The same pairs are declared. -/
theorem createPairs_bare (hcreate : ∀ store pair, create store.untagged pair =
      ((create store pair).1, (create store pair).2.untagged))
    (value : Value) (what : String) :
    session.bare.createPairs value create what =
      bareIn (session.createPairs value create what) := by
  have hread := Value.toMapping_bare value session.journal
  change value.toMapping session.bare.journal = _ at hread
  unfold createPairs
  rw [hread]
  rcases value.toMapping session.journal with ⟨fault | mapping, journal⟩
  · rfl
  · dsimp only
    rw [reportGroups_bare]
    exact congrArg (Prod.mk _) (submitPairs_bare
      { session with journal := reportGroups mapping journal } hcreate what (plainPairs mapping))

end Session

end TranslitScheme
