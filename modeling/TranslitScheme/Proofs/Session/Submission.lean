import TranslitScheme.Proofs.Repetition.Session

/-!
# What becomes of submitted tokens

Submitting tokens writes to five parts of a session at once. Only one of them decides: the sink, as
each token is put to the sink that its predecessors left. `TokenSink.considerAll` is the run of the
sink alone, with a ruling on each token, and `submitAll_eq` says that everything else is read off
the rulings. Accepted tokens are remembered in order, and each of the others has one diagnostic.

Nothing is assumed about the sink. It may refuse any token for any reason, also one that it accepted
before, and may change with every token that it refuses.
-/

namespace TranslitScheme

/-- What comes of a token: a finding about it, or none if the sink accepts it. -/
structure Ruling where
  token : Token
  finding? : Option Finding

namespace TokenSink

variable {σ : Type} [TokenSink σ]

/-- What is found about a token, and the sink that is left. A blank token is not put to the sink. -/
def consider (sink : σ) (token : Token) : Option Finding × σ :=
  if token.pattern = "" ∨ token.value1 = "" then
    (some ⟨.shapeEmptyValue, .error, "Empty patterns and values are not allowed"⟩, sink)
  else
    match createToken sink token with
    | (.ok (), sink) => (none, sink)
    | (.error refusal, sink) => (some ⟨.sinkRejected, .error, refusal.message⟩, sink)

/-- A blank token is not put to the sink. -/
theorem consider_of_blank (sink : σ) (token : Token) (hblank : Session.Blank token) :
    consider sink token =
      (some ⟨.shapeEmptyValue, .error, "Empty patterns and values are not allowed"⟩, sink) :=
  if_pos hblank

/-- A token that is not blank is found to be what the sink makes of it. -/
theorem consider_of_not_blank (sink : σ) (token : Token) (hblank : ¬ Session.Blank token) :
    consider sink token =
      match createToken sink token with
      | (.ok (), sink) => (none, sink)
      | (.error refusal, sink) => (some ⟨.sinkRejected, .error, refusal.message⟩, sink) :=
  if_neg hblank

/-- The rulings on tokens that are considered one after the other, and the sink that is left. -/
def considerAll (sink : σ) : List Token → List Ruling × σ
  | [] => ([], sink)
  | token :: rest =>
    let (finding?, sink) := consider sink token
    let (rulings, sink) := considerAll sink rest
    (⟨token, finding?⟩ :: rulings, sink)

/-- There is one ruling on each token, in order. -/
theorem tokens_considerAll (sink : σ) (tokens : List Token) :
    (considerAll sink tokens).1.map Ruling.token = tokens := by
  induction tokens generalizing sink with
  | nil => rfl
  | cons token rest ih => exact congrArg (token :: ·) (ih (consider sink token).2)

end TokenSink

namespace Ruling

/-- The tokens that are accepted. -/
def accepted (rulings : List Ruling) : List Token :=
  (rulings.filter fun ruling => ruling.finding?.isNone).map Ruling.token

/-- The diagnostics for the tokens that are not accepted, each under the text of its token. -/
def diagnostics (journal : Journal) (rulings : List Ruling) : List Diagnostic :=
  rulings.filterMap fun ruling => ruling.finding?.map
    { journal with expression := some ruling.token.expression }.stamp

variable (rulings others : List Ruling)

/-- Accepted tokens of two runs. -/
theorem accepted_append : accepted (rulings ++ others) = accepted rulings ++ accepted others := by
  rw [accepted, List.filter_append, List.map_append]
  rfl

/-- Diagnostics of two runs. -/
theorem diagnostics_append (journal : Journal) :
    diagnostics journal (rulings ++ others) =
      diagnostics journal rulings ++ diagnostics journal others :=
  List.filterMap_append

/-- Every token is accepted or has its diagnostic. -/
theorem length_accepted_add (journal : Journal) :
    (accepted rulings).length + (diagnostics journal rulings).length = rulings.length := by
  induction rulings with
  | nil => rfl
  | cons ruling rest ih =>
    obtain ⟨token, _ | finding⟩ := ruling
    · simp [accepted, diagnostics] at ih ⊢
      omega
    · simp [accepted, diagnostics] at ih ⊢
      omega

/-- Every token that is considered is accepted or has its diagnostic. -/
theorem length_accepted_considerAll {σ : Type} [TokenSink σ] (sink : σ) (tokens : List Token)
    (journal : Journal) :
    (accepted (TokenSink.considerAll sink tokens).1).length +
      (diagnostics journal (TokenSink.considerAll sink tokens).1).length = tokens.length := by
  rw [length_accepted_add, ← List.length_map Ruling.token, TokenSink.tokens_considerAll]

/-- Accepted tokens are among the tokens considered. -/
theorem accepted_subset : accepted rulings ⊆ rulings.map Ruling.token :=
  List.map_subset _ (List.filter_subset_self _)

end Ruling

namespace NamedLists

/-- Record tokens one after the other. -/
def extend (registry : NamedLists) (tokens : List Token) : NamedLists :=
  tokens.foldl record registry

/-- Recording in two parts is recording at once. -/
theorem extend_extend (registry : NamedLists) (tokens others : List Token) :
    (registry.extend tokens).extend others = registry.extend (tokens ++ others) :=
  List.foldl_append.symm

/-- Tokens that are recorded are appended to each list of the scope, which stays open. -/
theorem extend_eq (registry : NamedLists) (tokens : List Token) :
    (registry.extend tokens).lists = registry.lists.mapIdx (fun place list =>
      if place ∈ registry.scope.getD [] then { list with tokens := list.tokens ++ tokens }
      else list) ∧
    (registry.extend tokens).scope = registry.scope := by
  induction tokens generalizing registry with
  | nil =>
    refine ⟨List.ext_getElem? fun place => ?_, rfl⟩
    rw [List.getElem?_mapIdx]
    simp only [List.append_nil, ite_self]
    exact Option.map_id'.symm
  | cons token rest ih =>
    obtain ⟨hlists, hscope⟩ := ih (registry.record token)
    have hrecorded : (registry.record token).scope = registry.scope := rfl
    refine ⟨hlists.trans (List.ext_getElem? fun place => ?_), hscope.trans hrecorded⟩
    rw [lists_record, hrecorded]
    simp only [List.getElem?_mapIdx, Option.map_map]
    refine congrArg (Option.map · _) (funext fun list => ?_)
    by_cases hopen : place ∈ registry.scope.getD []
    · simp [hopen, NamedList.push]
    · simp [hopen]

end NamedLists

namespace Session

variable {σ : Type}

/-- A session after rulings: accepted tokens are remembered, and the others are reported. -/
def absorb (session : Session σ) (considered : List Ruling × σ) : Session σ :=
  { session with
    sink := considered.2
    journal :=
      { session.journal with
        entries := session.journal.entries ++
          Ruling.diagnostics session.journal considered.1 }
    built := session.built ++ Ruling.accepted considered.1
    lists := session.lists.extend (Ruling.accepted considered.1)
    tokensCreated := session.tokensCreated + (Ruling.accepted considered.1).length }

/-- Rulings may be taken in one after the other. -/
theorem absorb_absorb (session : Session σ) (first second : List Ruling × σ) :
    (session.absorb first).absorb second = session.absorb (first.1 ++ second.1, second.2) := by
  have hdiagnostics : Ruling.diagnostics (session.absorb first).journal second.1 =
      Ruling.diagnostics session.journal second.1 := rfl
  rw [absorb, hdiagnostics]
  simp only [absorb, NamedLists.extend_extend, Ruling.accepted_append,
    Ruling.diagnostics_append, List.append_assoc, List.length_append, Nat.add_assoc]

/-- Accepted tokens come last among those of their category. -/
theorem tokens_absorb (session : Session σ) (considered : List Ruling × σ) (category : Category) :
    (session.absorb considered).tokens category .all = session.tokens category .all ++
      (Ruling.accepted considered.1).filter fun token => token.category == category := by
  simp [tokens, absorb, TokenFilter.selects, List.filter_append]

/-- Tokens of one category are looked for in that category only. -/
theorem tokens_absorb_of_category (session : Session σ) {considered : List Ruling × σ}
    {category : Category}
    (h : ∀ token ∈ considered.1.map Ruling.token, token.category = category) :
    (session.absorb considered).tokens category .all =
        session.tokens category .all ++ Ruling.accepted considered.1 ∧
      ∀ kind ≠ category, (session.absorb considered).tokens kind .all =
        session.tokens kind .all := by
  have haccepted : ∀ token ∈ Ruling.accepted considered.1, token.category = category :=
    fun token htoken => h token (Ruling.accepted_subset _ htoken)
  refine ⟨?_, fun kind hkind => ?_⟩
  · rw [tokens_absorb, List.filter_eq_self.mpr fun token htoken => by
      simpa using haccepted token htoken]
  · rw [tokens_absorb, List.filter_eq_nil_iff.mpr fun token htoken => by
      simpa [haccepted token htoken] using Ne.symm hkind, List.append_nil]

/-- The tokens of a mapping as they are handed to the sink, one for each text of each key. -/
theorem map_tagged_mappingTokens (session : Session σ) (category : Category) (mapping : Mapping)
    (priority : Priority) (acceptance : Acceptance) :
    (mappingTokens category mapping priority acceptance).map session.tagged =
      mapping.flatMap fun pair => pair.1.leaves.map fun pattern =>
        { category, pattern, priority, acceptance
          value1 := pair.2.leaves.getD 0 ""
          value2 := pair.2.leaves.getD 1 ""
          value3 := pair.2.leaves.getD 2 ""
          matching := pair.1.matching
          tag := session.journal.tag.getD "" } := by
  rw [mappingTokens, List.map_flatMap]
  refine congrArg (List.flatMap · mapping) (funext fun pair => ?_)
  rw [pairTokens_eq, List.map_map]
  rfl

/-- A token that is refused is taken in with a finding. -/
theorem refuse_eq_absorb (session : Session σ) (sink : σ) (code : DiagnosticCode) (token : Token)
    (message : String) :
    { session with sink }.refuse code token message =
      session.absorb ([⟨token, some ⟨code, .error, message⟩⟩], sink) := by
  have haccepted : Ruling.accepted [⟨token, some ⟨code, .error, message⟩⟩] = [] := rfl
  rw [absorb, haccepted, List.append_nil]
  rfl

/-- A token that is remembered is taken in without a finding. -/
theorem remember_eq_absorb (session : Session σ) (sink : σ) (token : Token) :
    { session with sink }.remember token = session.absorb ([⟨token, none⟩], sink) := by
  have hdiagnostics : Ruling.diagnostics session.journal [⟨token, none⟩] = [] := rfl
  rw [absorb, hdiagnostics, List.append_nil]
  rfl

variable [TokenSink σ]

/-- Submitting a token is asking the sink and taking in the ruling. -/
theorem submit_eq (session : Session σ) (token : Token) :
    session.submit token =
      let considered := TokenSink.consider session.sink (session.tagged token)
      (considered.1.isNone,
        session.absorb ([⟨session.tagged token, considered.1⟩], considered.2)) := by
  have htagged : session.tagged token = { token with tag := session.journal.tag.getD "" } := rfl
  by_cases hblank : Blank (session.tagged token)
  · rw [TokenSink.consider_of_blank _ _ hblank]
    exact (if_pos hblank).trans (Prod.ext rfl (refuse_eq_absorb session session.sink _ _ _))
  · refine (if_neg hblank).trans ?_
    rw [TokenSink.consider_of_not_blank _ _ hblank, ← htagged]
    rcases TokenSink.createToken session.sink (session.tagged token) with ⟨refusal | ⟨⟩, sink⟩
    · exact Prod.ext rfl (refuse_eq_absorb session sink _ _ _)
    · exact Prod.ext rfl (remember_eq_absorb session sink _)

/-- Submitting tokens is a run of the sink, the rulings of which are taken in. -/
theorem submitAll_eq (session : Session σ) (tokens : List Token) :
    session.submitAll tokens =
      let considered := TokenSink.considerAll session.sink (tokens.map session.tagged)
      ((Ruling.accepted considered.1).length, session.absorb considered) := by
  induction tokens generalizing session with
  | nil =>
    simp [submitAll, TokenSink.considerAll, absorb, Ruling.accepted, Ruling.diagnostics,
      NamedLists.extend]
  | cons token rest ih =>
    rw [submitAll, submit_eq, List.map_cons, TokenSink.considerAll]
    rcases hfirst : TokenSink.consider session.sink (session.tagged token) with ⟨finding?, sink⟩
    -- Whatever the first ruling is, the tag stays, so the rest is considered as it would have been.
    have htagged : (session.absorb ([⟨session.tagged token, finding?⟩], sink)).tagged =
        session.tagged := rfl
    have hsink : (session.absorb ([⟨session.tagged token, finding?⟩], sink)).sink = sink := rfl
    simp only [ih, htagged, hsink, absorb_absorb, List.singleton_append]
    refine Prod.ext ?_ rfl
    cases finding? <;> rfl

/-- The sink that is left when tokens were submitted is the one that the run leaves. -/
theorem sink_submitAll (session : Session σ) (tokens : List Token) :
    (session.submitAll tokens).2.sink =
      (TokenSink.considerAll session.sink (tokens.map session.tagged)).2 := by
  rw [submitAll_eq]
  rfl

/-- No text of a mapping is lost when its tokens are built. One token is considered for each text
of each key, in order. Those that the sink accepts are appended to the tokens of the category and
to each open list, and counted. Each of the others has one diagnostic, so that the accepted tokens
and the new diagnostics are as many as the texts, and nothing else in the session is changed but the
sink. -/
theorem buildTokens_accounts (session : Session σ) (category : Category) (mapping : Mapping)
    (priority : Priority) (acceptance : Acceptance) :
    let considered : List Token := mapping.flatMap fun pair => pair.1.leaves.map fun text =>
      { category
        pattern := text
        value1 := pair.2.leaves.getD 0 ""
        value2 := pair.2.leaves.getD 1 ""
        value3 := pair.2.leaves.getD 2 ""
        tag := session.journal.tag.getD ""
        matching := pair.1.matching
        priority
        acceptance }
    let rulings := (TokenSink.considerAll session.sink considered).1
    let accepted := Ruling.accepted rulings
    let found := Ruling.diagnostics session.journal rulings
    let count := (session.buildTokens category mapping priority acceptance).1
    let left := (session.buildTokens category mapping priority acceptance).2
    rulings.map Ruling.token = considered ∧
    left = { session with
      sink := (TokenSink.considerAll session.sink considered).2
      journal := { session.journal with entries := session.journal.entries ++ found }
      built := session.built ++ accepted
      lists := left.lists
      tokensCreated := session.tokensCreated + accepted.length } ∧
    left.lists.lists = session.lists.lists.mapIdx (fun place list =>
      if place ∈ session.lists.scope.getD [] then { list with tokens := list.tokens ++ accepted }
      else list) ∧
    left.lists.scope = session.lists.scope ∧
    left.tokens category .all = session.tokens category .all ++ accepted ∧
    (∀ kind ≠ category, left.tokens kind .all = session.tokens kind .all) ∧
    count = accepted.length ∧
    count + found.length = (mapping.flatMap fun pair => pair.1.leaves).length := by
  intro considered rulings accepted found count left
  have hconsidered :
      (mappingTokens category mapping priority acceptance).map session.tagged = considered :=
    map_tagged_mappingTokens session category mapping priority acceptance
  have hbuild : session.buildTokens category mapping priority acceptance =
      (accepted.length, session.absorb (TokenSink.considerAll session.sink considered)) := by
    rw [buildTokens, submitAll_eq, hconsidered]
  have hrulings : rulings.map Ruling.token = considered :=
    TokenSink.tokens_considerAll session.sink considered
  have hleft : left = session.absorb (TokenSink.considerAll session.sink considered) :=
    congrArg Prod.snd hbuild
  have hcount : count = accepted.length := congrArg Prod.fst hbuild
  have hcategory : ∀ token ∈ rulings.map Ruling.token, token.category = category := by
    intro token htoken
    rw [hrulings] at htoken
    obtain ⟨pair, -, hpair⟩ := List.mem_flatMap.mp htoken
    obtain ⟨text, -, rfl⟩ := List.mem_map.mp hpair
    rfl
  obtain ⟨hown, hothers⟩ := tokens_absorb_of_category session hcategory
  obtain ⟨hlists, hscope⟩ := session.lists.extend_eq accepted
  have hextended : left.lists = session.lists.extend accepted := congrArg Session.lists hleft
  refine ⟨hrulings, by rw [hextended]; exact hleft, hextended ▸ hlists, hextended ▸ hscope,
    hleft ▸ hown, fun kind hkind => hleft ▸ hothers kind hkind, hcount, ?_⟩
  calc
    count + found.length = considered.length := by
      rw [hcount]
      exact Ruling.length_accepted_considerAll session.sink considered session.journal
    _ = (mapping.flatMap fun pair => pair.1.leaves).length := by
      simp [considered, List.length_flatMap]

end Session

end TranslitScheme
