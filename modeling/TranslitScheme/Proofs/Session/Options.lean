import TranslitScheme.Proofs.Derivation.Options
import TranslitScheme.Proofs.Session.Defaults
import TranslitScheme.Proofs.Session.Rebuilding

/-!
# The options of the tokens that a session adds

A session holds tokens in three places: those it has built, those of its lists and those of its
store. Every operation only adds to what is held, and the options of an added token are those of a
token that was submitted, whatever else the store makes of it. `Adds` says of two sessions with
which options tokens were added in between.
-/

namespace TranslitScheme

/-- The settings of options are accepted as a priority and a condition. -/
def TokenOptions.Means (options : TokenOptions) (priority : Priority) (acceptance : Acceptance) :
    Prop :=
  Priority.ofSetting options.priority = .ok priority ∧
    Acceptance.ofSetting options.acceptIf = .ok acceptance

/-- What options mean is canonical. -/
theorem TokenOptions.Means.canonical {options : TokenOptions} {priority : Priority}
    {acceptance : Acceptance} (h : options.Means priority acceptance) :
    priority.Canonical ∧ acceptance.Canonical :=
  ⟨Priority.canonical_of_ofSetting h.1, Acceptance.canonical_of_ofSetting h.2⟩

namespace Session

/-- A token is among the built ones, in a list or in the store. -/
inductive Holds (session : Session TokenStore) (token : Token) : Prop where
  | built (h : token ∈ session.built)
  | listed {list : NamedList} (hlist : list ∈ session.lists.lists) (h : token ∈ list.tokens)
  | stored (h : token ∈ session.sink.stored)

/-- Tokens that a session holds and another one did not have options of some kind. -/
def Adds (kind : Priority → Acceptance → Prop) (session after : Session TokenStore) : Prop :=
  ∀ token, after.Holds token → session.Holds token ∨ kind token.priority token.acceptance

/-- All tokens that a session holds have canonical options. -/
def Canonical (session : Session TokenStore) : Prop :=
  ∀ token, session.Holds token → token.Canonical

namespace Adds

variable {kind : Priority → Acceptance → Prop} {session middle after : Session TokenStore}

/-- A session that holds the same tokens adds none. -/
theorem of_eq (hbuilt : after.built = session.built)
    (hlists : after.lists.lists = session.lists.lists)
    (hstored : after.sink.stored = session.sink.stored) : session.Adds kind after := by
  intro token h
  cases h with
  | built h => exact Or.inl (.built (hbuilt ▸ h))
  | listed hlist h => exact Or.inl (.listed (hlists ▸ hlist) h)
  | stored h => exact Or.inl (.stored (hstored ▸ h))

/-- What is added in two parts is added. -/
theorem trans (h : session.Adds kind middle) (h' : middle.Adds kind after) :
    session.Adds kind after := by
  intro token htoken
  rcases h' token htoken with hmiddle | hkind
  · exact h token hmiddle
  · exact Or.inr hkind

/-- Added tokens may be of more kinds. -/
theorem mono {wider : Priority → Acceptance → Prop} (h : session.Adds kind after)
    (hkind : ∀ priority acceptance, kind priority acceptance → wider priority acceptance) :
    session.Adds wider after :=
  fun token htoken => (h token htoken).imp_right (hkind _ _)

/-- Adding canonical options keeps all options canonical. -/
theorem canonical (h : session.Adds kind after) (hsession : session.Canonical)
    (hkind : ∀ priority acceptance, kind priority acceptance →
      priority.Canonical ∧ acceptance.Canonical) : after.Canonical := by
  intro token htoken
  rcases h token htoken with hheld | hadded
  · exact hsession token hheld
  · exact hkind _ _ hadded

end Adds

variable {kind : Priority → Acceptance → Prop} {session : Session TokenStore}

/-- What the store adds for a token has the options of that token. -/
theorem adds_createToken {token : Token} (h : kind token.priority token.acceptance) :
    session.Adds kind { session with sink := (session.sink.createToken token).2 } := by
  intro other hother
  cases hother with
  | built h => exact Or.inl (.built h)
  | listed hlist h => exact Or.inl (.listed hlist h)
  | stored hstored =>
    obtain ⟨new, hnew, hleft⟩ := session.sink.exists_append_createToken token
    dsimp only at hstored
    rw [hleft, TokenStore.stored_append] at hstored
    rcases List.mem_append.mp hstored with hold | hadded
    · exact Or.inl (.stored hold)
    · obtain ⟨hpriority, hacceptance⟩ := TokenStore.sameOptions_of_mem_entries (hnew hadded)
      rw [hpriority, hacceptance]
      exact Or.inr h

/-- A token that is remembered is added. -/
theorem adds_remember {token : Token} (h : kind token.priority token.acceptance) :
    session.Adds kind (session.remember token) := by
  intro other hother
  cases hother with
  | built hbuilt =>
    rcases List.mem_append.mp hbuilt with hold | hnew
    · exact Or.inl (.built hold)
    · exact Or.inr (List.mem_singleton.mp hnew ▸ h)
  | listed hlist hlisted =>
    rcases NamedLists.mem_lists_record hlist hlisted with rfl | ⟨old, hold, hkept⟩
    · exact Or.inr h
    · exact Or.inl (.listed hold hkept)
  | stored h => exact Or.inl (.stored h)

/-- Submitting a token adds tokens with its options. -/
theorem adds_submit {token : Token} (h : kind token.priority token.acceptance) :
    session.Adds kind (session.submit token).2 := by
  have hcreated : session.Adds kind
      { session with sink := (session.sink.createToken (session.tagged token)).2 } :=
    adds_createToken h
  rcases submit_cases session token with ⟨-, journal, -, heq⟩ | ⟨-, -, journal, -, heq⟩ |
    ⟨-, -, heq⟩
  · rw [heq]
    exact .of_eq rfl rfl rfl
  · rw [heq]
    exact hcreated.trans (.of_eq rfl rfl rfl)
  · rw [heq]
    exact hcreated.trans (adds_remember h)

/-- Submitting tokens adds tokens with their options. -/
theorem adds_submitAll {tokens : List Token}
    (h : ∀ token ∈ tokens, kind token.priority token.acceptance) :
    session.Adds kind (session.submitAll tokens).2 := by
  induction tokens generalizing session with
  | nil => exact .of_eq rfl rfl rfl
  | cons token rest ih =>
    rw [List.forall_mem_cons] at h
    exact (adds_submit h.1).trans (ih h.2)

/-- A declaration succeeds when it is given a mapping and its options mean something. -/
theorem build_ok_iff (session : Session TokenStore) (category : Category) (options : TokenOptions)
    (value : Value) :
    (session.build category options value).1 = .ok () ↔
      (∃ pairs, value = .map pairs) ∧ ∃ priority acceptance, options.Means priority acceptance := by
  obtain ⟨journal, -, heq⟩ := build_eq session category options value
  rw [heq]
  unfold declaredTokens TokenOptions.Means
  cases value with
  | map pairs =>
    cases Priority.ofSetting options.priority <;> cases Acceptance.ofSetting options.acceptIf <;>
      simp
  | _ => simp

/-- A declaration adds tokens with what its options mean. -/
theorem adds_build (category : Category) (options : TokenOptions) (value : Value) :
    session.Adds options.Means (session.build category options value).2 := by
  obtain ⟨journal, -, heq⟩ := build_eq session category options value
  rw [heq]
  cases hdeclared : declaredTokens category options value with
  | error fault => exact .of_eq rfl rfl rfl
  | ok tokens =>
    have hnoted : session.Adds options.Means { session with journal } := .of_eq rfl rfl rfl
    refine hnoted.trans (adds_submitAll fun token htoken => ?_)
    unfold declaredTokens at hdeclared
    split at hdeclared
    · split at hdeclared
      · contradiction
      · contradiction
      · rename_i hpriority hacceptance
        obtain rfl := Except.ok.inj hdeclared
        obtain ⟨rfl, rfl⟩ := options_of_mem_mappingTokens htoken
        exact ⟨hpriority, hacceptance⟩
    · contradiction

/-- Reading dead consonants back adds no tokens, as they are stored. -/
theorem adds_refreshDeadConsonants : session.Adds kind session.refreshDeadConsonants := by
  intro token h
  cases h with
  | built h =>
    rcases List.mem_append.mp h with hkept | hread
    · exact Or.inl (.built (List.mem_filter.mp hkept).1)
    · exact Or.inl (.stored (List.mem_filter.mp hread).1)
  | listed hlist h => exact Or.inl (.listed hlist h)
  | stored h => exact Or.inl (.stored h)

/-- Asking for the tokens of a source adds none. -/
theorem adds_sourceTokens (source : TokenSource) :
    session.Adds kind (session.sourceTokens source).2 := by
  unfold sourceTokens
  split
  · exact adds_refreshDeadConsonants
  · exact .of_eq rfl rfl rfl
  · unfold customList
    split <;> exact .of_eq rfl rfl rfl

/-- Expanding a template adds no tokens. -/
theorem adds_combine (source : TokenSource) (filter : TokenFilter) (template : Value) :
    session.Adds kind (session.combine source filter template).2 := by
  unfold combine
  rcases template.toMapping session.journal with ⟨fault | mapping, journal⟩
  · exact .of_eq rfl rfl rfl
  · have hread : session.Adds kind { session with journal } := .of_eq rfl rfl rfl
    have hasked := hread.trans (adds_sourceTokens source)
    dsimp only
    generalize ({ session with journal } : Session TokenStore).sourceTokens source = asked
      at hasked ⊢
    obtain ⟨fault | tokens, left⟩ := asked <;> exact hasked

/-- Stem rules and exceptions add no tokens. -/
theorem adds_createPairs
    {create : TokenStore → String × String → Except SinkError Unit × TokenStore}
    (hcreate : ∀ sink pair, (create sink pair).2.stored = sink.stored) (what : String)
    (value : Value) : session.Adds kind (session.createPairs value create what).2 := by
  have hpairs (pairs : List (String × String)) (session : Session TokenStore) :
      session.Adds kind (submitPairs create what pairs session) := by
    induction pairs generalizing session with
    | nil => exact .of_eq rfl rfl rfl
    | cons pair rest ih =>
      have hstored := hcreate session.sink pair
      unfold submitPairs
      generalize create session.sink pair = created at hstored ⊢
      obtain ⟨refusal | _, sink⟩ := created
      · refine .trans ?_ (ih _)
        exact .of_eq rfl rfl hstored
      · refine .trans ?_ (ih _)
        exact .of_eq rfl rfl hstored
  unfold createPairs
  rcases value.toMapping session.journal with ⟨fault | mapping, journal⟩
  · exact .of_eq rfl rfl rfl
  · refine .trans ?_ (hpairs _ _)
    exact .of_eq rfl rfl rfl

/-- Opening a list scope adds no tokens. -/
theorem adds_openScope {names : List Value} {lists : NamedLists}
    (h : session.lists.openScope names = (.ok (), lists)) :
    session.Adds kind { session with lists } := by
  intro token htoken
  cases htoken with
  | built htoken => exact Or.inl (.built htoken)
  | listed hlist hlisted =>
    rcases NamedLists.mem_of_openScope h hlist with hold | hempty
    · exact Or.inl (.listed hold hlisted)
    · rw [hempty] at hlisted
      contradiction
  | stored htoken => exact Or.inl (.stored htoken)

/-- What is done around the steps of a scheme adds no tokens. -/
theorem adds_outerMove {after : Session TokenStore} (h : session.OuterMove after) :
    session.Adds kind after := by
  obtain ⟨hbuilt, hlists⟩ := remembered_of_outerMove h
  exact .of_eq hbuilt (congrArg NamedLists.lists hlists) (stored_of_outerMove h)

/-- Where no tokens are added, all options stay canonical. -/
theorem Canonical.of_adds {after : Session TokenStore} (h : session.Canonical)
    (hadds : session.Adds (fun _ _ => False) after) : after.Canonical :=
  hadds.canonical h fun _ _ => False.elim

/-- A declaration keeps all options canonical. -/
theorem Canonical.build (h : session.Canonical) (category : Category) (options : TokenOptions)
    (value : Value) : (session.build category options value).2.Canonical :=
  (adds_build category options value).canonical h fun _ _ => TokenOptions.Means.canonical

/-- Compounds of canonical tokens are canonical. -/
theorem Canonical.generateCompounds (h : session.Canonical) :
    session.generateCompounds.2.Canonical := by
  have hbuilt (category : Category) : ∀ token ∈ session.tokens category .all, token.Canonical :=
    fun token htoken => h token (.built (List.mem_filter.mp htoken).1)
  have hadded : session.Adds (fun priority acceptance => priority.Canonical ∧ acceptance.Canonical)
      session.generateCompounds.2 :=
    adds_submitAll (Token.canonical_of_mem_compounds (hbuilt .consonant) (hbuilt .vowel))
  exact hadded.canonical h fun _ _ hkind => hkind

/-- Default symbols have canonical options, and nothing else is added at the end. -/
theorem Canonical.finish (h : session.Canonical) (now : String) :
    (session.finish now).Canonical := by
  have hadded : session.Adds (fun priority acceptance => priority.Canonical ∧ acceptance.Canonical)
      session.injectDefaults := by
    rw [injectDefaults_eq]
    refine adds_submitAll fun token htoken => ?_
    obtain ⟨symbol, -, rfl⟩ := List.mem_map.mp htoken
    exact ⟨rfl, rfl⟩
  have hinjected := hadded.canonical h fun _ _ hkind => hkind
  have hflushed := hinjected.of_adds (adds_outerMove (.flush _))
  exact hflushed.of_adds (adds_outerMove (.storeDetails _ now))

end Session

end TranslitScheme
