import TranslitScheme.Proofs.Session.Compounds

/-!
# Declaring the same twice

A declaration that is made twice in a row adds nothing to the table the second time, whether or not
duplicates are passed over and whether or not dead consonants are derived. The second run meets
another store than the first one did. Still, each token was settled when its turn came: it was
refused, and would be again, or everything that it adds is held. It stays settled while other tokens
of its category are created, since what these add takes nothing away, and no virama is among it when
the category is that of the consonants.

The journal, the tokens that the session remembers and the lists may well differ after the second
time, as tokens that are passed over count as accepted and those that are refused are reported
again.
-/

namespace TranslitScheme

namespace TokenStore

/-- Considering a token leaves the store as it is. -/
def Settled (store : TokenStore) (token : Token) : Prop :=
  (TokenSink.consider store token).2 = store

/-- A token that is not blank is created when it is considered. -/
theorem sink_consider (store : TokenStore) {token : Token} (hblank : ¬ Session.Blank token) :
    (TokenSink.consider store token).2 = (store.createToken token).2 := by
  have hcreate : TokenSink.createToken store token = store.createToken token := rfl
  rw [TokenSink.consider_of_not_blank _ _ hblank, hcreate]
  rcases store.createToken token with ⟨refusal | ⟨⟩, sink⟩ <;> rfl

/-- A token is settled when it is blank, or digested. -/
theorem settled_iff (store : TokenStore) (token : Token) :
    store.Settled token ↔ Session.Blank token ∨ store.Digests token := by
  by_cases hblank : Session.Blank token
  · have hsettled : store.Settled token :=
      congrArg Prod.snd (TokenSink.consider_of_blank store token hblank)
    exact iff_of_true hsettled (.inl hblank)
  · rw [Settled, sink_consider store hblank, or_iff_right hblank]
    rfl

variable {store : TokenStore} {token other : Token}

/-- A token that was considered is settled. -/
theorem settled_consider (store : TokenStore) (token : Token) :
    (TokenSink.consider store token).2.Settled token := by
  rw [settled_iff]
  by_cases hblank : Session.Blank token
  · exact .inl hblank
  · rw [sink_consider store hblank]
    exact .inr (digests_createToken store token)

/-- A settled token stays settled when another one of its category is considered. -/
theorem Settled.consider (h : store.Settled token) (hcategory : other.category = token.category) :
    (TokenSink.consider store other).2.Settled token := by
  by_cases hblank : Session.Blank other
  · have hkept := congrArg Prod.snd (TokenSink.consider_of_blank store other hblank)
    rw [hkept]
    exact h
  · rw [sink_consider store hblank]
    rw [settled_iff] at h ⊢
    exact h.imp_right fun hdigests => hdigests.createToken hcategory

/-- A settled token stays settled when others of its category are considered. -/
theorem Settled.considerAll (h : store.Settled token) {tokens : List Token}
    (hcategory : ∀ other ∈ tokens, other.category = token.category) :
    (TokenSink.considerAll store tokens).2.Settled token := by
  induction tokens generalizing store with
  | nil => exact h
  | cons first rest ih =>
    obtain ⟨hfirst, hrest⟩ := List.forall_mem_cons.mp hcategory
    exact ih (h.consider hfirst) hrest

/-- Tokens of one category are settled after all of them were considered. -/
theorem settled_considerAll (store : TokenStore) {tokens : List Token} {category : Category}
    (hcategory : ∀ token ∈ tokens, token.category = category) :
    ∀ token ∈ tokens, (TokenSink.considerAll store tokens).2.Settled token := by
  induction tokens generalizing store with
  | nil => simp
  | cons first rest ih =>
    obtain ⟨hfirst, hrest⟩ := List.forall_mem_cons.mp hcategory
    refine List.forall_mem_cons.mpr ⟨?_, ih (TokenSink.consider store first).2 hrest⟩
    exact (settled_consider store first).considerAll fun other hother =>
      (hrest other hother).trans hfirst.symm

/-- Tokens that are settled leave the store as it is. -/
theorem considerAll_of_settled {tokens : List Token}
    (h : ∀ token ∈ tokens, store.Settled token) :
    (TokenSink.considerAll store tokens).2 = store := by
  induction tokens with
  | nil => rfl
  | cons first rest ih =>
    obtain ⟨hfirst, hrest⟩ := List.forall_mem_cons.mp h
    have hstill : (TokenSink.consider store first).2 = store := hfirst
    change (TokenSink.considerAll (TokenSink.consider store first).2 rest).2 = store
    rw [hstill]
    exact ih hrest

end TokenStore

namespace Session

/-- Tokens of one category that are submitted again, under the same tag and to the sink that they
left, leave the sink as it is. -/
theorem sink_submitAll_again (session again : Session TokenStore) {tokens : List Token}
    {category : Category} (hcategory : ∀ token ∈ tokens, token.category = category)
    (htag : again.journal.tag = session.journal.tag)
    (hsink : again.sink = (session.submitAll tokens).2.sink) :
    (again.submitAll tokens).2.sink = again.sink := by
  have htagged : again.tagged = session.tagged := by
    funext token
    rw [tagged, tagged, htag]
  rw [sink_submitAll, htagged, hsink, sink_submitAll]
  have hkinds : ∀ token ∈ tokens.map session.tagged, token.category = category := by
    intro token htoken
    obtain ⟨source, hsource, rfl⟩ := List.mem_map.mp htoken
    exact hcategory source hsource
  exact TokenStore.considerAll_of_settled (TokenStore.settled_considerAll session.sink hkinds)

/-- Building again what was built leaves the sink as it is. -/
theorem sink_build_again (session : Session TokenStore) (category : Category)
    (options : TokenOptions) (value : Value) :
    ((session.build category options value).2.build category options value).2.sink =
      (session.build category options value).2.sink := by
  obtain ⟨journal, htag, hfirst⟩ := build_eq session category options value
  obtain ⟨journal', htag', hsecond⟩ :=
    build_eq (session.build category options value).2 category options value
  rw [hsecond]
  cases hdeclared : declaredTokens category options value with
  | error fault => rfl
  | ok tokens =>
    -- Reading the mapping again writes to the journal, but gives the same tokens under that tag.
    rw [hdeclared] at hfirst
    refine sink_submitAll_again { session with journal } _
      (category_of_mem_declaredTokens hdeclared) ?_ (by rw [hfirst])
    calc
      journal'.tag = (session.build category options value).2.journal.tag := htag'
      _ = journal.tag := by
        rw [hfirst]
        exact (frames_submitAll _ tokens).tag

/-- Generating again the compounds that were generated leaves the sink as it is. -/
theorem sink_generateCompounds_again (session : Session TokenStore) :
    session.generateCompounds.2.generateCompounds.2.sink = session.generateCompounds.2.sink := by
  have hsettings : session.generateCompounds.2.settings = session.settings := by
    rw [generateCompounds_eq]
    rfl
  have htag : session.generateCompounds.2.journal.tag = session.journal.tag :=
    (frames_submitAll session _).tag
  have hconsonants : session.generateCompounds.2.tokens .consonant .all =
      session.tokens .consonant .all := tokens_generateCompounds session nofun
  have hvowels : session.generateCompounds.2.tokens .vowel .all = session.tokens .vowel .all :=
    tokens_generateCompounds session nofun
  have hagain : session.generateCompounds.2.generateCompounds =
      session.generateCompounds.2.submitAll
        (Token.compounds (session.tokens .consonant .all) (session.tokens .vowel .all)
          session.settings.inherentVowel) := by
    rw [generateCompounds, hconsonants, hvowels, hsettings]
  rw [hagain]
  exact sink_submitAll_again session _ (fun _ => Token.category_of_mem_compounds) htag rfl

/-- Declaring the same again right after the first time, or generating compounds twice in a row,
leaves the store as the first time left it, with the tokens that it has flushed and those that wait
in its buffer. This holds for every session, whatever switches are set and whatever the outcome of
the first time. -/
theorem redeclared_store (session : Session TokenStore) :
    (∀ category options value,
      let first := (session.build category options value).2
      let second := (first.build category options value).2
      second.sink = first.sink) ∧
    let first := session.generateCompounds.2
    let second := first.generateCompounds.2
    second.sink = first.sink :=
  ⟨fun category options value => sink_build_again session category options value,
    sink_generateCompounds_again session⟩

end Session

end TranslitScheme
