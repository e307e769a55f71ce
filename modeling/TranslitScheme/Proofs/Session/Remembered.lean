import TranslitScheme.Proofs.Repetition.Operation
import TranslitScheme.Proofs.Session.Operation

/-!
# What a session remembers and what its sink holds

A session remembers tokens as it handed them over, and the store keeps tokens under rules of its
own: it passes over duplicates or refuses them, as the switch stands at that moment, it takes some
consonants for dead ones and gives joiners other values. `tokensOf_visited` says that the two agree.
For a category that the store does not rewrite, it holds just what the session remembers, without
the tokens whose pattern and first value came before. A consonant that is remembered is held as a
consonant or as a dead one.
-/

namespace TranslitScheme

namespace Token

/-- Two tokens have the same pattern and the same first value. -/
def sameSpelling (token other : Token) : Bool :=
  token.pattern == other.pattern && token.value1 == other.value1

/-- The tokens of a list that are spelled as none before them, neither earlier in the list nor
among those that were seen. -/
def newSpellings (seen : List Token) : List Token → List Token
  | [] => []
  | token :: rest =>
    if seen.any token.sameSpelling then newSpellings (seen ++ [token]) rest
    else token :: newSpellings (seen ++ [token]) rest

/-- The tokens of a list whose pattern and first value did not occur earlier in it. -/
def firstSpellings (tokens : List Token) : List Token := newSpellings [] tokens

/-- One more token is new when none of the others is spelled alike. -/
theorem newSpellings_append_singleton (seen tokens : List Token) (token : Token) :
    newSpellings seen (tokens ++ [token]) =
      newSpellings seen tokens ++
        if (seen ++ tokens).any token.sameSpelling then [] else [token] := by
  induction tokens generalizing seen with
  | nil =>
    rw [List.nil_append, List.append_nil, newSpellings, newSpellings, newSpellings]
    rfl
  | cons first rest ih =>
    rw [List.cons_append, newSpellings, newSpellings, ih (seen ++ [first]), List.append_assoc,
      List.singleton_append]
    split
    · rfl
    · rw [List.cons_append]

/-- One more token is a first spelling when none of the others is spelled alike. -/
theorem firstSpellings_append_singleton (tokens : List Token) (token : Token) :
    firstSpellings (tokens ++ [token]) =
      firstSpellings tokens ++ if tokens.any token.sameSpelling then [] else [token] :=
  newSpellings_append_singleton [] tokens token

/-- Every spelling of a list is that of a first one. -/
theorem any_firstSpellings (tokens : List Token) (token : Token) :
    (firstSpellings tokens).any token.sameSpelling = tokens.any token.sameSpelling := by
  induction tokens using List.reverseRecOn with
  | nil => rfl
  | append_singleton tokens last ih =>
    rw [firstSpellings_append_singleton, List.any_append, ih, List.any_append]
    by_cases hold : tokens.any last.sameSpelling = true
    · -- The last token is spelled like an earlier one, which takes its place.
      rw [if_pos hold, List.any_nil, Bool.or_false, Bool.eq_iff_iff, Bool.or_eq_true,
        List.any_cons, List.any_nil, Bool.or_false]
      refine ⟨Or.inl, fun h => h.elim id fun hlast => ?_⟩
      obtain ⟨earlier, hmem, hsame⟩ := List.any_eq_true.mp hold
      refine List.any_eq_true.mpr ⟨earlier, hmem, ?_⟩
      simp only [sameSpelling, Bool.and_eq_true, beq_iff_eq] at hsame hlast ⊢
      exact ⟨hlast.1.trans hsame.1, hlast.2.trans hsame.2⟩
    · rw [if_neg hold]

end Token

/-- The categories whose tokens a store may keep as something else, or derive from others. -/
def TokenStore.rewritten : List Category := [.consonant, .deadConsonant, .nonJoiner, .joiner]

namespace TokenStore

/-- A token of a category that is not rewritten is its only entry. -/
theorem entries_of_not_rewritten (store : TokenStore) (token : Token)
    (h : token.category ∉ rewritten) : store.entries token = [token] := by
  simp only [rewritten, List.mem_cons, List.not_mem_nil, or_false, not_or] at h
  obtain ⟨hconsonant, -, hnon, hjoiner⟩ := h
  obtain ⟨hnone, hnormal⟩ :=
    derived?_of_not_inferring store token fun hboth => hconsonant hboth.1
  rw [entries, hnone, hnormal, withZeroWidth_eq_self token hnon hjoiner]
  rfl

/-- An entry is held when a token of its category is spelled alike. -/
theorem holds_eq_any_tokensOf (store : TokenStore) (token : Token) :
    store.holds token = (store.tokensOf token.category).any token.sameSpelling := by
  rw [holds, tokensOf, List.any_filter]
  refine congrArg store.stored.any (funext fun other => ?_)
  rw [Bool.eq_iff_iff]
  simp only [Token.sameEntry, Token.sameSpelling, Bool.and_eq_true, beq_iff_eq]
  exact ⟨fun h => ⟨h.1.1, h.1.2.symm, h.2.symm⟩, fun h => ⟨⟨h.1, h.2.1.symm⟩, h.2.2.symm⟩⟩

/-- Appended tokens come last among those of their category. -/
theorem tokensOf_append (store : TokenStore) (tokens : List Token) (category : Category) :
    (store.append tokens).tokensOf category =
      store.tokensOf category ++ tokens.filter fun token => token.category == category := by
  rw [tokensOf, stored_append, List.filter_append]
  rfl

/-- What an accepted token adds to a category that is not rewritten: itself, if it is of that
category and no token of it is spelled alike. -/
theorem tokensOf_createToken (store : TokenStore) (token : Token)
    (h : (store.createToken token).1 = .ok ()) (category : Category)
    (hcategory : category ∉ rewritten) :
    (store.createToken token).2.tokensOf category =
      store.tokensOf category ++
        if token.category = category ∧
          (store.tokensOf category).any token.sameSpelling = false then [token] else [] := by
  rw [(createToken_of_ok store token h).2.1, tokensOf_append]
  refine congrArg _ ?_
  by_cases hsame : token.category = category
  · subst hsame
    rw [missing, entries_of_not_rewritten store token hcategory, ← holds_eq_any_tokensOf]
    cases hheld : store.holds token <;> simp [hheld]
  · rw [if_neg fun hboth => hsame hboth.1]
    refine List.filter_eq_nil_iff.mpr fun entry hentry => ?_
    have hdead : category ≠ .deadConsonant := fun hdead => hcategory (by simp [hdead, rewritten])
    rcases category_of_mem_entries store token entry (List.mem_filter.mp hentry).1 with
      hkind | ⟨-, hkind⟩
    · simpa [hkind] using hsame
    · simpa [hkind] using hdead.symm

/-- A consonant that is accepted is held under its own spelling, as a consonant or a dead one. -/
theorem exists_stored_of_createToken_ok (store : TokenStore) (token : Token)
    (h : (store.createToken token).1 = .ok ()) (hconsonant : token.category = .consonant) :
    ∃ kept ∈ (store.createToken token).2.stored,
      (kept.category = .consonant ∨ kept.category = .deadConsonant) ∧
        kept.pattern = token.pattern ∧ kept.value1 = token.value1 := by
  have hnormal : store.normalForm token ∈ store.entries token :=
    List.mem_append_right _ (List.mem_singleton_self _)
  obtain ⟨kept, hkept, hsame⟩ :=
    List.any_eq_true.mp (holds_of_createToken_ok store token h _ hnormal)
  have hform : ((store.normalForm token).category = .consonant ∨
      (store.normalForm token).category = .deadConsonant) ∧
      (store.normalForm token).pattern = token.pattern ∧
      (store.normalForm token).value1 = token.value1 := by
    unfold normalForm
    split
    · exact ⟨Or.inr rfl, rfl, rfl⟩
    · rw [withZeroWidth_eq_self token (by simp [hconsonant]) (by simp [hconsonant])]
      exact ⟨Or.inl hconsonant, rfl, rfl⟩
  simp only [Token.sameEntry, Bool.and_eq_true, beq_iff_eq] at hsame
  obtain ⟨⟨hcategory, hpattern⟩, hvalue⟩ := hsame
  rw [← hcategory, ← hpattern, ← hvalue] at hform
  exact ⟨kept, hkept, hform⟩

end TokenStore

namespace Session

/-- A session remembers what its sink holds: all of it in the categories that the sink does not
rewrite, and no consonant that the sink does not hold. -/
structure Mirrors (session : Session TokenStore) : Prop where
  plain : ∀ category, category ∉ TokenStore.rewritten →
    session.sink.tokensOf category = Token.firstSpellings (session.tokens category .all)
  consonant : ∀ token ∈ session.tokens .consonant .all, ∃ kept ∈ session.sink.stored,
    (kept.category = .consonant ∨ kept.category = .deadConsonant) ∧
      kept.pattern = token.pattern ∧ kept.value1 = token.value1

variable {session after : Session TokenStore}

/-- Only the stored tokens count and those that are remembered, dead consonants aside. -/
theorem Mirrors.congr (h : session.Mirrors) (hstored : after.sink.stored = session.sink.stored)
    (htokens : ∀ category, category ≠ .deadConsonant →
      after.tokens category .all = session.tokens category .all) : after.Mirrors where
  plain category hcategory := by
    have hdead : category ≠ .deadConsonant :=
      fun hdead => hcategory (by simp [hdead, TokenStore.rewritten])
    rw [htokens category hdead, ← h.plain category hcategory, TokenStore.tokensOf, hstored]
    rfl
  consonant := by
    rw [htokens .consonant (by simp), hstored]
    exact h.consonant

/-- A token that is accepted is remembered and held. -/
theorem Mirrors.accept (h : session.Mirrors) (token : Token)
    (hok : (session.sink.createToken token).1 = .ok ()) :
    Mirrors
      (({ session with sink := (session.sink.createToken token).2 } : Session TokenStore).remember
        token) where
  plain category hcategory := by
    have hbefore := h.plain category hcategory
    have hkept := TokenStore.tokensOf_createToken session.sink token hok category hcategory
    rw [tokens_remember]
    refine hkept.trans ?_
    change _ = Token.firstSpellings (if token.category = category then
      session.tokens category .all ++ [token] else session.tokens category .all)
    rw [hbefore, Token.any_firstSpellings]
    by_cases hsame : token.category = category
    · rw [if_pos hsame, Token.firstSpellings_append_singleton]
      cases (session.tokens category .all).any token.sameSpelling <;> simp [hsame]
    · rw [if_neg hsame, if_neg fun hboth => hsame hboth.1, List.append_nil]
  consonant := by
    rw [tokens_remember]
    intro other hother
    change ∃ kept ∈ (session.sink.createToken token).2.stored, _
    change other ∈ if token.category = .consonant then session.tokens .consonant .all ++ [token]
      else session.tokens .consonant .all at hother
    have hold : other ∈ session.tokens .consonant .all →
        ∃ kept ∈ (session.sink.createToken token).2.stored,
          (kept.category = .consonant ∨ kept.category = .deadConsonant) ∧
            kept.pattern = other.pattern ∧ kept.value1 = other.value1 := by
      intro hmem
      obtain ⟨kept, hkept, hspelling⟩ := h.consonant other hmem
      refine ⟨kept, ?_, hspelling⟩
      rw [(TokenStore.createToken_of_ok session.sink token hok).2.1, TokenStore.stored_append]
      exact List.mem_append_left _ hkept
    split at hother
    · rename_i hconsonant
      rcases List.mem_append.mp hother with hmem | hlast
      · exact hold hmem
      · obtain rfl := List.mem_singleton.mp hlast
        exact TokenStore.exists_stored_of_createToken_ok session.sink other hok hconsonant
    · exact hold hother

/-- Submitting a token keeps the session and its sink in agreement. -/
theorem Mirrors.submit (h : session.Mirrors) (token : Token) :
    (session.submit token).2.Mirrors := by
  rcases submit_cases session token with ⟨-, journal, -, heq⟩ |
    ⟨-, ⟨refusal, herror⟩, journal, -, heq⟩ | ⟨-, hok, heq⟩
  · rw [heq]
    exact h.congr rfl fun _ _ => rfl
  · rw [heq, TokenStore.createToken_of_error session.sink _ herror]
    exact h.congr rfl fun _ _ => rfl
  · rw [heq]
    exact h.accept _ hok

/-- Every move keeps the session and its sink in agreement. -/
theorem Mirrors.move (hmove : session.Move after) (h : session.Mirrors) : after.Mirrors := by
  have hsink (operation : TokenStore.Operation)
      (hnot : ∀ token, operation ≠ .createToken token) :=
    TokenStore.stored_perform session.sink operation hnot
  cases hmove with
  | note _ => exact h.congr rfl fun _ _ => rfl
  | submit token => exact h.submit token
  | configure option =>
    exact h.congr (hsink (.configure option) fun _ => by simp) fun _ _ => rfl
  | refresh =>
    refine h.congr rfl fun category hcategory => ?_
    rw [Echoes.tokens_refreshDeadConsonants, if_neg hcategory]
  | stemRule rule =>
    exact h.congr (hsink (.createStemRule rule) fun _ => by simp) fun _ _ => rfl
  | stemException exempt =>
    exact h.congr (hsink (.createStemException exempt) fun _ => by simp) fun _ _ => rfl
  | openLists _ => exact h.congr rfl fun _ _ => rfl
  | closeLists => exact h.congr rfl fun _ _ => rfl
  | own _ _ => exact h.congr rfl fun _ _ => rfl

/-- Neither details nor a flush change what is stored and remembered. -/
theorem Mirrors.outerMove (hmove : session.OuterMove after) (h : session.Mirrors) :
    after.Mirrors := by
  refine h.congr (stored_of_outerMove hmove) fun category _ => ?_
  rw [tokens, tokens, (remembered_of_outerMove hmove).1]

/-- After any operations on a session over a new store, the store holds of every category that it
does not rewrite just what the session remembers, each spelling once and in the same order, and
every consonant that is remembered is held as a consonant or as a dead one. This is so in the
middle of a scope as well. -/
theorem tokensOf_visited (rejections : List (String × String)) (failsFlush : Bool)
    (settings : Settings) (session : Session TokenStore)
    (h : (Session.start ({ rejections, failsFlush } : TokenStore) settings).Visits session) :
    (∀ category, category ∉ [.consonant, .deadConsonant, .nonJoiner, .joiner] →
      session.sink.tokensOf category = Token.firstSpellings (session.tokens category .all)) ∧
    ∀ token ∈ session.tokens .consonant .all, ∃ kept ∈ session.sink.stored,
      (kept.category = .consonant ∨ kept.category = .deadConsonant) ∧
        kept.pattern = token.pattern ∧ kept.value1 = token.value1 := by
  have hstart : (Session.start ({ rejections, failsFlush } : TokenStore) settings).Mirrors :=
    ⟨fun _ _ => rfl, fun _ htoken => by contradiction⟩
  have hsession := h.reaches.keeps Mirrors.move Mirrors.outerMove hstart
  exact ⟨hsession.plain, hsession.consonant⟩

/-- A vowel that is declared, refused as a duplicate, and passed over as one, and a consonant that
is taken for a dead one. -/
def repeatedVowel : List Operation :=
  let vowel := .build .vowel { } (.map [(.str "a", .list [.str "A", .str "AA"])])
  [vowel, .ignoreDuplicates false, vowel, .ignoreDuplicates true, .tag "again" [vowel],
    .build .virama { } (.map [(.str "~", .str "x")]), .inferDeadConsonants true,
    .build .consonant { } (.map [(.str "k", .str "Kx")]), .finish "now"]

/-- The vowel is remembered twice, under two tags, and held once. The consonant is held as well. -/
theorem tokensOf_visited_repeatedVowel :
    let session := Operation.after repeatedVowel
      (Session.start ({ rejections := [("q", "none")] } : TokenStore) { })
    let vowel : Token := { category := .vowel, pattern := "a", value1 := "A", value2 := "AA" }
    let consonant : Token := { category := .consonant, pattern := "k", value1 := "Kx" }
    session.tokens .vowel .all = [vowel, { vowel with tag := "again" }] ∧
      session.sink.tokensOf .vowel = [vowel] ∧
      consonant ∈ session.tokens .consonant .all ∧
      ∃ kept ∈ session.sink.stored,
        (kept.category = .consonant ∨ kept.category = .deadConsonant) ∧
          kept.pattern = "k" ∧ kept.value1 = "Kx" := by
  intro session vowel consonant
  obtain ⟨hplain, hconsonant⟩ :=
    tokensOf_visited [("q", "none")] false { } session (Visits.start.after repeatedVowel)
  have hvowels : session.tokens .vowel .all = [vowel, { vowel with tag := "again" }] := by
    decide +kernel
  have hmem : consonant ∈ session.tokens .consonant .all := by decide +kernel
  refine ⟨hvowels, ?_, hmem, hconsonant consonant hmem⟩
  rw [hplain .vowel (by decide), hvowels]
  decide

end Session

end TranslitScheme
