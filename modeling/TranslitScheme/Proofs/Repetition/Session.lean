import TranslitScheme.Proofs.NamedLists.Places
import TranslitScheme.Proofs.Repetition.Template
import TranslitScheme.Session.Finish
import TranslitScheme.Session.Query
import TranslitScheme.Session.Scope
import TranslitScheme.Session.Stemming

/-!
# Sessions in which work was done twice

A session remembers a token whenever the sink says that it was accepted, also when the sink passed
over a duplicate. After a declaration was made twice, the tokens of its category and of the lists
that were open are therefore repeated, and whatever is derived from them may be repeated in turn or
become one of several spellings.

A spread says for each source of tokens whether it may hold repetitions and whether it may hold
such spellings. `Echoes` compares two sessions under a spread, and every operation keeps it, given
that the spread covers what the operation derives.
-/

namespace TranslitScheme

/-- Which sources may hold tokens again, and which may hold tokens as spellings. -/
structure Spread where
  again : TokenSource → Prop
  loose : TokenSource → Prop

namespace Spread

/-- Where a token of a category is remembered while a list scope is open. -/
def targets (category : Category) (scope : List String) : List TokenSource :=
  .category category :: scope.map TokenSource.list

/-- Tokens of a category may be repeated, and be spellings, everywhere they are remembered. -/
def Covers (spread : Spread) (again loose : Prop) (category : Category) (scope : List String) :
    Prop :=
  ∀ target ∈ targets category scope,
    (again → spread.again target) ∧ (loose → spread.loose target)

/-- The categories whose tokens may be spellings. -/
def looseIn (spread : Spread) (category : Category) : Prop := spread.loose (.category category)

/-- Tokens of a source as they may be after work was done twice. -/
def Relates (spread : Spread) (source : TokenSource) : List Token → List Token → Prop :=
  Repeats (spread.again source) (Token.Loosens (spread.loose source))

/-- Dead consonants, which are made of consonants, may be spellings when consonants may. -/
def Closed (spread : Spread) : Prop :=
  spread.loose (.category .consonant) → spread.loose (.category .deadConsonant)

/-- Nothing is repeated and nothing becomes a spelling. -/
def none : Spread := ⟨fun _ => False, fun _ => False⟩

variable {spread : Spread} {again loose : Prop} {category : Category} {scope : List String}

/-- A token is remembered under its category. -/
theorem Covers.in_category (h : spread.Covers again loose category scope) :
    (again → spread.again (.category category)) ∧ (loose → spread.loose (.category category)) :=
  h _ List.mem_cons_self

/-- A token is remembered in the lists of the scope. -/
theorem Covers.in_list (h : spread.Covers again loose category scope) {name : String}
    (hname : name ∈ scope) :
    (again → spread.again (.list name)) ∧ (loose → spread.loose (.list name)) :=
  h _ (List.mem_cons_of_mem _ (List.mem_map_of_mem hname))

/-- Less is covered as well. -/
theorem Covers.imp {again' loose' : Prop} (h : spread.Covers again loose category scope)
    (hagain : again' → again) (hloose : loose' → loose) :
    spread.Covers again' loose' category scope :=
  fun target htarget => ⟨(h target htarget).1 ∘ hagain, (h target htarget).2 ∘ hloose⟩

/-- Where nothing is a spelling, dead consonants are none. -/
theorem closed_none : none.Closed := False.elim

/-- Nothing is covered by every spread. -/
theorem covers_nothing (spread : Spread) (category : Category) (scope : List String) :
    spread.Covers False False category scope :=
  fun _ _ => ⟨False.elim, False.elim⟩

end Spread

namespace Session

/-- The names of the open lists. -/
def openNames {σ : Type} (session : Session σ) : List String := session.lists.openNames

/-- A token is among the built ones and in all open lists. -/
def Remembers {σ : Type} (session : Session σ) (token : Token) : Prop :=
  token ∈ session.built ∧
    ∀ list ∈ session.lists.lists, list.name ∈ session.openNames → token ∈ list.tokens

/-- A token that is added is remembered, and so are those that were before. -/
theorem remembers_remember {σ : Type} (session : Session σ) (token other : Token)
    (h : other = token ∨ session.Remembers other) : (session.remember token).Remembers other := by
  refine ⟨?_, fun list hlist hopen => ?_⟩
  · rcases h with rfl | hold
    · exact List.mem_append_right _ (List.mem_singleton_self _)
    · exact List.mem_append_left _ hold.1
  · rw [openNames, remember, NamedLists.openNames_record] at hopen
    rw [remember, NamedLists.lists_record_eq_map] at hlist
    obtain ⟨old, hmem, rfl⟩ := List.mem_map.mp hlist
    have hname : old.name ∈ session.lists.openNames := by
      split at hopen <;> exact hopen
    rw [if_pos hname]
    rcases h with rfl | hold
    · exact List.mem_append_right _ (List.mem_singleton_self _)
    · exact List.mem_append_left _ (hold.2 old hmem hname)

/-- A token that is remembered comes last among those of its category. -/
theorem tokens_remember {σ : Type} (session : Session σ) (token : Token) (category : Category) :
    (session.remember token).tokens category .all =
      if token.category = category then session.tokens category .all ++ [token]
      else session.tokens category .all := by
  simp only [tokens, remember, List.filter_append, List.filter_singleton, TokenFilter.selects,
    Bool.and_true]
  by_cases hcategory : token.category = category
  · simp [hcategory]
  · simp [hcategory, beq_false_of_ne hcategory]

/-- Two sessions are the same but for the journal, and for what a spread allows in the sink, among
the built tokens and in the lists. -/
structure Echoes (spread : Spread) (session other : Session TokenStore) : Prop where
  sink : session.sink.Loosens spread.looseIn other.sink
  ignores : session.sink.ignoresDuplicates = true
  built : ∀ category, spread.Relates (.category category) (session.tokens category .all)
    (other.tokens category .all)
  lists : List.Forall₂
    (fun list list' => list'.name = list.name ∧
      spread.Relates (.list list.name) list.tokens list'.tokens)
    session.lists.lists other.lists.lists
  scope : other.lists.scope = session.lists.scope
  settings : other.settings = session.settings
  tag : other.journal.tag = session.journal.tag
  ownNonJoiner : other.ownNonJoiner = session.ownNonJoiner
  ownJoiner : other.ownJoiner = session.ownJoiner
  details : other.details = session.details

namespace Echoes

variable {spread : Spread} {session other : Session TokenStore}

/-- A session is the same as itself, when its store passes over duplicates. -/
theorem refl (session : Session TokenStore) (hignores : session.sink.ignoresDuplicates = true) :
    session.Echoes spread session where
  sink := .refl _
  ignores := hignores
  built _ := .refl Token.Loosens.refl _
  lists := List.forall₂_same.mpr fun _ _ => ⟨rfl, .refl Token.Loosens.refl _⟩
  scope := rfl
  settings := rfl
  tag := rfl
  ownNonJoiner := rfl
  ownJoiner := rfl
  details := rfl

/-- The journal does not count, but for its tag. -/
theorem journal (h : session.Echoes spread other) {journal journal' : Journal}
    (htag : journal'.tag = journal.tag) :
    ({ session with journal } : Session TokenStore).Echoes spread
      { other with journal := journal' } :=
  { h with tag := htag }

/-- The journal of the other side does not count, but for its tag. -/
theorem journal_right (h : session.Echoes spread other) {journal : Journal}
    (htag : journal.tag = other.journal.tag) :
    session.Echoes spread { other with journal } :=
  { h with tag := htag.trans h.tag }

/-- The stores may be replaced by related ones. -/
theorem stores (h : session.Echoes spread other) {sink sink' : TokenStore}
    (hsink : sink.Loosens spread.looseIn sink') (hignores : sink.ignoresDuplicates = true) :
    ({ session with sink } : Session TokenStore).Echoes spread { other with sink := sink' } :=
  { h with sink := hsink, ignores := hignores }

/-- There are lists of the same names. -/
theorem names_eq (h : session.Echoes spread other) :
    other.lists.lists.map NamedList.name = session.lists.lists.map NamedList.name := by
  rw [← List.forall₂_eq_eq_eq, List.forall₂_map_left_iff, List.forall₂_map_right_iff]
  exact h.lists.flip.imp fun _ _ hlist => hlist.1

/-- The same names are open. -/
theorem openNames (h : session.Echoes spread other) : other.openNames = session.openNames := by
  rw [Session.openNames, NamedLists.openNames, h.scope]
  exact NamedList.namesAt_congr h.names_eq _

/-- Related tokens may be remembered on both sides. -/
theorem remember (h : session.Echoes spread other) {token token' : Token} {may : Prop}
    (htoken : token.Loosens may token')
    (hcovers : spread.Covers False may token.category session.openNames) :
    (session.remember token).Echoes spread (other.remember token') := by
  refine { h with built := fun category => ?_, lists := ?_ }
  · rw [tokens_remember, tokens_remember, htoken.category_eq]
    by_cases hcategory : token.category = category
    · rw [if_pos hcategory, if_pos hcategory]
      exact (h.built category).next (htoken.imp (hcategory ▸ hcovers.in_category.2))
    · rw [if_neg hcategory, if_neg hcategory]
      exact h.built category
  · have hnames : other.lists.openNames = session.lists.openNames := h.openNames
    rw [Session.remember, Session.remember, NamedLists.lists_record_eq_map,
      NamedLists.lists_record_eq_map]
    refine List.forall₂_map_left_iff.mpr (List.forall₂_map_right_iff.mpr (h.lists.imp ?_))
    rintro list list' ⟨hname, htokens⟩
    rw [hname, hnames]
    by_cases hopen : list.name ∈ session.lists.openNames
    · rw [if_pos hopen, if_pos hopen]
      exact ⟨hname, htokens.next (htoken.imp (hcovers.in_list hopen).2)⟩
    · rw [if_neg hopen, if_neg hopen]
      exact ⟨hname, htokens⟩

/-- A token that is remembered already may be remembered again on the other side. -/
theorem remember_again (h : session.Echoes spread other) {token token' : Token} {may : Prop}
    (htoken : token.Loosens may token')
    (hcovers : spread.Covers True may token.category session.openNames)
    (hremembers : session.Remembers token) : session.Echoes spread (other.remember token') := by
  refine { h with built := fun category => ?_, lists := ?_ }
  · rw [tokens_remember, htoken.category_eq]
    by_cases hcategory : token.category = category
    · subst hcategory
      rw [if_pos rfl]
      exact .again (hcovers.in_category.1 trivial) (h.built _)
        (List.mem_filter.mpr ⟨hremembers.1, by simp [TokenFilter.selects]⟩)
        (htoken.imp hcovers.in_category.2)
    · rw [if_neg hcategory]
      exact h.built category
  · have hnames : other.lists.openNames = session.lists.openNames := h.openNames
    have hboth := (List.forall₂_and_left _ _).mpr ⟨hremembers.2, h.lists⟩
    rw [Session.remember, NamedLists.lists_record_eq_map]
    refine List.forall₂_map_right_iff.mpr (hboth.imp ?_)
    rintro list list' ⟨hlist, hname, htokens⟩
    rw [hname, hnames]
    by_cases hopen : list.name ∈ session.lists.openNames
    · rw [if_pos hopen]
      exact ⟨hname, .again ((hcovers.in_list hopen).1 trivial) htokens (hlist hopen)
        (htoken.imp (hcovers.in_list hopen).2)⟩
    · rw [if_neg hopen]
      exact ⟨hname, htokens⟩

end Echoes

/-- A token as it is handed to the sink. -/
def tagged {σ : Type} (session : Session σ) (token : Token) : Token :=
  { token with tag := session.journal.tag.getD "" }

/-- A token that is not handed to the sink, as its pattern or first value is blank. -/
def Blank (token : Token) : Prop := token.pattern = "" ∨ token.value1 = ""

/-- A blank token is not handed to the sink. -/
theorem submit_of_blank (session : Session TokenStore) (token : Token)
    (hblank : Blank (session.tagged token)) :
    session.submit token = (false, session.refuse .shapeEmptyValue (session.tagged token)
      "Empty patterns and values are not allowed") :=
  if_pos hblank

/-- A token that is not blank is handed to the sink. -/
theorem submit_of_not_blank (session : Session TokenStore) (token : Token)
    (hblank : ¬ Blank (session.tagged token)) :
    session.submit token =
      match session.sink.createToken (session.tagged token) with
      | (.error refusal, sink) => (false, ({ session with sink } : Session TokenStore).refuse
          .sinkRejected (session.tagged token) refusal.message)
      | (.ok (), sink) =>
        (true, ({ session with sink } : Session TokenStore).remember (session.tagged token)) := by
  refine (if_neg hblank).trans ?_
  rcases hcreated : session.sink.createToken (session.tagged token) with ⟨refusal | ⟨⟩, sink⟩ <;>
    change TokenSink.createToken session.sink
      { token with tag := session.journal.tag.getD "" } = _ at hcreated <;>
    rw [hcreated] <;> rfl

/-- A token that is submitted is blank, or the sink refuses it, or it is remembered. -/
theorem submit_cases (session : Session TokenStore) (token : Token) :
    (Blank (session.tagged token) ∧ ∃ journal, journal.tag = session.journal.tag ∧
      session.submit token = (false, { session with journal })) ∨
    (¬ Blank (session.tagged token) ∧
      (∃ refusal, (session.sink.createToken (session.tagged token)).1 = .error refusal) ∧
      ∃ journal, journal.tag = session.journal.tag ∧
        session.submit token = (false,
          { session with
            sink := (session.sink.createToken (session.tagged token)).2
            journal })) ∨
    (¬ Blank (session.tagged token) ∧
      (session.sink.createToken (session.tagged token)).1 = .ok () ∧
      session.submit token = (true,
        { session with sink := (session.sink.createToken (session.tagged token)).2 }.remember
          (session.tagged token))) := by
  by_cases hblank : Blank (session.tagged token)
  · refine Or.inl ⟨hblank, session.journal.errorIn .shapeEmptyValue
      (session.tagged token).expression "Empty patterns and values are not allowed", rfl, ?_⟩
    exact submit_of_blank session token hblank
  · rw [submit_of_not_blank session token hblank]
    rcases session.sink.createToken (session.tagged token) with ⟨refusal | ⟨⟩, sink⟩
    · exact Or.inr (Or.inl ⟨hblank, ⟨refusal, rfl⟩, session.journal.errorIn .sinkRejected
        (session.tagged token).expression refusal.message, rfl, rfl⟩)
    · exact Or.inr (Or.inr ⟨hblank, rfl, rfl⟩)

/-- What submitting tokens leaves as it was: whether the sink passes over duplicates, the tag, the
open lists, and which joiners are declared. -/
structure Frames (session after : Session TokenStore) : Prop where
  ignores : after.sink.ignoresDuplicates = session.sink.ignoresDuplicates
  tag : after.journal.tag = session.journal.tag
  openNames : after.openNames = session.openNames
  ownNonJoiner : after.ownNonJoiner = session.ownNonJoiner
  ownJoiner : after.ownJoiner = session.ownJoiner

/-- What each of two parts leaves as it was, both together leave as it was. -/
theorem Frames.trans {session middle after : Session TokenStore} (h : session.Frames middle)
    (h' : middle.Frames after) : session.Frames after where
  ignores := h'.ignores.trans h.ignores
  tag := h'.tag.trans h.tag
  openNames := h'.openNames.trans h.openNames
  ownNonJoiner := h'.ownNonJoiner.trans h.ownNonJoiner
  ownJoiner := h'.ownJoiner.trans h.ownJoiner

/-- What submitting a token leaves as it was. -/
theorem frames_submit (session : Session TokenStore) (token : Token) :
    session.Frames (session.submit token).2 := by
  have hstore := TokenStore.ignores_createToken session.sink (session.tagged token)
  rcases submit_cases session token with ⟨_, journal, htag, heq⟩ | ⟨_, _, journal, htag, heq⟩ |
    ⟨_, _, heq⟩
  · rw [heq]
    exact ⟨rfl, htag, rfl, rfl, rfl⟩
  · rw [heq]
    exact ⟨hstore, htag, rfl, rfl, rfl⟩
  · rw [heq]
    exact ⟨hstore, rfl, NamedLists.openNames_record _ _, rfl, rfl⟩

/-- Submitting a token forgets none. -/
theorem Remembers.submit {session : Session TokenStore} {other : Token}
    (h : session.Remembers other) (token : Token) : (session.submit token).2.Remembers other := by
  rcases submit_cases session token with ⟨_, journal, _, heq⟩ | ⟨_, _, journal, _, heq⟩ |
    ⟨_, _, heq⟩
  · rw [heq]
    exact h
  · rw [heq]
    exact h
  · rw [heq]
    exact remembers_remember _ _ other (Or.inr h)

/-- Submitting a token again adds nothing but a repetition. -/
def Digests (session : Session TokenStore) (token : Token) : Prop :=
  Blank (session.tagged token) ∨
    session.sink.Digests (session.tagged token) ∧
      ((session.sink.createToken (session.tagged token)).1 = .ok () →
        session.Remembers (session.tagged token))

/-- A token that was submitted is digested. -/
theorem digests_submit (session : Session TokenStore) (token : Token) :
    (session.submit token).2.Digests token := by
  have htagged : (session.submit token).2.tagged token = session.tagged token := by
    rw [tagged, tagged, (frames_submit session token).tag]
  have hdigests := TokenStore.digests_createToken session.sink (session.tagged token)
  rw [Digests, htagged]
  rcases submit_cases session token with ⟨hblank, _⟩ | ⟨_, ⟨refusal, herror⟩, journal, _, heq⟩ |
    ⟨_, _, heq⟩
  · exact Or.inl hblank
  · rw [heq]
    refine Or.inr ⟨hdigests, fun hok => ?_⟩
    change ((session.sink.createToken (session.tagged token)).2.createToken _).1 = _ at hok
    rw [TokenStore.createToken_of_error session.sink _ herror, herror] at hok
    contradiction
  · rw [heq]
    exact Or.inr ⟨hdigests, fun _ => remembers_remember _ _ _ (Or.inl rfl)⟩

/-- A digested token stays digested when another one of its category is submitted. -/
theorem Digests.submit {session : Session TokenStore} {token other : Token}
    (h : session.Digests token) (hignores : session.sink.ignoresDuplicates = true)
    (hcategory : other.category = token.category) : (session.submit other).2.Digests token := by
  have htagged : (session.submit other).2.tagged token = session.tagged token := by
    rw [tagged, tagged, (frames_submit session other).tag]
  rw [Digests, htagged]
  rcases h with hblank | ⟨hdigests, hremembered⟩
  · exact Or.inl hblank
  · have hkind : (session.tagged other).category = (session.tagged token).category := hcategory
    have hkept := hdigests.createToken hkind
    have hresult := TokenStore.result_createToken_of_ignores session.sink hignores hkind
    have hstill := fun hok => (hremembered hok).submit other
    rcases submit_cases session other with ⟨_, journal, _, heq⟩ | ⟨_, _, journal, _, heq⟩ |
      ⟨_, _, heq⟩
    · rw [heq] at hstill ⊢
      exact Or.inr ⟨hdigests, hstill⟩
    · rw [heq] at hstill ⊢
      exact Or.inr ⟨hkept, fun hok => hstill (hresult.symm.trans hok)⟩
    · rw [heq] at hstill ⊢
      exact Or.inr ⟨hkept, fun hok => hstill (hresult.symm.trans hok)⟩

/-- Tokens are submitted one after the other. -/
theorem submitAll_append {σ : Type} [TokenSink σ] (session : Session σ)
    (tokens tokens' : List Token) :
    (session.submitAll (tokens ++ tokens')).2 =
      ((session.submitAll tokens).2.submitAll tokens').2 := by
  induction tokens generalizing session with
  | nil => rfl
  | cons token rest ih => exact ih (session.submit token).2

/-- The last token is submitted after the others. -/
theorem submitAll_append_singleton (session : Session TokenStore) (tokens : List Token)
    (token : Token) :
    (session.submitAll (tokens ++ [token])).2 = ((session.submitAll tokens).2.submit token).2 :=
  submitAll_append session tokens [token]

/-- What submitting tokens leaves as it was. -/
theorem frames_submitAll (session : Session TokenStore) (tokens : List Token) :
    session.Frames (session.submitAll tokens).2 := by
  induction tokens generalizing session with
  | nil => exact ⟨rfl, rfl, rfl, rfl, rfl⟩
  | cons token rest ih => exact (frames_submit session token).trans (ih (session.submit token).2)

/-- Tokens of one category are digested after all of them were submitted. -/
theorem digests_submitAll (session : Session TokenStore) (tokens : List Token)
    (hignores : session.sink.ignoresDuplicates = true) {category : Category}
    (hcategory : ∀ token ∈ tokens, token.category = category) :
    ∀ token ∈ tokens, (session.submitAll tokens).2.Digests token := by
  induction tokens using List.reverseRecOn with
  | nil => simp
  | append_singleton tokens last ih =>
    intro token htoken
    have hstill := (frames_submitAll session tokens).ignores.trans hignores
    rw [submitAll_append_singleton]
    rcases List.mem_append.mp htoken with hold | hnew
    · have hbefore := ih (fun earlier hearlier =>
        hcategory earlier (List.mem_append_left _ hearlier)) token hold
      refine hbefore.submit hstill ?_
      rw [hcategory last (by simp), hcategory token htoken]
    · rw [List.mem_singleton.mp hnew]
      exact digests_submit _ last

namespace Echoes

variable {spread : Spread} {session other : Session TokenStore} {token token' : Token} {may : Prop}

/-- Related tokens are handed to the sink as related tokens. -/
theorem tagged (h : session.Echoes spread other) (htoken : token.Loosens may token') :
    (session.tagged token).Loosens may (other.tagged token') := by
  unfold Session.tagged
  rw [h.tag]
  exact htoken.change (fun token => { token with tag := session.journal.tag.getD "" })
    fun _ _ => rfl

/-- Related tokens are blank alike. -/
theorem blank_iff (htoken : token.Loosens may token') : Blank token' ↔ Blank token := by
  obtain ⟨matching, rfl⟩ := htoken.exists_matching
  exact Iff.rfl

/-- Submitting related tokens on both sides keeps sessions the same. -/
theorem submit (h : session.Echoes spread other) (hclosed : spread.Closed)
    (htoken : token.Loosens may token')
    (hcovers : spread.Covers False may token.category session.openNames) :
    (session.submit token).2.Echoes spread (other.submit token').2 := by
  have htagged := h.tagged htoken
  obtain ⟨hresult, hsink⟩ := h.sink.createToken htagged hcovers.in_category.2 hclosed h.ignores
  have hstores := h.stores hsink
    ((TokenStore.ignores_createToken _ _).trans h.ignores)
  rcases submit_cases session token with ⟨hblank, journal, htag, heq⟩ |
    ⟨hblank, ⟨refusal, herror⟩, journal, htag, heq⟩ | ⟨hblank, hok, heq⟩
  · rcases submit_cases other token' with ⟨_, journal', htag', heq'⟩ | ⟨hblank', _⟩ | ⟨hblank', _⟩
    · rw [heq, heq']
      exact h.journal (by rw [htag, htag', h.tag])
    · exact absurd ((blank_iff htagged).mpr hblank) hblank'
    · exact absurd ((blank_iff htagged).mpr hblank) hblank'
  · rcases submit_cases other token' with ⟨hblank', _⟩ | ⟨_, _, journal', htag', heq'⟩ |
      ⟨_, hok', _⟩
    · exact absurd ((blank_iff htagged).mp hblank') hblank
    · rw [heq, heq']
      exact hstores.journal (by rw [htag, htag', h.tag])
    · rw [hresult, herror] at hok'
      contradiction
  · rcases submit_cases other token' with ⟨hblank', _⟩ | ⟨_, ⟨refusal', herror'⟩, _⟩ |
      ⟨_, _, heq'⟩
    · exact absurd ((blank_iff htagged).mp hblank') hblank
    · rw [hresult, hok] at herror'
      contradiction
    · rw [heq, heq']
      exact hstores.remember htagged hcovers

/-- Submitting a token again on the other side, when this side has digested it. -/
theorem submit_again (h : session.Echoes spread other) (hclosed : spread.Closed)
    (htoken : token.Loosens may token')
    (hcovers : spread.Covers True may token.category session.openNames)
    (hdigests : session.Digests token) : session.Echoes spread (other.submit token').2 := by
  have htagged := h.tagged htoken
  rcases submit_cases other token' with ⟨_, journal', htag', heq'⟩ |
    ⟨hblank', _, journal', htag', heq'⟩ | ⟨hblank', hok', heq'⟩
  · rw [heq']
    exact h.journal_right htag'
  all_goals
    -- The sink of this side is the one that creating the token would leave.
    rcases hdigests with hblank | ⟨hsame, hremembered⟩
    · exact absurd ((blank_iff htagged).mpr hblank) hblank'
    obtain ⟨hresult, hsink⟩ := h.sink.createToken htagged hcovers.in_category.2 hclosed h.ignores
    rw [TokenStore.Digests] at hsame
    rw [hsame] at hsink
    have hstores := h.stores hsink h.ignores
    rw [heq']
  · exact hstores.journal_right htag'
  · exact hstores.remember_again htagged hcovers (hremembered (hresult ▸ hok'))

/-- Submitting tokens, and on the other side tokens that repeat them, keeps sessions the same. -/
theorem submitAll (h : session.Echoes spread other) (hclosed : spread.Closed) {again : Prop}
    {category : Category} {tokens tokens' : List Token}
    (htokens : Repeats again (Token.Loosens may) tokens tokens')
    (hcategory : ∀ token ∈ tokens, token.category = category)
    (hcovers : spread.Covers again may category session.openNames) :
    (session.submitAll tokens).2.Echoes spread (other.submitAll tokens').2 := by
  induction htokens with
  | nil => exact h
  | @next tokens tokens' token token' _ htoken ih =>
    rw [submitAll_append_singleton, submitAll_append_singleton]
    have hbefore := ih fun earlier hearlier => hcategory earlier (List.mem_append_left _ hearlier)
    refine hbefore.submit hclosed htoken ?_
    rw [(frames_submitAll session tokens).openNames, hcategory token (by simp)]
    exact hcovers.imp False.elim id
  | @again tokens tokens' token token' hagain _ hmem htoken ih =>
    rw [submitAll_append_singleton]
    refine (ih hcategory).submit_again hclosed htoken ?_
      (digests_submitAll session tokens h.ignores hcategory token hmem)
    rw [(frames_submitAll session tokens).openNames, hcategory token hmem]
    exact hcovers.imp (fun _ => hagain) id

/-- Submitting digested tokens once more on the other side keeps sessions the same. -/
theorem submitAll_again (h : session.Echoes spread other) (hclosed : spread.Closed)
    {category : Category} {tokens : List Token}
    (hcategory : ∀ token ∈ tokens, token.category = category)
    (hcovers : spread.Covers True False category session.openNames)
    (hdigests : ∀ token ∈ tokens, session.Digests token) :
    session.Echoes spread (other.submitAll tokens).2 := by
  induction tokens using List.reverseRecOn with
  | nil => exact h
  | append_singleton tokens token ih =>
    rw [submitAll_append_singleton]
    have hbefore := ih (fun earlier hearlier => hcategory earlier (List.mem_append_left _ hearlier))
      fun earlier hearlier => hdigests earlier (List.mem_append_left _ hearlier)
    have htarget : spread.Covers True False token.category session.openNames := by
      rwa [hcategory token (by simp)]
    exact hbefore.submit_again hclosed (.refl token) htarget (hdigests token (by simp))

end Echoes

end Session

end TranslitScheme
