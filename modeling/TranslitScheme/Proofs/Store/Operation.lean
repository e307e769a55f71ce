import TranslitScheme.Proofs.Store.Admission

/-!
# Operations on the token store

Everything that can be asked of a store, as data, so that statements can range over runs of
operations. A run goes on after a refusal, as the caller of a store may.

Every operation is atomic: `operations_atomic` says that a refusal leaves the store as it was,
and that creating a token only appends, namely those of its entries that were not held.
`perform_cases` says what an operation can do besides, so that facts about single parts of a store
need not look into the operations again.
-/

namespace TranslitScheme.TokenStore

/-- A call of one of the operations that may change a store. -/
inductive Operation where
  | createToken (token : Token)
  | flush
  | configure (option : SinkOption)
  | setDetails (details : Details)
  | createStemRule (rule : StemRule)
  | createStemException (exempt : StemException)
  deriving DecidableEq, Repr, Inhabited

/-- Carry out an operation. -/
def perform (store : TokenStore) : Operation → Except SinkError Unit × TokenStore
  | .createToken token => store.createToken token
  | .flush => store.flush
  | .configure option => (.ok (), store.configure option)
  | .setDetails details => store.setDetails details
  | .createStemRule rule => store.createStemRule rule
  | .createStemException exempt => store.createStemException exempt

/-- Carry out operations in order, whatever their outcomes. -/
def run (store : TokenStore) (operations : List Operation) : TokenStore :=
  operations.foldl (fun store operation => (store.perform operation).2) store

/-- What the operations of a run keep, the run keeps. -/
theorem run_invariant_of_mem (invariant : TokenStore → Prop) {operations : List Operation}
    (hstep : ∀ store, ∀ operation ∈ operations, invariant store →
      invariant (store.perform operation).2)
    {store : TokenStore} (hstore : invariant store) : invariant (store.run operations) := by
  induction operations generalizing store with
  | nil => exact hstore
  | cons operation rest ih =>
    exact ih (fun store other hother => hstep store other (List.mem_cons_of_mem _ hother))
      (hstep store operation List.mem_cons_self hstore)

/-- What every operation keeps, a run keeps. -/
theorem run_invariant (invariant : TokenStore → Prop)
    (hstep : ∀ store operation, invariant store → invariant (store.perform operation).2)
    (store : TokenStore) (operations : List Operation) (hstore : invariant store) :
    invariant (store.run operations) :=
  run_invariant_of_mem invariant (fun store operation _ => hstep store operation) hstore

/-- A refused operation leaves the store as it was. -/
theorem perform_of_error (store : TokenStore) (operation : Operation) (refusal : SinkError)
    (h : (store.perform operation).1 = .error refusal) : (store.perform operation).2 = store := by
  cases operation with
  | createToken token =>
    simp only [perform, createToken_eq] at h ⊢
    split at h
    · rfl
    · split at h
      · contradiction
      · split at h
        · rename_i hignore _ _ _
          simp [hignore]
        · contradiction
  | flush =>
    simp only [perform, flush] at h ⊢
    split at h
    · rename_i hfails
      rw [if_pos hfails]
    · contradiction
  | configure option => contradiction
  | setDetails details =>
    simp only [perform, setDetails] at h ⊢
    split at h
    · rename_i hblank
      rw [if_pos hblank]
    · split at h
      · rename_i hcode hblank
        rw [if_neg hcode, if_pos hblank]
      · contradiction
  | createStemRule rule =>
    simp only [perform, createStemRule] at h ⊢
    split at h
    · rename_i hblank
      rw [if_pos hblank]
    · contradiction
  | createStemException exempt =>
    simp only [perform, createStemException] at h ⊢
    split at h
    · rename_i hblank
      rw [if_pos hblank]
    · split at h
      · rename_i hrule hblank
        rw [if_neg hrule, if_pos hblank]
      · contradiction

/-- A token that is refused leaves the store as it was. -/
theorem createToken_of_error (store : TokenStore) (token : Token) {refusal : SinkError}
    (h : (store.createToken token).1 = .error refusal) : (store.createToken token).2 = store :=
  perform_of_error store (.createToken token) refusal h

/-- What an accepted token leaves: its checks passed, its missing entries were appended, and none
was missing unless duplicates are passed over. -/
theorem createToken_of_ok (store : TokenStore) (token : Token)
    (h : (store.createToken token).1 = .ok ()) :
    store.vet token = .ok () ∧
      (store.createToken token).2 = store.append (store.missing (store.entries token)) ∧
      (store.ignoresDuplicates = false →
        ∀ entry ∈ store.entries token, store.holds entry = false) := by
  rw [createToken_eq] at h ⊢
  cases hvet : store.vet token with
  | error refusal => simp [hvet] at h
  | ok _ =>
    refine ⟨rfl, ?_⟩
    by_cases hignore : store.ignoresDuplicates = true
    · simp [hignore]
    · cases hfound : (store.entries token).find? store.holds with
      | some entry => simp [hvet, hignore, hfound] at h
      | none =>
        have hnew : ∀ entry ∈ store.entries token, store.holds entry = false := by
          simpa using List.find?_eq_none.mp hfound
        have hall : store.missing (store.entries token) = store.entries token :=
          List.filter_eq_self.mpr fun entry hentry => by simp [hnew entry hentry]
        simp only [hignore]
        exact ⟨by rw [hall]; rfl, fun _ => hnew⟩

/-- A token appends some of its entries, or none when it is refused. -/
theorem exists_append_createToken (store : TokenStore) (token : Token) :
    ∃ new ⊆ store.entries token, (store.createToken token).2 = store.append new := by
  cases hresult : (store.createToken token).1 with
  | error refusal =>
    exact ⟨[], List.nil_subset _, by rw [createToken_of_error store token hresult, append_nil]⟩
  | ok _ =>
    exact ⟨_, List.filter_sublist.subset, (createToken_of_ok store token hresult).2.1⟩

/-- What an operation can do to a store. It creates a token, flushes, or sets a switch. Otherwise it
writes at most the details, the stem rules and the stem exceptions, and does so in the same way
whatever tokens are stored. -/
theorem perform_cases (store : TokenStore) (operation : Operation) :
    (∃ token, operation = .createToken token ∧
      ∃ new ⊆ store.entries token, (store.perform operation).2 = store.append new) ∨
    (operation = .flush ∧ ((store.perform operation).2 = store ∨
      (store.perform operation).2 = { store with flushed := store.stored, buffer := [] })) ∨
    (∃ option, operation = .configure option ∧
      (store.perform operation).2 = store.configure option) ∨
    ∃ outcome details stemRules stemExceptions, ∀ flushed buffer,
      ({ store with flushed, buffer } : TokenStore).perform operation =
        (outcome, { store with flushed, buffer, details, stemRules, stemExceptions }) := by
  cases operation with
  | createToken token => exact .inl ⟨token, rfl, store.exists_append_createToken token⟩
  | flush =>
    refine .inr (.inl ⟨rfl, ?_⟩)
    simp only [perform, flush]
    split
    · exact .inl rfl
    · exact .inr rfl
  | configure option => exact .inr (.inr (.inl ⟨option, rfl, rfl⟩))
  | setDetails details =>
    refine .inr (.inr (.inr ?_))
    by_cases hcode : details.languageCode = ""
    · exact ⟨_, _, _, _, fun _ _ => if_pos hcode⟩
    · by_cases hidentifier : details.identifier = ""
      · exact ⟨_, _, _, _, fun _ _ => (if_neg hcode).trans (if_pos hidentifier)⟩
      · exact ⟨_, _, _, _, fun _ _ => (if_neg hcode).trans (if_neg hidentifier)⟩
  | createStemRule rule =>
    refine .inr (.inr (.inr ?_))
    by_cases hblank : rule.oldEnding = "" ∨ rule.newEnding = ""
    · exact ⟨_, _, _, _, fun _ _ => if_pos hblank⟩
    · exact ⟨.ok (), _, store.stemRules ++ [rule], _, fun _ _ => if_neg hblank⟩
  | createStemException exempt =>
    refine .inr (.inr (.inr ?_))
    by_cases hrule : exempt.rule = ""
    · exact ⟨_, _, _, _, fun _ _ => if_pos hrule⟩
    · by_cases hending : exempt.ending = ""
      · exact ⟨_, _, _, _, fun _ _ => (if_neg hrule).trans (if_pos hending)⟩
      · exact ⟨.ok (), _, _, store.stemExceptions ++ [exempt],
          fun _ _ => (if_neg hrule).trans (if_neg hending)⟩

/-- No operation changes what a store rejects and whether its flush fails. -/
theorem rejections_perform (store : TokenStore) (operation : Operation) :
    (store.perform operation).2.rejections = store.rejections ∧
      (store.perform operation).2.failsFlush = store.failsFlush := by
  rcases perform_cases store operation with ⟨_, -, _, -, hleft⟩ | ⟨-, hleft | hleft⟩ |
    ⟨option, -, hleft⟩ | ⟨_, _, _, _, hdescribed⟩
  · rw [hleft]; exact ⟨rfl, rfl⟩
  · rw [hleft]; exact ⟨rfl, rfl⟩
  · rw [hleft]; exact ⟨rfl, rfl⟩
  · rw [hleft]; cases option <;> exact ⟨rfl, rfl⟩
  · have hleft := hdescribed store.flushed store.buffer
    exact ⟨congrArg (fun ran => ran.2.rejections) hleft,
      congrArg (fun ran => ran.2.failsFlush) hleft⟩

/-- All entries of a token that was accepted are held afterwards, those that were new and those that
were there before. -/
theorem holds_of_createToken_ok (store : TokenStore) (token : Token)
    (h : (store.createToken token).1 = .ok ()) :
    ∀ entry ∈ store.entries token, (store.createToken token).2.holds entry = true := by
  intro entry hentry
  rw [(createToken_of_ok store token h).2.1, holds_append, Bool.or_eq_true]
  by_cases hheld : store.holds entry = true
  · exact Or.inl hheld
  · refine Or.inr (List.any_eq_true.mpr ⟨entry, List.mem_filter.mpr ⟨hentry, ?_⟩, by simp⟩)
    simpa using hheld

/-- Operations are atomic. A refused one changes nothing, and creating a token appends to the
buffer those of its entries that were not held, which are all of them unless duplicates are
passed over. -/
theorem operations_atomic (store : TokenStore) :
    (∀ operation refusal, (store.perform operation).1 = .error refusal →
      (store.perform operation).2 = store) ∧
    ∀ token, (store.createToken token).1 = .ok () →
      (store.createToken token).2 =
        { store with
          buffer := store.buffer ++
            ((store.derived? token).toList ++ [store.normalForm token]).filter fun entry =>
              !store.stored.any fun other => other.sameEntry entry } ∧
      (store.ignoresDuplicates = false →
        ∀ entry ∈ (store.derived? token).toList ++ [store.normalForm token],
          ∀ other ∈ store.stored, other.sameEntry entry = false) := by
  refine ⟨fun operation refusal => perform_of_error store operation refusal, fun token h => ?_⟩
  obtain ⟨_, happended, hnew⟩ := createToken_of_ok store token h
  refine ⟨happended, fun hignore entry hentry => ?_⟩
  have hfree := hnew hignore entry hentry
  simpa [holds] using hfree

/-- A store that derives dead forms and refuses duplicates, in which the consonant `ka` is held
but not its dead form. -/
def withoutDeadForm : TokenStore where
  flushed := [{ category := .virama, pattern := "~", value1 := "x" }]
  buffer := [{ category := .consonant, pattern := "ka", value1 := "k" }]
  infersDeadConsonants := true
  ignoresDuplicates := false

/-- The duplicate of `ka` is refused after its dead form was buffered, and `ga` is appended behind
its own dead form. -/
theorem operations_atomic_withoutDeadForm :
    (withoutDeadForm.perform
        (.createToken { category := .consonant, pattern := "ka", value1 := "k" })).2 =
      withoutDeadForm ∧
    (withoutDeadForm.createToken { category := .consonant, pattern := "ga", value1 := "g" }).2 =
      withoutDeadForm.append
        [{ category := .deadConsonant, pattern := "g", value1 := "gx" },
          { category := .consonant, pattern := "ga", value1 := "g" }] := by
  refine ⟨(operations_atomic withoutDeadForm).1 _ (.duplicate "ka" "k") rfl, ?_⟩
  refine ((operations_atomic withoutDeadForm).2 _ rfl).1.trans ?_
  decide +kernel

end TranslitScheme.TokenStore
