import TranslitScheme.Proofs.Store.Footprint

/-!
# Flushing cannot be told from outside

Flushing moves tokens from the buffer behind the flushed ones, and everything that a store does
looks at both together: the search for duplicates and for the virama, the tokens of a category, and
the cut of the buffer when a token is refused after its dead form was buffered. So a store answers
as the settled one does, in which all its tokens are flushed, and settling is kept by every call.

`transcript_of_moreFlushes` follows two runs through this. One of them has further flushes in any
places. The other calls get the same answers, and the tables are equal after a last flush.
-/

namespace TranslitScheme.TokenStore

/-- What is asked of a store: an operation, or its tokens of a category. -/
inductive Call where
  | perform (operation : Operation)
  | tokensOf (category : Category)
  deriving DecidableEq, Repr, Inhabited

/-- What a store answers: how an operation came out, or tokens. -/
inductive Answer where
  | outcome (result : Except SinkError Unit)
  | tokens (tokens : List Token)

/-- Flushing, as a call. -/
def Call.flush : Call := .perform .flush

/-- The answer to a call, and the store after it. -/
def respond (store : TokenStore) : Call → Answer × TokenStore
  | .perform operation =>
    (.outcome (store.perform operation).1, (store.perform operation).2)
  | .tokensOf category => (.tokens (store.tokensOf category), store)

/-- The calls of a run, each with its answer. -/
def transcript (store : TokenStore) : List Call → List (Call × Answer)
  | [] => []
  | call :: rest => (call, (store.respond call).1) :: (store.respond call).2.transcript rest

/-- The store after a run of calls, whatever their answers. -/
def afterCalls (store : TokenStore) (calls : List Call) : TokenStore :=
  calls.foldl (fun store call => (store.respond call).2) store

/-- A list with an item put in at further places. -/
inductive WithMore {α : Type} (item : α) : List α → List α → Prop
  | nil : WithMore item [] []
  | both (other : α) {few many : List α} (h : WithMore item few many) :
      WithMore item (other :: few) (other :: many)
  | more {few many : List α} (h : WithMore item few many) : WithMore item few (item :: many)

/-- A store with all its tokens flushed. -/
def settled (store : TokenStore) : TokenStore :=
  { store with flushed := store.stored, buffer := [] }

variable {store other : TokenStore}

/-- Settling changes nothing about what is stored. -/
@[simp] theorem stored_settled (store : TokenStore) : store.settled.stored = store.stored := by
  simp [settled, stored]

/-- Settling once is enough. -/
@[simp] theorem settled_settled (store : TokenStore) : store.settled.settled = store.settled := by
  simp [settled, stored]

/-- A settled store agrees on the tokens of all categories. -/
theorem agrees_settled (categories : List Category) (store : TokenStore) :
    Agrees categories store store.settled :=
  ⟨rfl, rfl, rfl, rfl, fun _ _ => by rw [tokensOf, stored_settled]; rfl⟩

/-- Appended tokens are settled behind the others. -/
theorem settled_append_settled (store : TokenStore) (new : List Token) :
    (store.settled.append new).settled = (store.append new).settled := by
  simp [settled, append, stored]

/-- A flush leaves a store that is the same but for flushing, whether it fails or not. -/
theorem settled_flush (store : TokenStore) : store.flush.2.settled = store.settled := by
  unfold flush
  split
  · rfl
  · exact settled_settled store

/-- Every operation comes out for the settled store as it does for the store itself, and leaves it
the same but for flushing. -/
theorem perform_settled (store : TokenStore) (operation : Operation) :
    (store.settled.perform operation).1 = (store.perform operation).1 ∧
      (store.settled.perform operation).2.settled = (store.perform operation).2.settled := by
  rcases perform_cases store operation with ⟨token, rfl, -⟩ | ⟨rfl, -⟩ | ⟨option, rfl, -⟩ |
    ⟨_, _, _, _, hdescribed⟩
  · obtain ⟨new, -, hcreated⟩ := createToken_congr store token
    have hsettled := hcreated store.settled (agrees_settled _ store)
    have hstore := hcreated store (.refl store)
    change (store.settled.createToken token).1 = (store.createToken token).1 ∧
      (store.settled.createToken token).2.settled = (store.createToken token).2.settled
    rw [hsettled, hstore]
    exact ⟨rfl, settled_append_settled store new⟩
  · refine ⟨?_, ?_⟩
    · have hfails : store.settled.failsFlush = store.failsFlush := rfl
      simp only [perform, flush, hfails]
      split <;> rfl
    · change store.settled.flush.2.settled = store.flush.2.settled
      rw [settled_flush, settled_flush, settled_settled]
  · have hconfigured : store.settled.configure option = (store.configure option).settled := by
      cases option <;> rfl
    exact ⟨rfl, (congrArg settled hconfigured).trans (settled_settled _)⟩
  · have hsettled : store.settled.perform operation = _ := hdescribed store.stored []
    have hstore : store.perform operation = _ := hdescribed store.flushed store.buffer
    rw [hsettled, hstore]
    exact ⟨rfl, by simp [settled, stored]⟩

/-- Every call gets the answer that the settled store gives. -/
theorem respond_settled (store : TokenStore) (call : Call) :
    (store.settled.respond call).1 = (store.respond call).1 ∧
      (store.settled.respond call).2.settled = (store.respond call).2.settled := by
  cases call with
  | perform operation =>
    obtain ⟨hresult, hleft⟩ := perform_settled store operation
    exact ⟨congrArg Answer.outcome hresult, hleft⟩
  | tokensOf category =>
    exact ⟨congrArg Answer.tokens ((agrees_settled [category] store).tokensOf category (by simp)),
      settled_settled store⟩

/-- Stores that are the same but for flushing give the same answers, and stay the same but for
flushing. -/
theorem respond_congr (h : store.settled = other.settled) (call : Call) :
    (store.respond call).1 = (other.respond call).1 ∧
      (store.respond call).2.settled = (other.respond call).2.settled := by
  obtain ⟨hanswer, hleft⟩ := respond_settled store call
  obtain ⟨hanswer', hleft'⟩ := respond_settled other call
  rw [h] at hanswer hleft
  exact ⟨hanswer.symm.trans hanswer', hleft.symm.trans hleft'⟩

/-- No call makes flushing fail, or succeed again. -/
theorem failsFlush_respond (store : TokenStore) (call : Call) :
    (store.respond call).2.failsFlush = store.failsFlush := by
  cases call with
  | perform operation => exact (rejections_perform store operation).2
  | tokensOf category => rfl

/-- A flush that does not fail settles the store. -/
theorem flush_eq_settled (h : store.failsFlush = false) :
    store.flush = (.ok (), store.settled) := by
  simp [flush, h, settled, stored]

/-- A flush as a call succeeds and settles the store. -/
theorem respond_flush (h : store.failsFlush = false) :
    store.respond .flush = (.outcome (.ok ()), store.settled) := by
  change (Answer.outcome store.flush.1, store.flush.2) = _
  rw [flush_eq_settled h]

/-- Two runs that differ in flushes only have transcripts that differ in flushes only, each of which
succeeded, and end with stores that are the same but for flushing. -/
theorem transcript_of_withMore {calls more : List Call} (hmore : WithMore .flush calls more)
    (h : store.settled = other.settled) (hstore : store.failsFlush = false)
    (hother : other.failsFlush = false) :
    WithMore (.flush, .outcome (.ok ())) (store.transcript calls) (other.transcript more) ∧
      (store.afterCalls calls).settled = (other.afterCalls more).settled ∧
      (store.afterCalls calls).failsFlush = false ∧ (other.afterCalls more).failsFlush = false := by
  induction hmore generalizing store other with
  | nil => exact ⟨.nil, h, hstore, hother⟩
  | both call _ ih =>
    obtain ⟨hanswer, hleft⟩ := respond_congr h call
    obtain ⟨htranscript, hrest⟩ := ih hleft ((failsFlush_respond store call).trans hstore)
      ((failsFlush_respond other call).trans hother)
    refine ⟨?_, hrest⟩
    rw [transcript, transcript, hanswer]
    exact .both _ htranscript
  | more _ ih =>
    -- The flush leaves a settled store, and the other run has not moved.
    have hflush := respond_flush hother
    have hsettled : store.settled = other.settled.settled := by rw [settled_settled, h]
    obtain ⟨htranscript, hrest⟩ := ih hsettled hstore hother
    have hafter (rest : List Call) :
        other.afterCalls (.flush :: rest) = other.settled.afterCalls rest := by
      rw [afterCalls, List.foldl_cons, hflush]
      rfl
    rw [transcript, hafter, hflush]
    exact ⟨.more htranscript, hrest⟩

/-- Flushing is invisible. Take any run of calls on a store whose flush does not fail, and the same
run with further flushes put in at any places. Both have the same calls with the same answers but
for those flushes, each of which succeeded. A flush at the end of each succeeds, and then the tables
are equal. -/
theorem transcript_of_moreFlushes (store : TokenStore) (hflush : store.failsFlush = false)
    (calls more : List Call) (hmore : WithMore .flush calls more) :
    WithMore (.flush, .outcome (.ok ())) (store.transcript calls) (store.transcript more) ∧
      (store.afterCalls calls).flush.1 = .ok () ∧ (store.afterCalls more).flush.1 = .ok () ∧
      (store.afterCalls calls).flush.2.toTable = (store.afterCalls more).flush.2.toTable := by
  obtain ⟨htranscript, hsettled, hfew, hmany⟩ :=
    transcript_of_withMore hmore rfl hflush hflush
  rw [flush_eq_settled hfew, flush_eq_settled hmany, hsettled]
  exact ⟨htranscript, rfl, rfl, rfl⟩

/-- The consonant `ka` once more, one that is new, and the dead consonants. -/
def redeclaring : List Call :=
  [.perform (.createToken { category := .consonant, pattern := "ka", value1 := "k" }),
    .perform (.createToken { category := .consonant, pattern := "ga", value1 := "g" }),
    .tokensOf .deadConsonant,
    .perform (.configure (.ignoreDuplicates true)),
    .perform (.createToken { category := .consonant, pattern := "ka", value1 := "k" })]

/-- The same calls with a flush before and behind the first of them, and one before the last. -/
def redeclaringFlushed : List Call :=
  .flush :: redeclaring.take 1 ++ .flush :: (redeclaring.drop 1).take 3 ++
    .flush :: redeclaring.drop 4

/-- The consonant `ka` is refused as a duplicate and later gets its dead form, whether it waits in
the buffer or was flushed, and the tables are the same. -/
theorem transcript_of_moreFlushes_redeclaring :
    WithMore (.flush, .outcome (.ok ())) (withoutDeadForm.transcript redeclaring)
      (withoutDeadForm.transcript redeclaringFlushed) ∧
    (withoutDeadForm.afterCalls redeclaring).flush.2.toTable =
      (withoutDeadForm.afterCalls redeclaringFlushed).flush.2.toTable ∧
    (withoutDeadForm.afterCalls redeclaringFlushed).flush.2.toTable.tokens.map Token.expression =
      ["~ => x", "ka => k", "g => gx", "ga => g", "k => kx"] := by
  have hmore : WithMore .flush redeclaring redeclaringFlushed :=
    .more (.both _ (.more (.both _ (.both _ (.both _ (.more (.both _ .nil)))))))
  obtain ⟨htranscript, -, -, htables⟩ :=
    transcript_of_moreFlushes withoutDeadForm rfl redeclaring redeclaringFlushed hmore
  exact ⟨htranscript, htables, by decide +kernel⟩

end TranslitScheme.TokenStore
