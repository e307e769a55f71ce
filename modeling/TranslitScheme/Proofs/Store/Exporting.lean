import TranslitScheme.Proofs.Store.Operation

/-!
# What a store exports

The table of a store has its flushed tokens. Stem rules and stem exceptions do not wait in a buffer
as tokens do, so they are in the table as soon as they are accepted, flushed or not.

`exported_between_flushes` says what a run without a successful flush does to the table: the tokens
stay what they were, and the accepted rules and exceptions are appended.
-/

namespace TranslitScheme.TokenStore

/-- The stem rule that an operation stores, if its endings are not blank. -/
@[simp] def Operation.acceptedRule? : Operation → Option StemRule
  | .createStemRule rule =>
    if rule.oldEnding = "" ∨ rule.newEnding = "" then none else some rule
  | _ => none

/-- The stem exception that an operation stores, if its texts are not blank. -/
@[simp] def Operation.acceptedException? : Operation → Option StemException
  | .createStemException exempt =>
    if exempt.rule = "" ∨ exempt.ending = "" then none else some exempt
  | _ => none

/-- What an operation does to the exported table. The tokens change by a successful flush only,
which exports all that are stored, and accepted rules and exceptions are appended at once. -/
theorem toTable_perform (store : TokenStore) (operation : Operation) :
    (store.perform operation).2.toTable.tokens =
        (if operation = .flush ∧ store.failsFlush = false then store.stored
          else store.toTable.tokens) ∧
      (store.perform operation).2.toTable.stemRules =
        store.toTable.stemRules ++ operation.acceptedRule?.toList ∧
      (store.perform operation).2.toTable.stemExceptions =
        store.toTable.stemExceptions ++ operation.acceptedException?.toList := by
  cases operation with
  | createToken token =>
    obtain ⟨new, -, hleft⟩ := store.exists_append_createToken token
    simp only [perform, hleft]
    simp [append, toTable]
  | flush =>
    by_cases hfails : store.failsFlush = true <;> simp [perform, flush, hfails, toTable, stored]
  | configure option =>
    cases option <;> simp [perform, configure, toTable]
  | setDetails details =>
    simp only [perform, setDetails]
    split
    · simp
    · split <;> simp [toTable]
  | createStemRule rule =>
    by_cases hblank : rule.oldEnding = "" ∨ rule.newEnding = "" <;>
      simp [perform, createStemRule, hblank, toTable]
  | createStemException exempt =>
    by_cases hrule : exempt.rule = ""
    · simp [perform, createStemException, hrule, toTable]
    · by_cases hending : exempt.ending = "" <;>
        simp [perform, createStemException, hrule, hending, toTable]

/-- A successful flush exports all tokens that are stored, and nothing else. -/
theorem toTable_flush {store : TokenStore} (h : store.flush.1 = .ok ()) :
    store.flush.2.toTable = { store.toTable with tokens := store.stored } := by
  unfold flush at h ⊢
  split at h
  · contradiction
  · rename_i hfails
    rw [if_neg hfails]
    rfl

/-- A run without a successful flush keeps the exported tokens, and appends the rules and exceptions
that are accepted. -/
theorem toTable_run (store : TokenStore) (operations : List Operation)
    (h : .flush ∈ operations → store.failsFlush = true) :
    (store.run operations).toTable.tokens = store.toTable.tokens ∧
      (store.run operations).toTable.stemRules =
        store.toTable.stemRules ++ operations.filterMap Operation.acceptedRule? ∧
      (store.run operations).toTable.stemExceptions =
        store.toTable.stemExceptions ++ operations.filterMap Operation.acceptedException? := by
  induction operations generalizing store with
  | nil => exact ⟨rfl, (List.append_nil _).symm, (List.append_nil _).symm⟩
  | cons operation rest ih =>
    obtain ⟨htokens, hrules, hexceptions⟩ := toTable_perform store operation
    have hnoFlush : ¬ (operation = .flush ∧ store.failsFlush = false) := by
      rintro ⟨rfl, hsucceeds⟩
      rw [h List.mem_cons_self] at hsucceeds
      contradiction
    have hfails := (rejections_perform store operation).2
    obtain ⟨htokensRest, hrulesRest, hexceptionsRest⟩ :=
      ih (store.perform operation).2 fun hmem => hfails.trans (h (List.mem_cons_of_mem _ hmem))
    have hcons {α : Type} (accepted? : Operation → Option α) :
        (operation :: rest).filterMap accepted? =
          (accepted? operation).toList ++ rest.filterMap accepted? := by
      cases haccepted : accepted? operation <;> simp [haccepted]
    rw [if_neg hnoFlush] at htokens
    rw [hrules, List.append_assoc, ← hcons] at hrulesRest
    rw [hexceptions, List.append_assoc, ← hcons] at hexceptionsRest
    exact ⟨htokensRest.trans htokens, hrulesRest, hexceptionsRest⟩

/-- From one successful flush to the next the table keeps its tokens, whatever is asked of the
store, while each stem rule and stem exception is in the table once it is accepted. The next
successful flush exports all tokens that are stored then, and nothing else. -/
theorem exported_between_flushes (store : TokenStore) (since : List Operation)
    (hsince : .flush ∈ since → store.failsFlush = true) :
    (store.run since).toTable.tokens = store.toTable.tokens ∧
      (store.run since).toTable.stemRules =
        store.toTable.stemRules ++ since.filterMap Operation.acceptedRule? ∧
      (store.run since).toTable.stemExceptions =
        store.toTable.stemExceptions ++ since.filterMap Operation.acceptedException? ∧
      ((store.run since).flush.1 = .ok () →
        (store.run since).flush.2.toTable =
          { (store.run since).toTable with tokens := (store.run since).stored }) := by
  obtain ⟨htokens, hrules, hexceptions⟩ := toTable_run store since hsince
  exact ⟨htokens, hrules, hexceptions, toTable_flush⟩

/-- A second vowel, a stem rule with an exception, and a rule with a blank ending. -/
def addingStems : List Operation :=
  [.createToken { category := .vowel, pattern := "i", value1 := "I" }, .createStemRule ⟨"x", "y"⟩,
    .createStemRule ⟨"", "y"⟩, .createStemException ⟨"x", "z"⟩]

/-- The vowel waits for the next flush, but the rule and the exception do not. -/
theorem exported_between_flushes_addingStems :
    let store : TokenStore :=
      { flushed := [{ category := .vowel, pattern := "a", value1 := "A" }] }
    (store.run addingStems).toTable =
      { store.toTable with stemRules := [⟨"x", "y"⟩], stemExceptions := [⟨"x", "z"⟩] } ∧
    (store.run addingStems).flush.2.toTable.tokens.map Token.expression = ["a => A", "i => I"] := by
  intro store
  obtain ⟨htokens, hrules, hexceptions, hflush⟩ :=
    exported_between_flushes store addingStems (by decide)
  refine ⟨?_, ?_⟩
  · rw [Table.mk.injEq]
    exact ⟨rfl, htokens, hrules, hexceptions⟩
  · rw [hflush rfl]
    decide +kernel

/-- A stem rule that was accepted by a new store is in the table before any flush. -/
theorem exports_rule_before_flush :
    (({ } : TokenStore).run [.createStemRule ⟨"x", "y"⟩]).toTable.stemRules ≠
      ({ } : TokenStore).toTable.stemRules := by
  decide

end TranslitScheme.TokenStore
