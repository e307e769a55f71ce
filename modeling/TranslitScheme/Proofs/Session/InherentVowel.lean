import TranslitScheme.Proofs.Derivation.InherentVowel
import TranslitScheme.Proofs.Session.Lockstep
import TranslitScheme.Proofs.Store.DeadForms

/-!
# One inherent vowel for compounds and dead forms

The inherent vowel is used in two places: a session attaches vowels to consonants without it, and
its sink drops it from the dead forms that it derives. The session tells the sink the letter when it
starts, and nothing that can be asked of a session changes it on either side. So a compound begins
with the pattern of the dead form, whichever of the two a vowel is attached to.
-/

namespace TranslitScheme.Session

/-- The settings are the given ones, and the sink has their inherent vowel. -/
structure Attuned (given : Settings) (session : Session TokenStore) : Prop where
  settings : session.settings = given
  letter : session.sink.inherentVowel = given.inherentVowel

variable {settings : Settings} {session : Session TokenStore}

/-- An operation of the store that is not about its switches leaves the inherent vowel alone. -/
theorem Attuned.perform (h : session.Attuned settings) (operation : TokenStore.Operation)
    (hnot : ∀ option, operation ≠ .configure option) :
    ((session.sink.perform operation).2).inherentVowel = settings.inherentVowel :=
  (TokenStore.switches_perform session.sink operation hnot).2.trans h.letter

/-- A token that is submitted leaves the inherent vowel alone. -/
theorem Attuned.submit (h : session.Attuned settings) (token : Token) :
    (session.submit token).2.Attuned settings where
  settings := by
    unfold Session.submit
    dsimp only
    split
    · exact h.settings
    · split <;> exact h.settings
  letter := by
    rw [sink_submit]
    split
    · exact h.letter
    · exact h.perform (.createToken { token with tag := session.journal.tag.getD "" }) (by simp)

/-- Flushing leaves the inherent vowel alone. -/
theorem Attuned.flush (h : session.Attuned settings) : session.flush.Attuned settings where
  settings := by
    unfold Session.flush
    split <;> exact h.settings
  letter := by
    rw [sink_flush]
    exact h.perform .flush (by simp)

/-- Storing the details leaves the inherent vowel alone. -/
theorem Attuned.storeDetails (h : session.Attuned settings) (now : String) :
    (session.storeDetails now).Attuned settings where
  settings := by
    unfold Session.storeDetails
    dsimp only
    split <;> exact h.settings
  letter := by
    rw [sink_storeDetails]
    exact h.perform (.setDetails _) (by simp)

/-- All that can be asked of a session leaves the inherent vowel alone. -/
theorem lockstep_attuned (settings : Settings) :
    LastingLockstep fun session other : Session TokenStore =>
      session = other ∧ session.Attuned settings where
  reads := by rintro session _ ⟨rfl, -⟩; exact .refl session
  express := by rintro session _ expression ⟨rfl, h⟩; exact ⟨rfl, h.settings, h.letter⟩
  record := by rintro session _ finding ⟨rfl, h⟩; exact ⟨rfl, h.settings, h.letter⟩
  submit := by rintro session _ token ⟨rfl, h⟩; exact ⟨rfl, rfl, h.submit token⟩
  inferDeadConsonants := by rintro session _ enabled ⟨rfl, h⟩; exact ⟨rfl, h.settings, h.letter⟩
  ignoreDuplicates := by rintro session _ enabled ⟨rfl, h⟩; exact ⟨rfl, h.settings, h.letter⟩
  refresh := by rintro session _ ⟨rfl, h⟩; exact ⟨rfl, h.settings, h.letter⟩
  stemRule := by
    rintro session _ rule ⟨rfl, h⟩
    exact ⟨rfl, rfl, h.settings, h.perform (.createStemRule rule) (by simp)⟩
  stemException := by
    rintro session _ exempt ⟨rfl, h⟩
    exact ⟨rfl, rfl, h.settings, h.perform (.createStemException exempt) (by simp)⟩
  own := by
    rintro session _ ⟨rfl, h⟩
    exact ⟨⟨rfl, h.settings, h.letter⟩, ⟨rfl, h.settings, h.letter⟩⟩
  retag := by rintro session _ tag ⟨rfl, h⟩; exact ⟨rfl, h.settings, h.letter⟩
  enlist := by rintro session _ lists ⟨rfl, h⟩; exact ⟨rfl, h.settings, h.letter⟩
  locate := by rintro session _ location ⟨rfl, h⟩; exact ⟨rfl, h.settings, h.letter⟩
  describe := by rintro session _ details ⟨rfl, h⟩; exact ⟨rfl, h.settings, h.letter⟩
  flush := by rintro session _ ⟨rfl, h⟩; exact ⟨rfl, h.flush⟩
  storeDetails := by rintro session _ now ⟨rfl, h⟩; exact ⟨rfl, h.storeDetails now⟩

/-- A vowel with a combining form has a compound with every consonant, attached to its stem. -/
theorem exists_compound (consonant vowel : Token) (letter : Char) (h : vowel.value2 ≠ "") :
    ∃ compound, Token.compound? consonant vowel letter = some compound ∧
      compound.pattern = Pattern.stem consonant.pattern letter ++ vowel.pattern := by
  simp [Token.compound?, h]

/-- A compound sees no more of the pattern of its consonant than the stem. -/
theorem compound?_congr (consonant vowel : Token) (letter : Char) {pattern : String}
    (h : Pattern.stem pattern letter = Pattern.stem consonant.pattern letter) :
    Token.compound? { consonant with pattern } vowel letter =
      Token.compound? consonant vowel letter := by
  simp [Token.compound?, Token.isPossibility, h]

/-- A session and its sink agree on the inherent vowel, in every session that operations come by.
If the sink derives a dead form of a consonant, then the consonant is spelled like the dead form
with that letter behind it, and a compound of the consonant is spelled like the dead form with the
vowel behind it. It is also the compound of the consonant that has the pattern of the dead form. A
consonant that does not show the inherent vowel keeps its whole pattern in a compound. -/
theorem inherentVowel_visited (store : TokenStore) (settings : Settings)
    (session : Session TokenStore) (h : (Session.start store settings).Visits session) :
    session.settings = settings ∧ session.sink.inherentVowel = settings.inherentVowel ∧
    ∀ consonant vowel : Token, vowel.value2 ≠ "" →
      ∃ compound,
        Token.compound? consonant vowel settings.inherentVowel = some compound ∧
        (∀ dead kept, session.sink.forms consonant = .ok (some dead, kept) →
          dead.pattern ++ String.singleton settings.inherentVowel = consonant.pattern ∧
          compound.pattern = dead.pattern ++ vowel.pattern ∧
          Token.compound? { consonant with pattern := dead.pattern } vowel
            settings.inherentVowel = some compound) ∧
        ((¬ ∃ front before, consonant.pattern.toList = front ++ [before, settings.inherentVowel] ∧
            before ≠ settings.inherentVowel) →
          compound.pattern = consonant.pattern ++ vowel.pattern) := by
  have hstart : (Session.start store settings).Attuned settings := ⟨rfl, rfl⟩
  have hattuned := (lockstep_attuned settings).keeps h hstart
  refine ⟨hattuned.settings, hattuned.letter, fun consonant vowel hcombining => ?_⟩
  obtain ⟨compound, hcompound, hpattern⟩ :=
    exists_compound consonant vowel settings.inherentVowel hcombining
  refine ⟨compound, hcompound, fun dead kept hforms => ?_, fun hplain => ?_⟩
  · have hdead : session.sink.derived? consonant = some dead :=
      congrArg Prod.fst (TokenStore.eq_of_forms _ _ _ hforms).symm
    unfold TokenStore.derived? at hdead
    split at hdead
    · rename_i hderives
      have hshown := hderives.2.2.2
      rw [hattuned.letter] at hshown
      obtain ⟨hstem, hagain⟩ := Pattern.stem_eq_of_hasInherentVowel hshown
      obtain ⟨virama, -, rfl⟩ := Option.map_eq_some_iff.mp hdead
      refine ⟨Pattern.withoutLast_append_letter hshown, ?_, ?_⟩
      · rw [hpattern, hstem]
        rfl
      · rw [← hcompound]
        exact compound?_congr consonant vowel _ (hagain.trans hstem.symm)
    · contradiction
  · have hnot : ¬ Pattern.hasInherentVowel consonant.pattern settings.inherentVowel = true :=
      fun hshown => hplain ((Pattern.hasInherentVowel_iff _ _).mp hshown)
    rw [hpattern, Pattern.stem, if_neg hnot]

/-- A virama is declared, and consonants whose dead forms are to be derived by the letter `o`. -/
def attuning : List Operation :=
  [.build .virama { } (.map [(.str "~", .str "x")]), .inferDeadConsonants true,
    .build .consonant { } (.map [(.str "ko", .str "K"), (.str "k", .str "Q")])]

/-- The dead form of `ko` is `k`, and with the vowel `i` both make the compound `ki`. -/
theorem inherentVowel_visited_ownLetter :
    let settings : Settings := { inherentVowel := 'o' }
    let session := Operation.after attuning (Session.start ({ } : TokenStore) settings)
    let consonant : Token := { category := .consonant, pattern := "ko", value1 := "K" }
    let vowel : Token := { category := .vowel, pattern := "i", value1 := "I", value2 := "J" }
    let dead : Token := { category := .deadConsonant, pattern := "k", value1 := "Kx" }
    session.sink.forms consonant = .ok (some dead, consonant) ∧
      session.sink.inherentVowel = 'o' ∧
      ∃ compound, Token.compound? consonant vowel 'o' = some compound ∧
        compound.pattern = "k" ++ "i" ∧
        Token.compound? { consonant with pattern := "k" } vowel 'o' = some compound := by
  intro settings session consonant vowel dead
  have hdead : session.sink.derived? consonant = some dead := by decide +kernel
  have hkept : session.sink.normalForm consonant = consonant := by decide +kernel
  have hvirama : session.sink.virama? ≠ none := by decide +kernel
  have hforms : session.sink.forms consonant = .ok (some dead, consonant) := by
    rw [TokenStore.forms_eq, if_neg fun hall => hvirama hall.2.2, hdead, hkept]
    rfl
  obtain ⟨-, hletter, hcompounds⟩ :=
    inherentVowel_visited { } settings session (Visits.start.after attuning)
  obtain ⟨compound, hcompound, hdeadForm, -⟩ :=
    hcompounds consonant vowel (by decide)
  obtain ⟨-, hpattern, hsame⟩ := hdeadForm _ _ hforms
  exact ⟨hforms, hletter, compound, hcompound, hpattern, hsame⟩

end TranslitScheme.Session
