import TranslitScheme.Proofs.Session.Independence
import TranslitScheme.Session.Query
import TranslitScheme.Session.Stemming

/-!
# What aborted operations leave behind

An operation that ends with a fault has done nothing but write to the journal. It has recorded what
it found about the pairs of its mapping, if it has one, and then the fault, which no finding about a
pair can be taken for. The sink, the built tokens, the lists and the details are what they were,
also where an operation reads a mapping, resolves options and asks for tokens in turn.

Only the choice between the own joiner and the default one is made first. A joiner counts as
declared when its declaration is aborted.
-/

namespace TranslitScheme

namespace Value

/-- The codes of what is found about the pairs of a mapping. -/
def shapeCodes : List DiagnosticCode :=
  [.shapeInvalidType, .shapeEmptySequence, .shapeEmptyValue, .shapeExtraValues]

/-- The findings about a pair have the codes of shapes. -/
def Shapely (findings : List Finding) : Prop := ∀ finding ∈ findings, finding.code ∈ shapeCodes

/-- Findings of two parts. -/
theorem Shapely.append {findings others : List Finding} (h : Shapely findings)
    (h' : Shapely others) : Shapely (findings ++ others) :=
  List.forall_mem_append.mpr ⟨h, h'⟩

/-- A single finding with the code of a shape. -/
theorem shapely_singleton (finding : Finding) (h : finding.code ∈ shapeCodes) :
    Shapely [finding] :=
  List.forall_mem_singleton.mpr h

/-- An element of no valid type is found to be of a wrong shape. -/
theorem shapely_invalidType (value : Value) : Shapely [invalidTypeFinding value] :=
  shapely_singleton _ (by simp [invalidTypeFinding, shapeCodes])

/-- Too many texts are found to be a wrong shape. -/
theorem shapely_extraValues (value : Value) : Shapely [extraValuesFinding value] :=
  shapely_singleton _ (by simp [extraValuesFinding, shapeCodes])

mutual

/-- What is found about an element is about its shape. -/
theorem shapely_checkElement : (value : Value) → Shapely (checkElement value).2
  | str text => by
    by_cases hblank : text = ""
    · rw [checkElement, if_pos hblank]
      exact shapely_singleton emptyValueFinding (by decide)
    · rw [checkElement, if_neg hblank]
      exact List.forall_mem_nil _
  | int number => List.forall_mem_nil _
  | list [] => shapely_singleton emptySequenceFinding (by decide)
  | list (item :: rest) => shapely_checkItems (item :: rest)
  | bool flag => shapely_invalidType _
  | map pairs => shapely_invalidType _
  | other kindName => shapely_invalidType _

/-- What is found about the elements of a sequence is about their shapes. -/
theorem shapely_checkItems : (items : List Value) → Shapely (checkItems items).2
  | [] => List.forall_mem_nil _
  | item :: rest => by
    rw [checkItems_cons]
    refine Shapely.append ?_ (shapely_checkItems rest)
    cases item with
    | str text => exact List.forall_mem_nil _
    | _ => exact shapely_checkElement _

end

/-- What is found about a key is about its shape. -/
theorem shapely_checkKey (key : Value) : Shapely (checkKey key).2 := by
  have helement := shapely_checkElement key
  unfold checkKey
  rcases hread : checkElement key with ⟨_ | pattern, findings⟩
  · rw [hread] at helement
    exact helement
  · rw [hread] at helement
    dsimp only
    split
    · exact helement.append (shapely_singleton emptyPatternFinding (by decide))
    · exact helement

/-- What is found about a value is about its shape. -/
theorem shapely_checkValue (value : Value) : Shapely (checkValue value).2 := by
  have helement := shapely_checkElement value
  unfold checkValue
  rcases hread : checkElement value with ⟨_ | pattern, findings⟩
  · rw [hread] at helement
    exact helement
  · rw [hread] at helement
    dsimp only
    split
    · exact helement.append (shapely_singleton emptyValueFinding (by decide))
    · split
      · exact helement.append (shapely_extraValues value)
      · exact helement

/-- What reading a value records about its pairs, if it is a mapping. -/
def shapeDiagnostics (journal : Journal) : Value → List Diagnostic
  | map pairs => pairs.flatMap fun pair =>
      (checkPair pair.1 pair.2).2.map (stampPair journal pair.1 pair.2)
  | _ => []

/-- What is recorded about pairs has the codes of shapes. -/
theorem code_shapeDiagnostics (value : Value) (journal : Journal) :
    ∀ diagnostic ∈ value.shapeDiagnostics journal, diagnostic.code ∈ shapeCodes := by
  intro diagnostic hdiagnostic
  cases value with
  | map pairs =>
    obtain ⟨pair, -, hpair⟩ := List.mem_flatMap.mp hdiagnostic
    obtain ⟨finding, hfinding, rfl⟩ := List.mem_map.mp hpair
    exact (shapely_checkKey pair.1).append (shapely_checkValue pair.2) finding hfinding
  | _ => contradiction

/-- Reading a value records what is found about its pairs, or that it is no mapping. Nothing else in
the journal is changed but the active expression. -/
theorem toMapping_cases (value : Value) (journal : Journal) :
    (∃ mapping expression, value.toMapping journal =
      (.ok mapping, { journal with
        entries := journal.entries ++ value.shapeDiagnostics journal, expression })) ∨
    (value.shapeDiagnostics journal = [] ∧ ∃ fault : Fault,
      value.toMapping journal = (.error fault, journal.record fault.finding)) := by
  cases value with
  | map pairs =>
    refine .inl ⟨readPairs pairs, if pairs = [] then journal.expression else none, ?_⟩
    rw [toMapping]
    dsimp only
    rw [checkPairs_eq]
    rfl
  | _ => exact .inr ⟨rfl, _, rfl⟩

end Value

/-- No fault has the code of a shape. -/
theorem Fault.code_not_mem_shapeCodes (fault : Fault) : fault.code ∉ Value.shapeCodes := by
  cases fault <;> simp [Fault.code, Value.shapeCodes]

namespace Session

variable {σ α : Type}

/-- What an aborted operation leaves of a session. Everything is what it was but the journal, which
has the diagnostics about the pairs of a mapping and then one for the fault, and whether the joiners
count as declared. -/
structure Aborted (session : Session σ) (shape : List Diagnostic) (fault : Fault)
    (left : Session σ) : Prop where
  sink : left.sink = session.sink
  settings : left.settings = session.settings
  built : left.built = session.built
  lists : left.lists = session.lists
  details : left.details = session.details
  tokensCreated : left.tokensCreated = session.tokensCreated
  tag : left.journal.tag = session.journal.tag
  location : left.journal.location = session.journal.location
  overrides : left.journal.overrides = session.journal.overrides
  told : ∃ last, left.journal.entries = session.journal.entries ++ shape ++ [last] ∧
    last.code = fault.code ∧ last.message = fault.message ∧
    last.severity = session.journal.overrides.severityOf fault.code .error
  once : ∀ diagnostic ∈ shape, diagnostic.code ≠ fault.code

/-- If an operation ends with a fault, it has written to the journal only. -/
def AbortsCleanly (session : Session σ) (shape : List Diagnostic)
    (outcome : Except Fault α × Session σ) : Prop :=
  ∀ fault, outcome.1 = .error fault → session.Aborted shape fault outcome.2

/-- What does not fail is not aborted. -/
theorem abortsCleanly_ok (session : Session σ) (shape : List Diagnostic) (value : α)
    (left : Session σ) : session.AbortsCleanly shape (.ok value, left) :=
  fun _ h => by contradiction

/-- A fault is recorded after what was found about a mapping. -/
theorem abortsCleanly_after (session : Session σ) {shape : List Diagnostic}
    (hshape : ∀ diagnostic ∈ shape, diagnostic.code ∈ Value.shapeCodes)
    (expression : Option String) (fault : Fault) :
    session.AbortsCleanly shape
      ({ session with
        journal :=
          { session.journal with
            entries := session.journal.entries ++ shape, expression } }.abort (α := α) fault) := by
  intro other hother
  obtain rfl := Except.error.inj hother
  exact {
    sink := rfl
    settings := rfl
    built := rfl
    lists := rfl
    details := rfl
    tokensCreated := rfl
    tag := rfl
    location := rfl
    overrides := rfl
    told := ⟨_, rfl, rfl, rfl, rfl⟩
    once := fun diagnostic hdiagnostic hsame =>
      fault.code_not_mem_shapeCodes (hsame ▸ hshape diagnostic hdiagnostic) }

/-- A fault is all that is recorded where no mapping is read. -/
theorem abortsCleanly_abort (session : Session σ) (fault : Fault) :
    session.AbortsCleanly [] (session.abort (α := α) fault) := by
  have hafter := abortsCleanly_after (α := α) session (List.forall_mem_nil _)
    session.journal.expression fault
  rw [List.append_nil] at hafter
  exact hafter

/-- Whether joiners count as declared does not matter. -/
theorem AbortsCleanly.of_own {session : Session σ} {shape : List Diagnostic}
    {outcome : Except Fault α × Session σ} {ownNonJoiner ownJoiner : Bool}
    (h : { session with ownNonJoiner, ownJoiner }.AbortsCleanly shape outcome) :
    session.AbortsCleanly shape outcome := by
  intro fault hfault
  have hleft := h fault hfault
  exact ⟨hleft.sink, hleft.settings, hleft.built, hleft.lists, hleft.details, hleft.tokensCreated,
    hleft.tag, hleft.location, hleft.overrides, hleft.told, hleft.once⟩

/-- Asking for the first virama records no more than that there is none. -/
theorem abortsCleanly_virama (session : Session σ) : session.AbortsCleanly [] session.virama := by
  unfold virama
  cases session.tokens .virama .all with
  | nil => exact abortsCleanly_abort session .viramaNotSet
  | cons token rest => exact abortsCleanly_ok session [] token session

/-- Asking for a list records no more than that there is none. -/
theorem abortsCleanly_customList (session : Session σ) (name : String) :
    session.AbortsCleanly [] (session.customList name) := by
  unfold customList
  cases session.lists.get? name with
  | none => exact abortsCleanly_abort session (.unknownList name)
  | some list => exact abortsCleanly_ok session [] list.tokens session

/-- Pairs are handed to the sink only if a mapping could be read. -/
theorem abortsCleanly_createPairs (session : Session σ) (value : Value)
    (create : σ → String × String → Except SinkError Unit × σ) (what : String) :
    session.AbortsCleanly (value.shapeDiagnostics session.journal)
      (session.createPairs value create what) := by
  unfold createPairs
  rcases value.toMapping_cases session.journal with
    ⟨mapping, expression, hread⟩ | ⟨hshape, fault, hread⟩
  · rw [hread]
    exact abortsCleanly_ok session _ () _
  · rw [hread, hshape]
    exact abortsCleanly_abort session fault

variable [TokenSink σ]

/-- Tokens are built only if a mapping could be read and the options are valid. -/
theorem abortsCleanly_build (session : Session σ) (category : Category) (options : TokenOptions)
    (value : Value) :
    session.AbortsCleanly (value.shapeDiagnostics session.journal)
      (session.build category options value) := by
  unfold build
  rcases value.toMapping_cases session.journal with
    ⟨mapping, expression, hread⟩ | ⟨hshape, fault, hread⟩
  · have hafter (fault : Fault) := abortsCleanly_after (α := Unit) session
      (value.code_shapeDiagnostics session.journal) expression fault
    rw [hread]
    dsimp only
    cases Priority.ofSetting options.priority with
    | error fault => exact hafter fault
    | ok priority =>
      cases Acceptance.ofSetting options.acceptIf with
      | error fault => exact hafter fault
      | ok acceptance => exact abortsCleanly_ok session _ () _
  · rw [hread, hshape]
    exact abortsCleanly_abort session fault

/-- Dead consonants are read back only where there is no fault. -/
theorem abortsCleanly_combine (session : Session σ) (source : TokenSource) (filter : TokenFilter)
    (template : Value) :
    session.AbortsCleanly (template.shapeDiagnostics session.journal)
      (session.combine source filter template) := by
  unfold combine
  rcases template.toMapping_cases session.journal with
    ⟨mapping, expression, hread⟩ | ⟨hshape, fault, hread⟩
  · rw [hread]
    dsimp only
    cases source with
    | category category => cases category <;> exact abortsCleanly_ok session _ _ _
    | list name =>
      unfold sourceTokens customList
      dsimp only
      cases session.lists.get? name with
      | none =>
        exact abortsCleanly_after session (template.code_shapeDiagnostics session.journal)
          expression (.unknownList name)
      | some list => exact abortsCleanly_ok session _ _ _
  · rw [hread, hshape]
    exact abortsCleanly_abort session fault

/-- Aborted operations leave nothing half built. Where building, declaring joiners and the full
stop, declaring stem rules and exceptions, expanding a template, or asking for a list or the virama
ends with a fault, everything in the session is what it was but for the journal. The journal has
what was found about the pairs of the mapping, if there is one, and then one diagnostic with the
code and the message of the fault, the only new one with that code. -/
theorem abortsCleanly_each (session : Session σ) :
    (∀ category options value,
      session.AbortsCleanly (value.shapeDiagnostics session.journal)
        (session.build category options value)) ∧
    (∀ value, session.AbortsCleanly (value.shapeDiagnostics session.journal)
      (session.joiner value)) ∧
    (∀ value, session.AbortsCleanly (value.shapeDiagnostics session.journal)
      (session.nonJoiner value)) ∧
    (∀ value, session.AbortsCleanly
      (Value.shapeDiagnostics session.journal (.map [(.str ".", value)])) (session.period value)) ∧
    (∀ value, session.AbortsCleanly (value.shapeDiagnostics session.journal)
      (session.stemRules value)) ∧
    (∀ value, session.AbortsCleanly (value.shapeDiagnostics session.journal)
      (session.stemExceptions value)) ∧
    (∀ source filter template,
      session.AbortsCleanly (template.shapeDiagnostics session.journal)
        (session.combine source filter template)) ∧
    (∀ name, session.AbortsCleanly [] (session.customList name)) ∧
    session.AbortsCleanly [] session.virama :=
  ⟨abortsCleanly_build session,
    fun value => (abortsCleanly_build { session with ownJoiner := true } .joiner { } value).of_own,
    fun value =>
      (abortsCleanly_build { session with ownNonJoiner := true } .nonJoiner { } value).of_own,
    fun _ => abortsCleanly_build session .period { } _,
    fun value => abortsCleanly_createPairs session value _ _,
    fun value => abortsCleanly_createPairs session value _ _,
    abortsCleanly_combine session,
    abortsCleanly_customList session,
    abortsCleanly_virama session⟩

/-- A session in which a vowel was built under a tag, while a list was open. -/
def withOneVowel : Session TokenStore where
  sink := { buffer := [{ category := .vowel, pattern := "a", value1 := "A", tag := "old" }] }
  journal := { location := some ⟨"vowels", some 2⟩, tag := some "old" }
  built := [{ category := .vowel, pattern := "a", value1 := "A", tag := "old" }]
  lists :=
    { lists := [⟨"short", [{ category := .vowel, pattern := "a", value1 := "A", tag := "old" }]⟩]
      scope := some [0]
      indexed := ⟨by decide, by decide, by decide⟩ }
  tokensCreated := 1

/-- Vowels are declared with a blank pattern among them and a priority that is none. The pattern is
reported before the priority is, and the other vowel is not built. -/
theorem abortsCleanly_each_wrongPriority :
    let value : Value := .map [(.str "", .str "E"), (.str "i", .str "I")]
    let outcome := withOneVowel.build .vowel { priority := some (.str "urgent") } value
    outcome.1 = .error (.invalidPriority "urgent") ∧
    (value.shapeDiagnostics withOneVowel.journal).map Diagnostic.code = [.shapeEmptyValue] ∧
    withOneVowel.Aborted (value.shapeDiagnostics withOneVowel.journal) (.invalidPriority "urgent")
      outcome.2 := by
  intro value outcome
  have hfault : outcome.1 = .error (.invalidPriority "urgent") := rfl
  exact ⟨hfault, rfl, (abortsCleanly_each withOneVowel).1 _ _ _ _ hfault⟩

end Session

end TranslitScheme
