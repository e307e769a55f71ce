import TranslitScheme.Proofs.Program.Move
import TranslitScheme.Proofs.Repetition.Operation

/-!
# Steps on sessions in which work was done twice

A step keeps sessions the same under a spread when the spread covers what the step derives, in the
list scope in which it runs. This is decided on the steps as they are written: only steps that
expand a template or generate compounds derive anything, and the names of a list scope are written
next to its steps.

Steps may start with a change of the location, as the top-level steps of a file do. Nested steps
are the case in which nothing is changed.
-/

namespace TranslitScheme

/-- A key of a template, as it is written, is read as a plain text. -/
def Value.HasPlainKey : Value → Prop
  | .map pairs => Template.HasPlainKey (readPairs pairs)
  | _ => False

/-- What comes of an expansion is covered. A filter needs a source that is not loose. Repetitions
in the source lead to repetitions, and together with a plain key they lead to spellings. -/
def Expansion.Covered (spread : Spread) (category : Category) (scope : List String)
    (expansion : Expansion) : Prop :=
  ∀ source, expansion.source = .ok source →
    (expansion.tokenFilter = .all ∨ ¬ spread.loose source) ∧
      spread.Covers (spread.again source)
        ((spread.again source ∨ spread.loose source) ∧ expansion.template.HasPlainKey) category
        scope

namespace StepResult

variable {σ : Type}

/-- Go on after a step that did not fail. -/
def andThen (outcome : StepResult σ) (next : Session σ → StepResult σ) : StepResult σ :=
  match outcome with
  | (.ok (), session) => next session
  | failed => failed

/-- What follows a step that did not fail. -/
@[simp] theorem andThen_ok (session : Session σ) (next : Session σ → StepResult σ) :
    andThen (.ok (), session) next = next session := rfl

end StepResult

namespace Step

/-- The names of a list scope. -/
def scopeOf (names : List Value) : List String :=
  (names.filterMap Value.asText?).eraseDups

mutual

/-- What a step derives in a list scope is covered. -/
def Covered (spread : Spread) (scope : List String) : Step → Prop
  | declare part body =>
    ∀ expansion, body.expansion = some expansion → expansion.Covered spread part.category scope
  | generateCompounds =>
    spread.Covers (spread.again (.category .consonant) ∨ spread.again (.category .vowel))
      (spread.loose (.category .consonant) ∨ spread.loose (.category .vowel)) .consonantVowel scope
  | tag _ steps => AllCovered spread scope steps
  | list names steps => AllCovered spread (scopeOf names) steps
  | _ => True

/-- What steps derive in a list scope is covered. -/
def AllCovered (spread : Spread) (scope : List String) : List Step → Prop
  | [] => True
  | step :: rest => Covered spread scope step ∧ AllCovered spread scope rest

end

mutual

/-- A step, with the steps nested in it, never makes the sink refuse duplicates. -/
def KeepsIgnoring : Step → Prop
  | ignoreDuplicates enabled => enabled = true
  | tag _ steps => AllKeepIgnoring steps
  | list _ steps => AllKeepIgnoring steps
  | _ => True

/-- Steps never make the sink refuse duplicates. -/
def AllKeepIgnoring : List Step → Prop
  | [] => True
  | step :: rest => KeepsIgnoring step ∧ AllKeepIgnoring rest

end

mutual

/-- Everything is covered where nothing is repeated. -/
theorem covered_none (scope : List String) : (step : Step) → Covered .none scope step
  | declare _ _ => fun _ _ _ _ =>
    ⟨Or.inr id, fun _ _ => ⟨False.elim, fun hboth => hboth.1.elim id id⟩⟩
  | joiner _ => trivial
  | nonJoiner _ => trivial
  | period _ => trivial
  | tag _ steps => allCovered_none scope steps
  | list names steps => allCovered_none (scopeOf names) steps
  | generateCompounds => fun _ _ => ⟨fun h => h.elim id id, fun h => h.elim id id⟩
  | stemRules _ => trivial
  | stemExceptions _ => trivial
  | inferDeadConsonants _ => trivial
  | ignoreDuplicates _ => trivial

/-- The same for several steps. -/
theorem allCovered_none (scope : List String) : (steps : List Step) → AllCovered .none scope steps
  | [] => trivial
  | step :: rest => ⟨covered_none scope step, allCovered_none scope rest⟩

end

/-- Run steps in order, each one after a change to the session that depends on its number. -/
def runFrom {σ : Type} [TokenSink σ] (enter : Nat → Session σ → Session σ) :
    Nat → List Step → Session σ → StepResult σ
  | _, [], session => (.ok (), session)
  | index, step :: rest, session =>
    (step.run (enter index session)).andThen (runFrom enter (index + 1) rest)

variable {σ : Type} [TokenSink σ]

/-- Nested steps run without a change. -/
theorem runAll_eq (index : Nat) (steps : List Step) (session : Session σ) :
    runAll steps session = runFrom (fun _ session => session) index steps session := by
  induction steps generalizing index session with
  | nil => rfl
  | cons step rest ih =>
    rw [runAll, runFrom]
    rcases step.run session with ⟨_ | ⟨⟩, session⟩
    · rfl
    · exact ih (index + 1) session

/-- Top-level steps run after a change of the location. -/
theorem runLocated_eq (file : String) (index : Nat) (steps : List Step) (session : Session σ) :
    runLocated file index steps session =
      runFrom (fun index session => session.setLocation (some ⟨file, some index⟩)) index steps
        session := by
  induction steps generalizing index session with
  | nil => rfl
  | cons step rest ih =>
    rw [runLocated, runFrom]
    rcases step.run (session.setLocation (some ⟨file, some index⟩)) with ⟨_ | ⟨⟩, session⟩
    · rfl
    · exact ih (index + 1) session

/-- Steps that follow others run when these did not fail. -/
theorem runFrom_append (enter : Nat → Session σ → Session σ) (index : Nat)
    (steps rest : List Step) (session : Session σ) :
    runFrom enter index (steps ++ rest) session =
      (runFrom enter index steps session).andThen
        (runFrom enter (index + steps.length) rest) := by
  induction steps generalizing index session with
  | nil => rfl
  | cons step steps ih =>
    rw [List.cons_append, runFrom, runFrom]
    rcases step.run (enter index session) with ⟨_ | ⟨⟩, session⟩
    · rfl
    · rw [StepResult.andThen_ok, StepResult.andThen_ok, ih, List.length_cons, Nat.add_assoc,
        Nat.add_comm 1]

/-- A change to the session that only concerns the journal, and not its tag. -/
def Harmless (enter : Nat → Session TokenStore → Session TokenStore) : Prop :=
  ∀ index session, ∃ journal, journal.tag = session.journal.tag ∧
    enter index session = { session with journal }

/-- Changing nothing is harmless. -/
theorem harmless_id : Harmless fun _ session => session :=
  fun _ session => ⟨session.journal, rfl, rfl⟩

/-- Changing the location is harmless. -/
theorem harmless_setLocation (file : String) :
    Harmless fun index session => session.setLocation (some ⟨file, some index⟩) :=
  fun index session =>
    ⟨{ session.journal with location := some ⟨file, some index⟩ }, rfl, rfl⟩

end Step

namespace Session

variable {spread : Spread} {session other : Session TokenStore}

/-- Declaring lists keeps them related. -/
theorem Echoes.declare_lists (h : session.Echoes spread other) (texts : List String) :
    List.Forall₂
      (fun list list' => list'.name = list.name ∧
        spread.Relates (.list list.name) list.tokens list'.tokens)
      (texts.foldl NamedList.declare session.lists.lists)
      (texts.foldl NamedList.declare other.lists.lists) := by
  have hlists := h.lists
  generalize session.lists.lists = lists, other.lists.lists = lists' at hlists
  induction texts generalizing lists lists' with
  | nil => exact hlists
  | cons text rest ih =>
    refine ih _ _ ?_
    have hnames : lists'.map NamedList.name = lists.map NamedList.name := by
      rw [← List.forall₂_eq_eq_eq, List.forall₂_map_left_iff, List.forall₂_map_right_iff]
      exact hlists.flip.imp fun _ _ hlist => hlist.1
    unfold NamedList.declare
    rw [hnames]
    split
    · exact hlists
    · exact List.rel_append hlists (.cons ⟨rfl, .nil⟩ .nil)

/-- Opening a list scope ends in the same way in both sessions, and leaves them the same. -/
theorem Echoes.openScope (h : session.Echoes spread other) (names : List Value) :
    (other.lists.openScope names).1 = (session.lists.openScope names).1 ∧
      ({ session with lists := (session.lists.openScope names).2 } : Session TokenStore).Echoes
        spread { other with lists := (other.lists.openScope names).2 } := by
  unfold NamedLists.openScope
  rw [h.scope]
  cases session.lists.scope with
  | some _ => exact ⟨rfl, h⟩
  | none =>
    cases names with
    | nil => exact ⟨rfl, h⟩
    | cons name rest =>
      dsimp only
      cases NamedLists.scopeNames (name :: rest) with
      | error fault => exact ⟨rfl, h⟩
      | ok texts =>
        have hlists := h.declare_lists texts
        rw [← (session.lists.indexed.closed.locateAll_eq texts).1,
          ← (other.lists.indexed.closed.locateAll_eq texts).1] at hlists
        refine ⟨rfl, { h with lists := hlists, scope := congrArg some ?_ }⟩
        exact NamedList.fst_locateAll_congr h.names_eq texts

/-- A tag is put around parts that agree. -/
theorem Echoes.underTag (h : session.Echoes spread other) (name : String)
    {body body' : Session TokenStore → StepResult TokenStore}
    (hbody : Agrees spread
      (body { session with journal := { session.journal with tag := some name } })
      (body' { other with journal := { other.journal with tag := some name } })) :
    Agrees spread (session.underTag name body) (other.underTag name body') := by
  obtain ⟨hresult, hended⟩ := hbody
  exact ⟨hresult, hended.journal h.tag⟩

/-- A list scope is put around parts that agree when it is open. -/
theorem Echoes.underLists (h : session.Echoes spread other) (names : List Value)
    {body body' : Session TokenStore → StepResult TokenStore}
    (hbody : ∀ registry registry', session.lists.openScope names = (.ok (), registry) →
      other.lists.openScope names = (.ok (), registry') →
      ({ session with lists := registry } : Session TokenStore).Echoes spread
        { other with lists := registry' } →
      Agrees spread (body { session with lists := registry })
        (body' { other with lists := registry' })) :
    Agrees spread (session.underLists names StepError.fault body)
      (other.underLists names StepError.fault body') := by
  obtain ⟨hsame, hopened⟩ := h.openScope names
  unfold Session.underLists
  generalize session.lists.openScope names = opened, other.lists.openScope names = opened'
    at hsame hopened hbody
  obtain ⟨result, registry⟩ := opened
  obtain ⟨result', registry'⟩ := opened'
  cases (hsame : result' = result)
  cases result with
  | error fault => exact ⟨rfl, hopened.journal hopened.tag⟩
  | ok _ =>
    obtain ⟨hresult, hended⟩ := hbody _ _ rfl rfl hopened
    exact ⟨hresult, { hended with scope := rfl }⟩

/-- The result of an operation as the result of a step. -/
theorem Agrees.ofOperation {outcome outcome' : Except Fault Unit × Session TokenStore}
    (h : Agrees spread outcome outcome') :
    Agrees spread (StepResult.ofOperation outcome) (StepResult.ofOperation outcome') := by
  obtain ⟨result, session⟩ := outcome
  obtain ⟨result', session'⟩ := outcome'
  obtain ⟨hresult, hended⟩ := h
  obtain rfl : result' = result := hresult
  cases result' with
  | error fault => exact ⟨rfl, hended⟩
  | ok _ => exact ⟨rfl, hended⟩

/-- What follows steps that agree agrees, if it does when they did not fail. -/
theorem Agrees.andThen {outcome outcome' : StepResult TokenStore}
    (h : Agrees spread outcome outcome') {next next' : Session TokenStore → StepResult TokenStore}
    (hnext : ∀ session session', outcome = (.ok (), session) → outcome' = (.ok (), session') →
      session.Echoes spread session' → Agrees spread (next session) (next' session')) :
    Agrees spread (outcome.andThen next) (outcome'.andThen next') := by
  obtain ⟨result, session⟩ := outcome
  obtain ⟨result', session'⟩ := outcome'
  obtain ⟨hresult, hended⟩ := h
  obtain rfl : result' = result := hresult
  cases result' with
  | error failure => exact ⟨rfl, hended⟩
  | ok _ => exact hnext session session' rfl rfl hended

/-- What a declaration builds from combined mappings repeats as the mappings do. -/
theorem declaredTokens_combine {source : TokenSource} {template : Value}
    {mapping mapping' : Mapping} (h : Echoes.Combined spread source template mapping mapping')
    (category : Category) (options : TokenOptions) :
    Alike
      (Repeats (spread.again source)
        (Token.Loosens ((spread.again source ∨ spread.loose source) ∧ template.HasPlainKey)))
      (declaredTokens category options mapping.toValue)
      (declaredTokens category options mapping'.toValue) := by
  obtain ⟨pairs, tokens, tokens', rfl, htokens, rfl, rfl⟩ := h
  have hfull : Template.Full (Value.readPairs pairs) := fun _ => Value.full_of_mem_readPairs
  have hread (tokens : List Token) :=
    Mapping.readPairs_toValue (Template.full_combine tokens hfull)
  simp only [Mapping.toValue, declaredTokens, hread]
  cases Priority.ofSetting options.priority with
  | error fault => exact .error fault
  | ok priority =>
    cases Acceptance.ofSetting options.acceptIf with
    | error fault => exact .error fault
    | ok acceptance => exact .ok (Template.mappingTokens_repeats htokens _ _ _ _)

/-- Expanding a template and building from it agrees, when what comes of it is covered. -/
theorem Echoes.runExpansion (h : session.Echoes spread other) (hclosed : spread.Closed)
    (part : Section) (options : TokenOptions) (expansion : Expansion)
    (hcovered : expansion.Covered spread part.category session.openNames) :
    Agrees spread (Declaration.runExpansion part options expansion session)
      (Declaration.runExpansion part options expansion other) := by
  unfold Declaration.runExpansion
  cases hsource : expansion.source with
  | error reason => exact ⟨rfl, h.journal h.tag⟩
  | ok source =>
    obtain ⟨hfilter, hcovers⟩ := hcovered source hsource
    obtain ⟨hasked, hmapping⟩ :=
      h.combine source expansion.tokenFilter expansion.template hfilter
    have hnames :=
      openNames_combine session source expansion.tokenFilter expansion.template
    simp only
    generalize session.combine source expansion.tokenFilter expansion.template = asked
      at hasked hmapping hnames ⊢
    generalize other.combine source expansion.tokenFilter expansion.template = asked'
      at hasked hmapping ⊢
    obtain ⟨result, after⟩ := asked
    obtain ⟨result', after'⟩ := asked'
    cases hmapping with
    | error fault => exact ⟨rfl, hasked⟩
    | ok hmapping =>
      exact Agrees.ofOperation (hasked.build_of hclosed
        (declaredTokens_combine hmapping part.category options) (hnames.symm ▸ hcovers))

/-- Running a declaration agrees, when what comes of an expansion in it is covered. -/
theorem Echoes.runDeclaration (h : session.Echoes spread other) (hclosed : spread.Closed)
    (part : Section) (body : Declaration)
    (hcovered : ∀ expansion, body.expansion = some expansion →
      expansion.Covered spread part.category session.openNames) :
    Agrees spread (body.run part session) (body.run part other) := by
  unfold Declaration.run
  cases body.tokens with
  | none =>
    cases hexpansion : body.expansion with
    | none => exact ⟨rfl, h.journal h.tag⟩
    | some expansion =>
      exact h.runExpansion hclosed part body.options expansion (hcovered expansion hexpansion)
  | some tokens =>
    cases body.expansion with
    | none => exact (h.build hclosed part.category body.options tokens).ofOperation
    | some expansion => exact ⟨rfl, h.journal h.tag⟩

/-- Running a declaration leaves the same lists open. -/
theorem openNames_runDeclaration (part : Section) (body : Declaration)
    (session : Session TokenStore) :
    (body.run part session).2.openNames = session.openNames := by
  unfold Declaration.run
  cases body.tokens with
  | none =>
    cases body.expansion with
    | none => rfl
    | some expansion =>
      simp only [Declaration.runExpansion]
      cases expansion.source with
      | error reason => rfl
      | ok source =>
        have hnames := openNames_combine session source expansion.tokenFilter expansion.template
        simp only
        generalize session.combine source expansion.tokenFilter expansion.template = asked
          at hnames ⊢
        rcases asked with ⟨_ | mapping, after⟩
        · exact hnames
        · simp only
          rw [ofOperation_snd, (frames_build _ _ _ _).openNames]
          exact hnames
  | some tokens =>
    cases body.expansion with
    | none =>
      simp only
      rw [ofOperation_snd]
      exact (frames_build _ _ _ _).openNames
    | some expansion => rfl

end Session

namespace Step

open Session

mutual

/-- Running a step leaves the same lists open. -/
theorem openNames_run : (step : Step) → (session : Session TokenStore) →
    (step.run session).2.openNames = session.openNames
  | declare part body, session => openNames_runDeclaration part body session
  | joiner tokens, session => by
    rw [run, ofOperation_snd]
    exact (frames_build _ _ _ _).openNames
  | nonJoiner tokens, session => by
    rw [run, ofOperation_snd]
    exact (frames_build _ _ _ _).openNames
  | period value, session => by
    rw [run, ofOperation_snd]
    exact (frames_build _ _ _ _).openNames
  | tag name steps, session => by
    have hnested := openNames_runFrom steps harmless_id 0
      { session with journal := { session.journal with tag := some name } }
    rw [← runAll_eq] at hnested
    exact hnested
  | list names steps, session => by
    rw [run, underLists]
    rcases session.lists.openScope_cases names with ⟨fault, hfault⟩ | ⟨registry, hopened, hopens⟩
    · rw [hfault]
      rfl
    · rw [hopened]
      exact (NamedLists.openNames_of_scope_none rfl).trans
        (NamedLists.openNames_of_scope_none hopens.scope_eq_none).symm
  | generateCompounds, session => (frames_submitAll _ _).openNames
  | stemRules tokens, session => by
    rw [run, ofOperation_snd]
    exact openNames_createPairs _ _ _ _
  | stemExceptions tokens, session => by
    rw [run, ofOperation_snd]
    exact openNames_createPairs _ _ _ _
  | inferDeadConsonants _, _ => rfl
  | ignoreDuplicates _, _ => rfl

/-- Running steps leaves the same lists open. -/
theorem openNames_runFrom : (steps : List Step) →
    {enter : Nat → Session TokenStore → Session TokenStore} → Harmless enter → (index : Nat) →
    (session : Session TokenStore) →
    (runFrom enter index steps session).2.openNames = session.openNames
  | [], _, _, _, _ => rfl
  | step :: rest, enter, henter, index, session => by
    obtain ⟨journal, _, heq⟩ := henter index session
    have hstep := openNames_run step { session with journal }
    rw [runFrom, heq]
    generalize step.run { session with journal } = outcome at hstep ⊢
    rcases outcome with ⟨_ | ⟨⟩, after⟩
    · exact hstep
    · exact (openNames_runFrom rest henter (index + 1) after).trans hstep

end

variable {spread : Spread}

mutual

/-- A step agrees on sessions that are the same, when what it derives is covered. -/
theorem run_agrees (hclosed : spread.Closed) : (step : Step) →
    {session other : Session TokenStore} → session.Echoes spread other →
    step.Covered spread session.openNames → step.KeepsIgnoring →
    Agrees spread (step.run session) (step.run other)
  | declare part body, _, _, h, hcovered, _ => h.runDeclaration hclosed part body hcovered
  | joiner tokens, _, _, h, _, _ => (h.joiner hclosed tokens).ofOperation
  | nonJoiner tokens, _, _, h, _, _ => (h.nonJoiner hclosed tokens).ofOperation
  | period value, _, _, h, _, _ => (h.build hclosed .period { } _).ofOperation
  | tag name steps, _, _, h, hcovered, hkeeps => by
    refine h.underTag name ?_
    rw [runAll_eq 0, runAll_eq 0]
    exact runFrom_agrees hclosed steps harmless_id 0 0 (h.journal rfl) hcovered hkeeps
  | list names steps, _, _, h, hcovered, hkeeps => by
    refine h.underLists names fun registry registry' hok _ hopened => ?_
    rw [runAll_eq 0, runAll_eq 0]
    refine runFrom_agrees hclosed steps harmless_id 0 0 hopened ?_ hkeeps
    rw [openNames, (NamedLists.opens_of_openScope hok).openNames_eq]
    exact hcovered
  | generateCompounds, _, _, h, hcovered, _ => by
    rw [run, run]
    exact ⟨rfl, h.generateCompounds hclosed hcovered⟩
  | stemRules tokens, _, _, h, _, _ => (h.stemRules hclosed tokens).ofOperation
  | stemExceptions tokens, _, _, h, _, _ => (h.stemExceptions hclosed tokens).ofOperation
  | inferDeadConsonants _, _, _, h, _, _ => by
    rw [run, run]
    exact ⟨rfl, h.configure hclosed _ nofun⟩
  | ignoreDuplicates enabled, _, _, h, _, hkeeps => by
    obtain rfl : enabled = true := hkeeps
    rw [run, run]
    exact ⟨rfl, h.configure hclosed _ nofun⟩

/-- Steps agree on sessions that are the same, also when they are numbered differently. -/
theorem runFrom_agrees (hclosed : spread.Closed) : (steps : List Step) →
    {enter : Nat → Session TokenStore → Session TokenStore} → Harmless enter →
    (index index' : Nat) → {session other : Session TokenStore} → session.Echoes spread other →
    AllCovered spread session.openNames steps → AllKeepIgnoring steps →
    Agrees spread (runFrom enter index steps session) (runFrom enter index' steps other)
  | [], _, _, _, _, _, _, h, _, _ => ⟨rfl, h⟩
  | step :: rest, enter, henter, index, index', session, other, h, hcovered, hkeeps => by
    obtain ⟨journal, htag, heq⟩ := henter index session
    obtain ⟨journal', htag', heq'⟩ := henter index' other
    rw [runFrom, runFrom, heq, heq']
    have hentered := h.journal (htag'.trans (h.tag.trans htag.symm))
    refine (run_agrees hclosed step hentered hcovered.1 hkeeps.1).andThen ?_
    intro after after' hok _ hafter
    refine runFrom_agrees hclosed rest henter (index + 1) (index' + 1) hafter ?_ hkeeps.2
    have hnames := openNames_run step { session with journal }
    rw [hok] at hnames
    exact hnames.symm ▸ hcovered.2

end

end Step

end TranslitScheme
