import TranslitScheme.Program.Compile
import TranslitScheme.Proofs.Repetition.Step

/-!
# Declarations that are made twice

A program in which a declaration stands twice in a row, at any depth of nesting, is compared with
the same program in which it stands once. While duplicates are passed over, both programs end in
the same way and compile to tables that are the same but for the way of matching of tokens that
later templates derive.

The way of matching is different only where a template with a plain key is expanded over tokens
that are repeated: its key is merged with itself into a group of equal spellings.
-/

namespace TranslitScheme

namespace Step

open Session

variable {spread : Spread}

/-- The category of the tokens that a step declares as they are written. -/
def declared? : Step → Option Category
  | declare part body => body.tokens.map fun _ => part.category
  | joiner _ => some .joiner
  | nonJoiner _ => some .nonJoiner
  | period _ => some .period
  | _ => none

/-- In a list scope, a step of the first program stands twice in the second, in the same place. The
spread covers the repetition of its tokens and all that follows it. -/
inductive InsertsCopy (spread : Spread) : List String → List Step → List Step → Prop where
  | here {scope : List String} {before after : List Step} {step : Step} {category : Category} :
    step.declared? = some category → spread.Covers True False category scope →
    AllCovered spread scope after →
    InsertsCopy spread scope (before ++ step :: after) (before ++ step :: step :: after)
  | underTag {scope : List String} {before after steps steps' : List Step} {name : String} :
    InsertsCopy spread scope steps steps' → AllCovered spread scope after →
    InsertsCopy spread scope (before ++ tag name steps :: after)
      (before ++ tag name steps' :: after)
  | underLists {scope : List String} {before after steps steps' : List Step} {names : List Value} :
    InsertsCopy spread (scopeOf names) steps steps' → AllCovered spread scope after →
    InsertsCopy spread scope (before ++ list names steps :: after)
      (before ++ list names steps' :: after)

/-- Declaring tokens once more agrees with declaring them once. -/
theorem run_again (hclosed : spread.Closed) {step : Step} {category : Category}
    (hdeclared : step.declared? = some category) {session other : Session TokenStore}
    (hignores : session.sink.ignoresDuplicates = true)
    (hcovers : spread.Covers True False category session.openNames)
    (hok : (step.run session).1 = .ok ()) (hran : (step.run session).2.Echoes spread other) :
    Agrees spread (step.run session) (step.run other) := by
  cases step with
  | declare part body =>
    unfold declared? at hdeclared
    obtain ⟨tokens, htokens, rfl⟩ := Option.map_eq_some_iff.mp hdeclared
    have hrun (session : Session TokenStore) (hnone : body.expansion = none) :
        (declare part body).run session =
          StepResult.ofOperation (session.build part.category body.options tokens) := by
      rw [run, Declaration.run, htokens, hnone]
    cases hexpansion : body.expansion with
    | some expansion =>
      rw [run, Declaration.run, htokens, hexpansion] at hok
      contradiction
    | none =>
      rw [hrun _ hexpansion, ofOperation_ok_iff] at hok
      rw [hrun _ hexpansion, ofOperation_snd] at hran
      rw [hrun _ hexpansion, hrun _ hexpansion]
      exact (Echoes.build_again hclosed hok hran hignores hcovers).ofOperation
  | joiner tokens =>
    obtain rfl := Option.some.inj hdeclared
    rw [run, ofOperation_ok_iff] at hok
    rw [run, ofOperation_snd] at hran
    rw [run, run]
    exact (Echoes.joiner_again hclosed hok hran hignores hcovers).ofOperation
  | nonJoiner tokens =>
    obtain rfl := Option.some.inj hdeclared
    rw [run, ofOperation_ok_iff] at hok
    rw [run, ofOperation_snd] at hran
    rw [run, run]
    exact (Echoes.nonJoiner_again hclosed hok hran hignores hcovers).ofOperation
  | period value =>
    obtain rfl := Option.some.inj hdeclared
    rw [run, ofOperation_ok_iff] at hok
    rw [run, ofOperation_snd] at hran
    rw [run, run]
    unfold Session.period at hok hran ⊢
    exact (Echoes.build_again hclosed hok hran hignores hcovers).ofOperation
  | _ => contradiction

/-- Steps never make the sink refuse duplicates when no part of them does. -/
theorem allKeepIgnoring_append {steps rest : List Step} (h : AllKeepIgnoring (steps ++ rest)) :
    AllKeepIgnoring steps ∧ AllKeepIgnoring rest := by
  induction steps with
  | nil => exact ⟨trivial, h⟩
  | cons step steps ih => exact ⟨⟨h.1, (ih h.2).1⟩, (ih h.2).2⟩

/-- The sink still passes over duplicates after steps that keep it so. -/
theorem ignores_runFrom {steps : List Step} (hkeeps : AllKeepIgnoring steps)
    {enter : Nat → Session TokenStore → Session TokenStore} (henter : Harmless enter) (index : Nat)
    {session : Session TokenStore} (hignores : session.sink.ignoresDuplicates = true) :
    (runFrom enter index steps session).2.sink.ignoresDuplicates = true :=
  (runFrom_agrees Spread.closed_none steps henter index index (.refl session hignores)
    (allCovered_none _ steps) hkeeps).2.ignores

/-- The same steps before others that agree, where the others may assume that the scope is the same
and duplicates are passed over. -/
theorem agrees_after {before rest rest' : List Step} {scope : List String}
    (hkeeps : AllKeepIgnoring before)
    {enter : Nat → Session TokenStore → Session TokenStore} (henter : Harmless enter) (index : Nat)
    {session : Session TokenStore} (hscope : session.openNames = scope)
    (hignores : session.sink.ignoresDuplicates = true)
    (hrest : ∀ index session, session.openNames = scope → session.sink.ignoresDuplicates = true →
      Agrees spread (runFrom enter index rest session) (runFrom enter index rest' session)) :
    Agrees spread (runFrom enter index (before ++ rest) session)
      (runFrom enter index (before ++ rest') session) := by
  have hstill := ignores_runFrom hkeeps henter index hignores
  have hnames := openNames_runFrom before henter index session
  rw [runFrom_append, runFrom_append]
  refine Agrees.andThen ⟨rfl, .refl _ hstill⟩ fun after after' hran hran' _ => ?_
  obtain rfl : after' = after := congrArg Prod.snd (hran'.symm.trans hran)
  rw [hran] at hstill hnames
  exact hrest _ _ (hnames.trans hscope) hstill

/-- Two steps that agree, between the same steps, when what derives from them is covered. -/
theorem agrees_around {before after : List Step} {step step' : Step} {scope : List String}
    (hclosed : spread.Closed) (hkeeps : AllKeepIgnoring (before ++ step :: after))
    (hcovered : AllCovered spread scope after)
    {enter : Nat → Session TokenStore → Session TokenStore} (henter : Harmless enter) (index : Nat)
    {session : Session TokenStore} (hscope : session.openNames = scope)
    (hignores : session.sink.ignoresDuplicates = true)
    (hstep : ∀ session : Session TokenStore, session.openNames = scope →
      session.sink.ignoresDuplicates = true →
      Agrees spread (step.run session) (step'.run session)) :
    Agrees spread (runFrom enter index (before ++ step :: after) session)
      (runFrom enter index (before ++ step' :: after) session) := by
  obtain ⟨hbefore, _, hafter⟩ := allKeepIgnoring_append hkeeps
  refine agrees_after hbefore henter index hscope hignores fun index session hscope hignores => ?_
  obtain ⟨journal, _, heq⟩ := henter index session
  have hnames := openNames_run step { session with journal }
  rw [runFrom, runFrom, heq]
  refine (hstep { session with journal } hscope hignores).andThen ?_
  intro ended ended' hran _ hended
  rw [hran] at hnames
  exact runFrom_agrees hclosed after henter _ _ hended
    ((hnames.trans hscope).symm ▸ hcovered) hafter

/-- Steps with a copy agree with the steps without it. -/
theorem InsertsCopy.agrees {scope : List String} {steps steps' : List Step}
    (h : InsertsCopy spread scope steps steps') (hclosed : spread.Closed)
    (hkeeps : AllKeepIgnoring steps) {enter : Nat → Session TokenStore → Session TokenStore}
    (henter : Harmless enter) (index : Nat) {session : Session TokenStore}
    (hscope : session.openNames = scope) (hignores : session.sink.ignoresDuplicates = true) :
    Agrees spread (runFrom enter index steps session) (runFrom enter index steps' session) := by
  induction h generalizing enter index session with
  | @here scope before after step category hdeclared hcovers hcovered =>
    obtain ⟨hbefore, hstep, hafter⟩ := allKeepIgnoring_append hkeeps
    refine agrees_after hbefore henter index hscope hignores fun index session hscope hignores => ?_
    obtain ⟨journal, _, heq⟩ := henter index session
    have hnames := openNames_run step { session with journal }
    have hstill := (run_agrees Spread.closed_none step
      (.refl { session with journal } hignores) (covered_none _ step) hstep).2.ignores
    rw [runFrom, runFrom, heq]
    refine Agrees.andThen ⟨rfl, .refl _ hstill⟩ fun once once' hran hran' _ => ?_
    obtain rfl : once' = once := congrArg Prod.snd (hran'.symm.trans hran)
    -- The second program runs the step again here, and the first one goes on.
    obtain ⟨journal', htag', heq'⟩ := henter (index + 1) once'
    have honce : (step.run { session with journal }).2.Echoes spread
        { once' with journal := journal' } := by
      rw [hran] at hstill ⊢
      exact (Echoes.refl once' hstill).journal_right htag'
    have hagain : Agrees spread (step.run { session with journal })
        (step.run { once' with journal := journal' }) :=
      run_again hclosed hdeclared hignores (hscope ▸ hcovers) (by rw [hran]) honce
    rw [runFrom, heq', ← StepResult.andThen_ok once' (runFrom enter (index + 1) after), ← hran]
    refine hagain.andThen fun ended ended' hended _ hsame => ?_
    rw [hended] at hnames
    exact runFrom_agrees hclosed after henter _ _ hsame
      ((hnames.trans hscope).symm ▸ hcovered) hafter
  | @underTag scope before after steps steps' name _ hcovered ih =>
    refine agrees_around hclosed hkeeps hcovered henter index hscope hignores
      fun session hscope hignores => ?_
    refine (Echoes.refl session hignores).underTag name ?_
    rw [runAll_eq 0, runAll_eq 0]
    exact ih (allKeepIgnoring_append hkeeps).2.1 harmless_id 0 hscope hignores
  | @underLists scope before after steps steps' names _ hcovered ih =>
    refine agrees_around hclosed hkeeps hcovered henter index hscope hignores
      fun session hscope hignores => ?_
    refine (Echoes.refl session hignores).underLists names fun registry registry' hok hok' _ => ?_
    obtain rfl : registry' = registry := congrArg Prod.snd (hok'.symm.trans hok)
    rw [runAll_eq 0, runAll_eq 0]
    refine ih (allKeepIgnoring_append hkeeps).2.1 harmless_id 0 ?_ hignores
    exact (NamedLists.opens_of_openScope hok).openNames_eq

end Step

namespace Program

open Session

/-- How a program ends on a store, and the table that is exported when its session is finished. -/
def exported (program : Program) (file now : String) (store : TokenStore) (settings : Settings) :
    Except StepError Unit × Table :=
  let (result, session) := program.run file (Session.start store settings)
  (result, (Compilation.complete session now).sink.toTable)

/-- What the details leave as it was. -/
theorem frames_details (session : Session TokenStore) (details : Details) :
    session.Frames { session with details } := ⟨rfl, rfl, rfl, rfl, rfl⟩

/-- What a header leaves as it was. -/
theorem frames_apply (header : Header) (session : Session TokenStore) :
    session.Frames (header.apply session) := by
  have hdetail {α : Type} (set : Session TokenStore → α → Session TokenStore)
      (hset : ∀ session detail, Frames session (set session detail)) (stated : Option α)
      (session : Session TokenStore) :
      session.Frames ((stated.map (set session)).getD session) := by
    cases stated with
    | none => exact frames_details session session.details
    | some detail => exact hset session detail
  have hcode := hdetail setLanguageCode (fun session _ => frames_details session _)
    header.languageCode session
  have hidentifier := hcode.trans <|
    hdetail setIdentifier (fun session _ => frames_details session _) header.identifier _
  have hname := hidentifier.trans <|
    hdetail setDisplayName (fun session _ => frames_details session _) header.displayName _
  have hauthor := hname.trans <|
    hdetail setAuthor (fun session _ => frames_details session _) header.author _
  exact hauthor.trans <|
    hdetail setStable (fun session _ => frames_details session _) header.stable _

/-- Programs with a copy agree with the programs without it. -/
theorem run_insertsCopy {spread : Spread} (hclosed : spread.Closed) {steps steps' : List Step}
    (hcopy : Step.InsertsCopy spread [] steps steps') (hkeeps : Step.AllKeepIgnoring steps)
    (header : Header) (file : String) (settings : Settings) {store : TokenStore}
    (hignores : store.ignoresDuplicates = true) :
    Agrees spread (Program.run file { header, steps } (Session.start store settings))
      (Program.run file { header, steps := steps' } (Session.start store settings)) := by
  have hframes := frames_apply header (Session.start store settings)
  have hscope : (header.apply (Session.start store settings)).openNames = [] := hframes.openNames
  have hstart : (header.apply (Session.start store settings)).sink.ignoresDuplicates = true :=
    hframes.ignores.trans hignores
  have hagrees :=
    hcopy.agrees hclosed hkeeps (Step.harmless_setLocation file) 1 hscope hstart
  rw [← Step.runLocated_eq, ← Step.runLocated_eq] at hagrees
  unfold Program.run
  generalize Step.runLocated file 1 steps (header.apply (Session.start store settings)) = outcome
    at hagrees
  generalize Step.runLocated file 1 steps' (header.apply (Session.start store settings)) = outcome'
    at hagrees
  obtain ⟨result, session⟩ := outcome
  obtain ⟨result', session'⟩ := outcome'
  obtain ⟨hresult, hended⟩ := hagrees
  obtain rfl : result' = result := hresult
  cases result' with
  | error failure => exact ⟨rfl, hended⟩
  | ok _ => exact ⟨rfl, hended.journal hended.tag⟩

/-- A declaration that is made twice is inert while duplicates are passed over, as long as no step
behind it filters tokens by their way of matching that may have become spellings: a spread that
covers the steps lets them filter only what is not loose.

The program then ends in the same way, with the same details, stem rules and stem exceptions. Its
tokens are the same one by one, but that those in loose categories may be spellings, and the table
is the same where no category is loose. -/
theorem exported_insertsCopy (spread : Spread) (hclosed : spread.Closed)
    (steps steps' : List Step) (hcopy : Step.InsertsCopy spread [] steps steps')
    (hkeeps : Step.AllKeepIgnoring steps) (store : TokenStore)
    (hignores : store.ignoresDuplicates = true) (settings : Settings) (header : Header)
    (file now : String) :
    let once := exported { header, steps } file now store settings
    let twice := exported { header, steps := steps' } file now store settings
    twice.1 = once.1 ∧ twice.2.details = once.2.details ∧
      twice.2.stemRules = once.2.stemRules ∧ twice.2.stemExceptions = once.2.stemExceptions ∧
      List.Forall₂
        (fun token token' => token' = token ∨
          spread.loose (.category token.category) ∧
            token' = { token with matching := .possibility })
        once.2.tokens twice.2.tokens ∧
      ((∀ category, ¬ spread.loose (.category category)) → twice.2 = once.2) := by
  obtain ⟨hresult, hended⟩ := run_insertsCopy hclosed hcopy hkeeps header file settings hignores
  have hsink := (hended.finish hclosed now).sink
  have hrest := hsink.toTable_eq
  refine ⟨hresult, (congrArg Table.details hrest :), (congrArg Table.stemRules hrest :),
    (congrArg Table.stemExceptions hrest :), hsink.flushed, fun hnot => ?_⟩
  exact congrArg TokenStore.toTable (hsink.eq_of_not hnot)

/-- A vowel with a combining form, as it is written. -/
def vowelStep : Step :=
  .declare .vowels { tokens := some (.map [(.str "a", .list [.str "A", .str "AA"])]) }

/-- Symbols that are expanded over the vowels, under a given key. -/
def symbolStep (key : Value) : Step :=
  .declare .symbols
    { expansion := some { category := some "vowels", template := .map [(key, .str "*1")] } }

/-- With a sequence for a key nothing is changed by a second declaration of the vowel in its list,
although compounds and symbols are derived from both. -/
theorem exported_insertsCopy_sequenceKey :
    (exported { steps := [.list [.str "L"] [vowelStep, vowelStep], .generateCompounds,
        symbolStep (.list [.str "*x"])] } "f" "now" { } { }).2 =
      (exported { steps := [.list [.str "L"] [vowelStep], .generateCompounds,
        symbolStep (.list [.str "*x"])] } "f" "now" { } { }).2 := by
  -- Everything may be repeated and nothing becomes a spelling.
  let spread : Spread := ⟨fun _ => True, fun _ => False⟩
  have hcovers {may : Prop} (hmay : ¬ may) (category : Category) (scope : List String) :
      spread.Covers True may category scope := fun _ _ => ⟨fun _ => trivial, hmay⟩
  have hkey : ¬ (Value.map [(.list [.str "*x"], .str "*1")]).HasPlainKey := by
    rintro ⟨pair, hpair, text, htext⟩
    obtain rfl : pair = (.group [.scalar "*x"], .scalar "*1") := List.mem_singleton.mp hpair
    contradiction
  have hsymbols : (symbolStep (.list [.str "*x"])).Covered spread [] := by
    rintro expansion ⟨⟩ source hsource
    exact ⟨Or.inl rfl, (hcovers (fun hboth => hkey hboth.2) _ _).imp (fun _ => trivial) id⟩
  have hcompounds : Step.generateCompounds.Covered spread [] :=
    (hcovers (fun hloose => hloose.elim id id) _ _).imp (fun _ => trivial) id
  have hvowels : Step.InsertsCopy spread ["L"] [vowelStep] [vowelStep, vowelStep] :=
    @Step.InsertsCopy.here spread ["L"] [] [] vowelStep .vowel rfl (hcovers id _ _) trivial
  have hafter : Step.AllCovered spread [] [.generateCompounds, symbolStep (.list [.str "*x"])] :=
    ⟨hcompounds, hsymbols, trivial⟩
  have hcopy := @Step.InsertsCopy.underLists spread [] [] _ _ _ [.str "L"] hvowels hafter
  exact (exported_insertsCopy spread False.elim _ _ hcopy ⟨⟨trivial, trivial⟩, trivial, trivial,
    trivial⟩ { } rfl { } { } "f" "now").2.2.2.2.2 fun _ => id

/-- Tokens that are expanded over the exact symbols. -/
def exactSymbolStep : Step :=
  .declare .others
    { expansion := some {
        category := some "symbols"
        filter := some (.map [(.str "exact", .bool true)])
        template := .map [(.str "*y", .str "*1")] } }

/-- With a plain key a second declaration of the vowel makes a spelling of the symbol. A step that
filters the symbols by their way of matching then derives fewer tokens. -/
theorem exported_plainKey_ne :
    (exported { steps := [vowelStep, symbolStep (.str "*x")] } "f" "now" { } { }).2 ≠
        (exported { steps := [vowelStep, vowelStep, symbolStep (.str "*x")] } "f" "now"
          { } { }).2 ∧
      (exported { steps := [vowelStep, symbolStep (.str "*x"), exactSymbolStep] } "f" "now"
        { } { }).2.tokens.length = 6 ∧
      (exported { steps := [vowelStep, vowelStep, symbolStep (.str "*x"), exactSymbolStep] }
        "f" "now" { } { }).2.tokens.length = 5 := by
  decide +kernel

end Program

end TranslitScheme
