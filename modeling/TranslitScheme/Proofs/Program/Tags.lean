import TranslitScheme.Proofs.Program.Defaults
import TranslitScheme.Proofs.Repetition.Step
import TranslitScheme.Proofs.Session.Tags

/-!
# Tag steps are transparent

Steps do the same under a tag as they do without it, but for the tag that their tokens carry. Any
two sessions that are the same without tags and places stay so when the same step is run on both,
and the step has the same result: for steps without scopes this is known from the operations, a list
scope is opened on both sides or on none, and under a tag both sides have the same tag.

A short tag is not seen in the bare session, so that the steps in a tag step and the steps alone
start from sessions that are the same without it. `run_tag_transparent` compares the two runs.
-/

namespace TranslitScheme

open Session

namespace StepResult

/-- Two runs came to the same, but for tags and places. -/
def BareAlike (outcome other : StepResult TokenStore) : Prop :=
  Session.Alike (fun session other : Session TokenStore => session.bare = other.bare) outcome other

/-- The result of an operation is the result of its step. -/
theorem ofOperation_bare (outcome : Except Fault Unit × Session TokenStore) :
    ofOperation (bareIn outcome) = bareIn (ofOperation outcome) := by
  obtain ⟨fault | ⟨⟩, session⟩ := outcome
  · rfl
  · rfl

end StepResult

open StepResult

/-- A template is expanded and built. -/
theorem Declaration.runExpansion_bare (part : Section) (options : TokenOptions)
    (expansion : Expansion) (session : Session TokenStore) :
    runExpansion part options expansion session.bare =
      bareIn (runExpansion part options expansion session) := by
  unfold runExpansion
  cases expansion.source with
  | error reason =>
    exact congrArg (fun journal => (_, { session.bare with journal }))
      (session.journal.record_bare _)
  | ok source =>
    dsimp only
    rw [combine_bare]
    rcases session.combine source expansion.tokenFilter expansion.template with
      ⟨fault | mapping, left⟩
    · rfl
    · dsimp only [bareIn]
      rw [build_bare, ofOperation_bare]
      rfl

/-- A declaration does the same. -/
theorem Declaration.run_bare (part : Section) (body : Declaration)
    (session : Session TokenStore) :
    body.run part session.bare = bareIn (body.run part session) := by
  unfold run
  split
  · rw [build_bare, ofOperation_bare]
  · exact runExpansion_bare part body.options _ session
  · exact congrArg (fun journal => (_, { session.bare with journal }))
      (session.journal.record_bare _)

namespace Step

/-- A step without a scope does the same. -/
theorem runPlain_bare (step : Step) (hplain : ¬ step.IsScope) (session : Session TokenStore) :
    step.run session.bare = bareIn (step.run session) := by
  cases step with
  | declare part body => exact Declaration.run_bare part body session
  | joiner tokens => rw [run, run, joiner_bare, ofOperation_bare]
  | nonJoiner tokens => rw [run, run, nonJoiner_bare, ofOperation_bare]
  | period value => rw [run, run, Session.period, build_bare, ofOperation_bare, Session.period]
  | tag name steps => exact absurd trivial hplain
  | list names steps => exact absurd trivial hplain
  | generateCompounds => rw [run, run, generateCompounds_bare]; rfl
  | stemRules tokens =>
    rw [run, run, ← ofOperation_bare]
    exact congrArg ofOperation (createPairs_bare session
      (fun store pair =>
        store.perform_untagged (.createStemRule ⟨pair.1, pair.2⟩) fun _ => by simp)
      tokens "stem rule")
  | stemExceptions tokens =>
    rw [run, run, ← ofOperation_bare]
    exact congrArg ofOperation (createPairs_bare session
      (fun store pair =>
        store.perform_untagged (.createStemException ⟨pair.1, pair.2⟩) fun _ => by simp)
      tokens "stem exception")
  | inferDeadConsonants enabled => exact congrArg (Prod.mk _) (session.configure_bare _)
  | ignoreDuplicates enabled => exact congrArg (Prod.mk _) (session.configure_bare _)

/-- A step without a scope does the same on sessions that are the same but for tags and places. -/
theorem runPlain_bareAlike (step : Step) (hplain : ¬ step.IsScope)
    {session other : Session TokenStore} (h : session.bare = other.bare) :
    BareAlike (step.run session) (step.run other) := by
  have hran : bareIn (step.run session) = bareIn (step.run other) := by
    rw [← runPlain_bare step hplain, ← runPlain_bare step hplain, h]
  have hresult := congrArg Prod.fst hran
  have hleft := congrArg Prod.snd hran
  exact ⟨hresult, hleft⟩

end Step

namespace Session

variable {session other : Session TokenStore}

/-- The same scope is opened on both sides, or none. -/
theorem openScope_of_bare (h : session.bare = other.bare) (names : List Value) :
    (session.lists.openScope names).1 = (other.lists.openScope names).1 ∧
      (session.lists.openScope names).2.untagged = (other.lists.openScope names).2.untagged := by
  have hlists : session.lists.untagged = other.lists.untagged := congrArg Session.lists h
  have hopened : session.lists.untagged.openScope names = other.lists.untagged.openScope names := by
    rw [hlists]
  rw [NamedLists.openScope_untagged, NamedLists.openScope_untagged] at hopened
  exact Prod.mk.inj hopened

/-- Active tags that are the same without short ones may be set on both sides. -/
theorem bare_retag (h : session.bare = other.bare) (tag tag' : Option String)
    (htag : Token.untag tag = Token.untag tag') :
    ({ session with journal := { session.journal with tag } } : Session TokenStore).bare =
      ({ other with journal := { other.journal with tag := tag' } } : Session TokenStore).bare := by
  change { session.bare with
      journal := { session.bare.journal with tag := Token.untag tag } } =
    { other.bare with journal := { other.bare.journal with tag := Token.untag tag' } }
  rw [h, htag]

/-- What runs under a tag comes to the same when its body does. -/
theorem underTag_bareAlike (h : session.bare = other.bare) (name : String)
    {body : Session TokenStore → StepResult TokenStore}
    (hbody : ∀ {session other}, session.bare = other.bare → BareAlike (body session) (body other)) :
    BareAlike (session.underTag name body) (other.underTag name body) := by
  obtain ⟨hresult, hended⟩ := hbody (bare_retag h (some name) (some name) rfl)
  exact ⟨hresult, bare_retag hended _ _ (congrArg (fun bare => bare.journal.tag) h)⟩

/-- What runs in a list scope comes to the same when its body does. -/
theorem underLists_bareAlike (h : session.bare = other.bare) (names : List Value)
    {body : Session TokenStore → StepResult TokenStore}
    (hbody : ∀ {session other}, session.bare = other.bare → BareAlike (body session) (body other)) :
    BareAlike (session.underLists names StepError.fault body)
      (other.underLists names StepError.fault body) := by
  obtain ⟨hsame, hlists⟩ := openScope_of_bare h names
  unfold underLists
  generalize session.lists.openScope names = opened, other.lists.openScope names = opened'
    at hsame hlists ⊢
  obtain ⟨result, lists⟩ := opened
  obtain ⟨result', lists'⟩ := opened'
  cases (hsame : result = result')
  have hentered : ({ session with lists } : Session TokenStore).bare =
      ({ other with lists := lists' } : Session TokenStore).bare := by
    change { session.bare with lists := lists.untagged } =
      { other.bare with lists := lists'.untagged }
    rw [h, hlists]
  rcases result with fault | ⟨⟩
  · refine ⟨rfl, ?_⟩
    have habort := congrArg Prod.snd
      (({ session with lists } : Session TokenStore).abort_bare (α := Unit) fault)
    have habort' := congrArg Prod.snd
      (({ other with lists := lists' } : Session TokenStore).abort_bare (α := Unit) fault)
    rw [hentered] at habort
    exact habort.symm.trans habort'
  · obtain ⟨hresult, hended⟩ := hbody hentered
    refine ⟨hresult, ?_⟩
    have hclosed (ended : Session TokenStore) :
        ({ ended with lists := ended.lists.closeScope } : Session TokenStore).bare =
          { ended.bare with lists := ended.bare.lists.closeScope } := rfl
    dsimp only
    rw [hclosed, hclosed, hended]

end Session

namespace Step

mutual

/-- A step does the same on sessions that are the same but for tags and places. -/
theorem run_bareAlike : (step : Step) → {session other : Session TokenStore} →
    session.bare = other.bare → BareAlike (step.run session) (step.run other)
  | tag name steps, session, other, h => by
    rw [run, run]
    refine underTag_bareAlike h name fun {session other} hentered => ?_
    rw [runAll_eq 0, runAll_eq 0]
    exact runFrom_bareAlike (fun _ _ => rfl) (fun _ _ => rfl) steps 0 0 hentered
  | list names steps, session, other, h => by
    rw [run, run]
    refine underLists_bareAlike h names fun {session other} hentered => ?_
    rw [runAll_eq 0, runAll_eq 0]
    exact runFrom_bareAlike (fun _ _ => rfl) (fun _ _ => rfl) steps 0 0 hentered
  | declare part body, _, _, h => runPlain_bareAlike (declare part body) id h
  | joiner tokens, _, _, h => runPlain_bareAlike (joiner tokens) id h
  | nonJoiner tokens, _, _, h => runPlain_bareAlike (nonJoiner tokens) id h
  | period value, _, _, h => runPlain_bareAlike (period value) id h
  | generateCompounds, _, _, h => runPlain_bareAlike generateCompounds id h
  | stemRules tokens, _, _, h => runPlain_bareAlike (stemRules tokens) id h
  | stemExceptions tokens, _, _, h => runPlain_bareAlike (stemExceptions tokens) id h
  | inferDeadConsonants enabled, _, _, h => runPlain_bareAlike (inferDeadConsonants enabled) id h
  | ignoreDuplicates enabled, _, _, h => runPlain_bareAlike (ignoreDuplicates enabled) id h

/-- Steps do the same, wherever they are located. -/
theorem runFrom_bareAlike {enter enter' : Nat → Session TokenStore → Session TokenStore}
    (henter : ∀ index session, (enter index session).bare = session.bare)
    (henter' : ∀ index session, (enter' index session).bare = session.bare) :
    (steps : List Step) → (index index' : Nat) → {session other : Session TokenStore} →
    session.bare = other.bare →
    BareAlike (runFrom enter index steps session) (runFrom enter' index' steps other)
  | [], _, _, _, _, h => ⟨rfl, h⟩
  | step :: rest, index, index', session, other, h => by
    have hentered : (enter index session).bare = (enter' index' other).bare := by
      rw [henter, henter', h]
    rw [runFrom, runFrom]
    rcases (run_bareAlike step hentered).cases with
      ⟨failure, left, right, hs, ht, hleft⟩ | ⟨⟨⟩, left, right, hs, ht, hleft⟩
    · rw [hs, ht]
      exact ⟨rfl, hleft⟩
    · rw [hs, ht]
      exact runFrom_bareAlike henter henter' rest (index + 1) (index' + 1) hleft

end

/-- Steps come to the same outside of a tag step and inside of it, if its name is short and no tag
is active outside. -/
theorem run_tag_bareAlike {name : String} (hname : Token.TagFits name) (steps : List Step)
    {session other : Session TokenStore} (htag : session.journal.tag = none)
    (hother : other.bare = session.bare) (enter : Nat → Session TokenStore → Session TokenStore)
    (henter : ∀ index session, (enter index session).bare = session.bare) (index : Nat)
    (hkept : (runFrom enter index steps other).2.journal.tag = none) :
    BareAlike (runFrom enter index steps other) ((tag name steps).run session) := by
  have huntag : Token.untag (some name) = Token.untag session.journal.tag := by
    rw [htag]
    exact Token.untag_of_fits hname
  have hentered : other.bare = ({ session with
      journal := { session.journal with tag := some name } } : Session TokenStore).bare :=
    hother.trans (bare_retag (rfl : session.bare = session.bare) _ _ huntag.symm)
  obtain ⟨hresult, hleft⟩ :=
    runFrom_bareAlike henter (fun _ _ => rfl) steps index 0 hentered
  rw [← runAll_eq] at hresult hleft
  refine ⟨hresult, ?_⟩
  have hback := bare_retag hleft none session.journal.tag (by rw [htag])
  rw [← hkept] at hback
  exact hback

/-- So do the top-level steps of a file, which are then all nested in one. -/
theorem runLocated_tag_bareAlike {name : String} (hname : Token.TagFits name) (steps : List Step)
    {session : Session TokenStore} (htag : session.journal.tag = none) (file : String)
    (index : Nat) :
    BareAlike (runLocated file index steps session)
      (runLocated file index [tag name steps] session) := by
  have hkept := (spares_runLocated file index steps session).tag.trans htag
  rw [runLocated_eq] at hkept ⊢
  have hlocated : (session.setLocation (some ⟨file, some index⟩)).journal.tag = none := htag
  have hbare : session.bare = (session.setLocation (some ⟨file, some index⟩)).bare := rfl
  have hboth := run_tag_bareAlike hname steps hlocated hbare
    (fun index session => session.setLocation (some ⟨file, some index⟩)) (fun _ _ => rfl) index
    hkept
  rw [runLocated]
  generalize (tag name steps).run (session.setLocation (some ⟨file, some index⟩)) = nested
    at hboth ⊢
  obtain ⟨failure | ⟨⟩, left⟩ := nested
  · exact hboth
  · exact hboth

end Step

/-- A program is transparent to a tag step around its steps. -/
theorem Program.run_tag_bareAlike {name : String} (hname : Token.TagFits name) (header : Header)
    (steps : List Step) {session : Session TokenStore} (htag : session.journal.tag = none)
    (file : String) :
    BareAlike (run file ⟨header, steps⟩ session)
      (run file ⟨header, [.tag name steps]⟩ session) := by
  have hheader : (header.apply session).journal.tag = none := by
    rw [header.apply_eq]
    exact htag
  unfold run
  rcases (Step.runLocated_tag_bareAlike hname steps hheader file 1).cases with
    ⟨failure, left, right, hs, ht, hleft⟩ | ⟨⟨⟩, left, right, hs, ht, hleft⟩
  · rw [hs, ht]
    exact ⟨rfl, hleft⟩
  · rw [hs, ht]
    exact ⟨rfl, hleft⟩

/-- Two runs came to the same but for the tags of tokens and the places of diagnostics: the same
result, the same stored tokens, remembered tokens and lists, position by position, the same stem
rules and exceptions, and the same diagnostics. -/
structure StepResult.SameButTags (outcome other : StepResult TokenStore) : Prop where
  result : outcome.1 = other.1
  flushed : outcome.2.sink.flushed.map Token.untagged = other.2.sink.flushed.map Token.untagged
  buffer : outcome.2.sink.buffer.map Token.untagged = other.2.sink.buffer.map Token.untagged
  built : outcome.2.built.map Token.untagged = other.2.built.map Token.untagged
  lists : outcome.2.lists.lists.map (fun list => (list.name, list.tokens.map Token.untagged)) =
    other.2.lists.lists.map fun list => (list.name, list.tokens.map Token.untagged)
  stemRules : outcome.2.sink.stemRules = other.2.sink.stemRules
  stemExceptions : outcome.2.sink.stemExceptions = other.2.sink.stemExceptions
  diagnostics : outcome.2.journal.entries.map (fun diagnostic =>
      (diagnostic.code, diagnostic.severity, diagnostic.message, diagnostic.expression)) =
    other.2.journal.entries.map fun diagnostic =>
      (diagnostic.code, diagnostic.severity, diagnostic.message, diagnostic.expression)

/-- Runs that leave the same without tags and places came to the same but for these. -/
theorem StepResult.BareAlike.sameButTags {outcome other : StepResult TokenStore}
    (h : BareAlike outcome other) : SameButTags outcome other := by
  obtain ⟨hresult, hleft⟩ := h
  have hlists := congrArg (fun bare => bare.lists.lists.map fun list => (list.name, list.tokens))
    hleft
  have hentries := congrArg (fun bare => bare.journal.entries.map fun diagnostic =>
    (diagnostic.code, diagnostic.severity, diagnostic.message, diagnostic.expression)) hleft
  simp only [bare, NamedLists.untagged, Journal.bare, List.map_map] at hlists hentries
  exact {
    result := hresult
    flushed := congrArg (fun bare => bare.sink.flushed) hleft
    buffer := congrArg (fun bare => bare.sink.buffer) hleft
    built := congrArg Session.built hleft
    lists := hlists
    stemRules := congrArg (fun bare => bare.sink.stemRules) hleft
    stemExceptions := congrArg (fun bare => bare.sink.stemExceptions) hleft
    diagnostics := hentries }

/-- Tag steps are transparent. Take any steps, a tag of at most 30 bytes, and a session in which no
tag is active. The steps and the tag step around them come to the same when they are nested in
others, and so do the programs that are made of the ones and of the other: the same result, the same
tokens in the store, in the session and in the lists once tags are erased, the same stem rules and
exceptions, and the same diagnostics but for the numbers of the steps that they point at. -/
theorem Program.run_tag_transparent (name : String) (hname : name.utf8ByteSize ≤ 30)
    (steps : List Step) (session : Session TokenStore) (htag : session.journal.tag = none)
    (file : String) (header : Header) :
    (Step.runAll steps session).SameButTags ((Step.tag name steps).run session) ∧
      (run file ⟨header, steps⟩ session).SameButTags
        (run file ⟨header, [.tag name steps]⟩ session) := by
  constructor
  · have hkept := (Step.spares_runAll steps session).tag.trans htag
    rw [Step.runAll_eq 0] at hkept ⊢
    exact (Step.run_tag_bareAlike hname steps htag rfl _ (fun _ _ => rfl) 0 hkept).sameButTags
  · exact (run_tag_bareAlike hname header steps htag file).sameButTags

/-- A session that has a virama and derives dead consonants. -/
def derivingDeadForms : Session TokenStore where
  sink :=
    { buffer := [{ category := .virama, pattern := "~", value1 := "x" }]
      infersDeadConsonants := true }

/-- A consonant in a list, an inner tag that is too long, and a template over an unknown list. -/
def variedSteps : List Step :=
  [.list [.str "l"] [.declare .consonants { tokens := some (.map [(.str "ka", .str "k")]) }],
    .tag "a tag of more than thirty bytes" [.declare .vowels
      { tokens := some (.map [(.str "a", .str "A")]) }],
    .declare .others
      { expansion := some { list := some "m", template := .map [(.str "*", .str "*1")] } }]

/-- The template fails in both runs. The consonant and its dead form are stored under the tag or
without one, and the vowel is refused by the tag that is too long. -/
theorem run_tag_transparent_variedSteps :
    let direct := Step.runAll variedSteps derivingDeadForms
    let nested := (Step.tag "t" variedSteps).run derivingDeadForms
    direct.SameButTags nested ∧ direct.1 = .error (.fault (.unknownList "m")) ∧
      direct.2.sink.stored.map Token.tag = ["", "", ""] ∧
      nested.2.sink.stored.map Token.tag = ["", "t", "t"] ∧
      direct.2.journal.entries.map Diagnostic.code = [.sinkRejected, .listUnknown] := by
  intro direct nested
  refine ⟨(Program.run_tag_transparent "t" (by decide +kernel) variedSteps derivingDeadForms rfl
    "s.yaml" { }).1, ?_, ?_, ?_, ?_⟩
  · decide +kernel
  · decide +kernel
  · decide +kernel
  · decide +kernel

end TranslitScheme
