import TranslitScheme.Proofs.Session.Observation

/-!
# Scopes of tags and lists

The tag under which a session hands tokens to its sink is part of its state, and a tag step sets it
and puts it back. Scoping is lexical all the same. Whatever a step does, and however it ends, it
leaves the tag and the open list scope as they were, so that every token carries the tag of the
innermost tag step around the step that it comes from.

`Step.deliveries` reads the tags off the nesting of the steps alone, and pairs them with the tokens
that an observed sink gets. `Step.run_lexically_scoped` says that these tags are the right ones and
that no token is left out.
-/

namespace TranslitScheme

/-- A token that was handed to a sink, with the names of the tag steps around the step that it comes
from, the innermost first. -/
structure Delivery where
  around : List String
  token : Token
  deriving DecidableEq, Repr, Inhabited

namespace Delivery

/-- The name of the innermost tag step, or else the tag that was active outside of all steps. -/
def lexicalTag (delivery : Delivery) (outer : Option String) : String :=
  delivery.around.head?.getD (outer.getD "")

end Delivery

namespace Step

variable {σ : Type} [TokenSink σ]

mutual

/-- The tokens that a step hands to the sink, in order, when it is nested in tag steps of the given
names. -/
def deliveries (around : List String) : Step → Session (Observed σ) → List Delivery
  | .tag name steps, session =>
    deliveriesOfAll (name :: around) steps
      { session with journal := { session.journal with tag := some name } }
  | .list names steps, session =>
    match session.lists.openScope names with
    | (.error _, _) => []
    | (.ok (), lists) => deliveriesOfAll around steps { session with lists }
  | step, session =>
    ((step.run session).2.sink.handovers.drop session.sink.handovers.length).map fun handover =>
      ⟨around, handover.token⟩

/-- The tokens that steps hand to the sink, up to the first step that fails. -/
def deliveriesOfAll (around : List String) : List Step → Session (Observed σ) → List Delivery
  | [], _ => []
  | step :: rest, session =>
    deliveries around step session ++
      match step.run session with
      | (.ok (), left) => deliveriesOfAll around rest left
      | (.error _, _) => []

end

end Step

namespace Session

variable {σ : Type}

/-- The tag and the list scope are the given ones, and behind the earlier handovers there are only
those of tokens that carry the tag. -/
structure Within (active : Option String) (lists : NamedLists)
    (earlier : List (Handover σ)) (session : Session (Observed σ)) : Prop where
  tag : session.journal.tag = active
  scope : session.lists.scope = lists.scope
  openNames : session.lists.openNames = lists.openNames
  handovers : ∃ more, session.sink.handovers = earlier ++ more ∧
    ∀ handover ∈ more, handover.token.tag = active.getD ""

variable {active : Option String} {lists : NamedLists} {earlier : List (Handover σ)}
  {session : Session (Observed σ)}

/-- The rest of a session does not count. -/
theorem Within.congr (h : session.Within active lists earlier) {after : Session (Observed σ)}
    (htag : after.journal.tag = session.journal.tag)
    (hlists : after.lists = session.lists)
    (hsink : after.sink.handovers = session.sink.handovers) :
    after.Within active lists earlier where
  tag := htag.trans h.tag
  scope := hlists ▸ h.scope
  openNames := hlists ▸ h.openNames
  handovers := hsink ▸ h.handovers

variable [TokenSink σ]

/-- A token that is submitted carries the tag when it is handed over. -/
theorem Within.submit (h : session.Within active lists earlier) (token : Token) :
    (session.submit token).2.Within active lists earlier := by
  unfold Session.submit
  dsimp only
  split
  · exact h.congr rfl rfl rfl
  · obtain ⟨more, hmore, htagged⟩ := h.handovers
    have hwitnessed : ∃ more, (session.sink.witness
        { token with tag := session.journal.tag.getD "" }).handovers = earlier ++ more ∧
        ∀ handover ∈ more, handover.token.tag = active.getD "" := by
      refine ⟨more ++ [⟨session.sink.sink, { token with tag := session.journal.tag.getD "" }⟩], ?_,
        fun handover hhandover => ?_⟩
      · rw [Observed.witness, hmore, List.append_assoc]
      · rcases List.mem_append.mp hhandover with hold | hnew
        · exact htagged handover hold
        · rw [List.mem_singleton.mp hnew, h.tag]
    rw [createToken_observed]
    rcases TokenSink.createToken session.sink.sink _ with ⟨refusal | ⟨⟩, sink⟩
    · exact ⟨h.tag, h.scope, h.openNames, hwitnessed⟩
    · exact ⟨h.tag, h.scope, (NamedLists.openNames_record _ _).trans h.openNames, hwitnessed⟩

/-- Setting a switch hands over no token. -/
theorem Within.configure (h : session.Within active lists earlier) (option : SinkOption) :
    (session.configure option).Within active lists earlier := by
  unfold Session.configure
  rw [configure_observed]
  rcases TokenSink.configure session.sink.sink option with ⟨refusal | ⟨⟩, sink⟩
  · exact h.congr rfl rfl rfl
  · exact h.congr rfl rfl rfl

/-- Reading dead consonants back hands over no token. -/
theorem Within.refresh (h : session.Within active lists earlier) :
    session.refreshDeadConsonants.Within active lists earlier := by
  unfold refreshDeadConsonants
  rcases TokenSink.tokensOf session.sink .deadConsonant with refusal | tokens
  · exact h.congr rfl rfl rfl
  · exact h.congr rfl rfl rfl

/-- Operations outside of scopes keep the tag and the list scope, and hand over tokens under that
tag only. -/
theorem lockstep_within (active : Option String) (lists : NamedLists)
    (earlier : List (Handover σ)) :
    Lockstep fun session other : Session (Observed σ) =>
      session = other ∧ session.Within active lists earlier where
  reads := by rintro session _ ⟨rfl, -⟩; exact .refl session
  express := by rintro session _ expression ⟨rfl, h⟩; exact ⟨rfl, h.congr rfl rfl rfl⟩
  record := by rintro session _ finding ⟨rfl, h⟩; exact ⟨rfl, h.congr rfl rfl rfl⟩
  submit := by rintro session _ token ⟨rfl, h⟩; exact ⟨rfl, rfl, h.submit token⟩
  inferDeadConsonants := by rintro session _ enabled ⟨rfl, h⟩; exact ⟨rfl, h.configure _⟩
  ignoreDuplicates := by rintro session _ enabled ⟨rfl, h⟩; exact ⟨rfl, h.configure _⟩
  refresh := by rintro session _ ⟨rfl, h⟩; exact ⟨rfl, h.refresh⟩
  stemRule := by rintro session _ rule ⟨rfl, h⟩; exact ⟨rfl, rfl, h.congr rfl rfl rfl⟩
  stemException := by rintro session _ exempt ⟨rfl, h⟩; exact ⟨rfl, rfl, h.congr rfl rfl rfl⟩
  own := by
    rintro session _ ⟨rfl, h⟩
    exact ⟨⟨rfl, h.congr rfl rfl rfl⟩, ⟨rfl, h.congr rfl rfl rfl⟩⟩

end Session

namespace Step

variable {σ : Type}

/-- A run in which scoping was lexical: the tag and the list scope are back, the deliveries are all
that the sink got, and they carry their lexical tags. -/
structure Scoped (outer : Option String) (session left : Session (Observed σ))
    (deliveries : List Delivery) : Prop where
  tag : left.journal.tag = session.journal.tag
  scope : left.lists.scope = session.lists.scope
  openNames : left.lists.openNames = session.lists.openNames
  handovers : left.sink.handovers.map Handover.token =
    session.sink.handovers.map Handover.token ++ deliveries.map Delivery.token
  tagged : ∀ delivery ∈ deliveries, delivery.token.tag = delivery.lexicalTag outer

variable {outer : Option String}

/-- Nothing was run. -/
theorem Scoped.refl (session : Session (Observed σ)) : Scoped outer session session [] :=
  ⟨rfl, rfl, rfl, by simp, by simp⟩

/-- One run after another. -/
theorem Scoped.trans {session middle left : Session (Observed σ)} {first second : List Delivery}
    (h : Scoped outer session middle first) (h' : Scoped outer middle left second) :
    Scoped outer session left (first ++ second) where
  tag := h'.tag.trans h.tag
  scope := h'.scope.trans h.scope
  openNames := h'.openNames.trans h.openNames
  handovers := by rw [h'.handovers, h.handovers, List.map_append, List.append_assoc]
  tagged := by
    intro delivery hdelivery
    rcases List.mem_append.mp hdelivery with hfirst | hsecond
    · exact h.tagged delivery hfirst
    · exact h'.tagged delivery hsecond

variable [TokenSink σ]

/-- A step without a scope of its own hands over its tokens under the active tag. -/
theorem scoped_plain (around : List String) (step : Step) (hplain : ¬ step.IsScope)
    (session : Session (Observed σ))
    (htag : session.journal.tag.getD "" = around.head?.getD (outer.getD "")) :
    Scoped outer session (step.run session).2 (deliveries around step session) := by
  have hstart : session.Within session.journal.tag session.lists session.sink.handovers :=
    ⟨rfl, rfl, rfl, [], (List.append_nil _).symm, by simp⟩
  obtain ⟨-, -, hran⟩ := (Session.lockstep_within _ _ _).runPlain step hplain ⟨rfl, hstart⟩
  obtain ⟨more, hmore, htagged⟩ := hran.handovers
  have hdeliveries : deliveries around step session =
      more.map fun handover => ⟨around, handover.token⟩ := by
    have hdropped : deliveries around step session =
        ((step.run session).2.sink.handovers.drop session.sink.handovers.length).map
          fun handover => ⟨around, handover.token⟩ := by
      cases step <;> first | exact absurd trivial hplain | rfl
    rw [hdropped, hmore, List.drop_left]
  rw [hdeliveries]
  refine ⟨hran.tag, hran.scope, hran.openNames, ?_, fun delivery hdelivery => ?_⟩
  · simp [hmore, Function.comp_def]
  · obtain ⟨handover, hhandover, rfl⟩ := List.mem_map.mp hdelivery
    rw [htagged handover hhandover, htag, Delivery.lexicalTag]

mutual

/-- Scoping is lexical in every step, also in one that fails. -/
theorem scoped_run (around : List String) : (step : Step) → (session : Session (Observed σ)) →
    session.journal.tag.getD "" = around.head?.getD (outer.getD "") →
    Scoped outer session (step.run session).2 (deliveries around step session)
  | .tag name steps, session, _ => by
    have hnested := scoped_runAll (name :: around) steps
      { session with journal := { session.journal with tag := some name } } rfl
    rw [run, deliveries]
    exact ⟨rfl, hnested.scope, hnested.openNames, hnested.handovers, hnested.tagged⟩
  | .list names steps, session, htag => by
    rw [run, deliveries, Session.underLists]
    rcases session.lists.openScope_cases names with ⟨fault, hfault⟩ | ⟨lists, hopened, hopens⟩
    · rw [hfault]
      exact ⟨rfl, rfl, rfl, by simp [Session.abort], by simp⟩
    · rw [hopened]
      have hnested := scoped_runAll around steps { session with lists } htag
      -- A scope is only opened where none was open, and closing it leaves none.
      have hclosed := hopens.scope_eq_none
      exact ⟨hnested.tag, hclosed.symm, (NamedLists.openNames_of_scope_none rfl).trans
        (NamedLists.openNames_of_scope_none hclosed).symm, hnested.handovers, hnested.tagged⟩
  | .declare part body, session, htag => scoped_plain around (.declare part body) id session htag
  | .joiner tokens, session, htag => scoped_plain around (.joiner tokens) id session htag
  | .nonJoiner tokens, session, htag => scoped_plain around (.nonJoiner tokens) id session htag
  | .period value, session, htag => scoped_plain around (.period value) id session htag
  | .generateCompounds, session, htag => scoped_plain around .generateCompounds id session htag
  | .stemRules tokens, session, htag => scoped_plain around (.stemRules tokens) id session htag
  | .stemExceptions tokens, session, htag =>
    scoped_plain around (.stemExceptions tokens) id session htag
  | .inferDeadConsonants enabled, session, htag =>
    scoped_plain around (.inferDeadConsonants enabled) id session htag
  | .ignoreDuplicates enabled, session, htag =>
    scoped_plain around (.ignoreDuplicates enabled) id session htag

/-- Scoping is lexical in all steps, up to one that fails. -/
theorem scoped_runAll (around : List String) : (steps : List Step) →
    (session : Session (Observed σ)) →
    session.journal.tag.getD "" = around.head?.getD (outer.getD "") →
    Scoped outer session (runAll steps session).2 (deliveriesOfAll around steps session)
  | [], session, _ => by
    rw [runAll, deliveriesOfAll]
    exact .refl session
  | step :: rest, session, htag => by
    have hfirst := scoped_run around step session htag
    rw [runAll, deliveriesOfAll]
    generalize step.run session = outcome at hfirst ⊢
    obtain ⟨failure | ⟨⟩, left⟩ := outcome
    · simpa using hfirst
    · have hleft : left.journal.tag.getD "" = around.head?.getD (outer.getD "") := by
        rw [hfirst.tag, htag]
      exact hfirst.trans (scoped_runAll around rest left hleft)

end

/-- Tags and list scopes are lexical. Take any step, with all the steps nested in it, and run it on
any session. Whether it fails or not, the active tag and the open list scope are what they were, and
so are the names that the scope is over.
Observing the sink makes no difference to the run, and shows all tokens that it was handed: these
are the deliveries of the step, and each carries the name of the innermost tag step around the step
that it comes from, or the tag that was active before if there is no tag step around. -/
theorem run_lexically_scoped (step : Step) (session : Session σ) :
    let observed : Session (Observed σ) := { session with sink := { sink := session.sink } }
    let left := (step.run session).2
    let delivered := step.deliveries [] observed
    left.journal.tag = session.journal.tag ∧ left.lists.scope = session.lists.scope ∧
      left.lists.openNames = session.lists.openNames ∧
      step.run session = Session.forgetIn (step.run observed) ∧
      (step.run observed).2.sink.handovers.map Handover.token = delivered.map Delivery.token ∧
      ∀ delivery ∈ delivered, delivery.token.tag = delivery.lexicalTag session.journal.tag := by
  intro observed left delivered
  have hscoped : Scoped session.journal.tag observed (step.run observed).2 delivered :=
    scoped_run [] step observed rfl
  have hforget : step.run session = Session.forgetIn (step.run observed) :=
    run_forget step observed
  have hleft : left = (step.run observed).2.forget := congrArg Prod.snd hforget
  refine ⟨?_, ?_, ?_, hforget, ?_, hscoped.tagged⟩
  · rw [hleft]
    exact hscoped.tag
  · rw [hleft]
    exact hscoped.scope
  · rw [hleft]
    exact hscoped.openNames
  · simpa [observed] using hscoped.handovers

/-- A list scope that is opened in another one fails, so that the last vowel is not reached. -/
example :
    let vowel (pattern : String) : Step :=
      .declare .vowels { tokens := some (.map [(.str pattern, .str "A")]) }
    let step : Step := .tag "outer" [vowel "a",
      .list [.str "l"] [.tag "inner" [vowel "b"], vowel "c", .list [.str "m"] []], vowel "d"]
    (step.deliveries [] (Session.start ({ sink := { } } : Observed TokenStore) { })).map
      (fun delivery => (delivery.token.pattern, delivery.token.tag, delivery.around)) =
        [("a", "outer", ["outer"]), ("b", "inner", ["inner", "outer"]),
          ("c", "outer", ["outer"])] := by
  decide +kernel

end Step

end TranslitScheme
