import TranslitScheme.Program.Run
import TranslitScheme.Proofs.Session.Move

/-!
# Operations of sessions

Everything that can be asked of a session, as data, so that statements can range over what was
asked before. Scopes hold the operations that run in them, and end with the first of these that
fails. Elsewhere a failure is no reason to stop: `after` goes on with whatever is asked next, and
`attempt` does so within a scope.

`Visits` is about the sessions that such operations come by. They are reached by moves, so that an
invariant of sessions only has to be shown for moves.
-/

namespace TranslitScheme

/-- A header only changes the details, one by one where it states them. -/
theorem Header.apply_eq {σ : Type} (header : Header) (session : Session σ) :
    header.apply session =
      { session with
        details :=
          { session.details with
            languageCode := header.languageCode.getD session.details.languageCode
            identifier := header.identifier.getD session.details.identifier
            displayName := header.displayName.getD session.details.displayName
            author := header.author.getD session.details.author
            isStable := header.stable.getD session.details.isStable } } := by
  obtain ⟨_ | code, _ | identifier, _ | name, _ | author, _ | stable⟩ := header <;> rfl

namespace Session

/-- What can be asked of a session that may change it. -/
inductive Operation where
  | describe (header : Header)
  | locate (location : Option Location)
  | build (category : Category) (options : TokenOptions) (value : Value)
  | buildTokens (category : Category) (mapping : Mapping) (priority : Priority)
    (acceptance : Acceptance)
  | joiner (value : Value)
  | nonJoiner (value : Value)
  | period (value : Value)
  | virama
  | customList (name : String)
  | deadConsonants (filter : TokenFilter)
  | combine (source : TokenSource) (filter : TokenFilter) (template : Value)
  | expand (category : Category) (options : TokenOptions) (source : TokenSource)
    (filter : TokenFilter) (template : Value)
  | generateCompounds
  | stemRules (value : Value)
  | stemExceptions (value : Value)
  | inferDeadConsonants (enabled : Bool)
  | ignoreDuplicates (enabled : Bool)
  | tag (name : String) (body : List Operation)
  | list (names : List Value) (body : List Operation)
  | attempt (body : List Operation)
  | finish (now : String)

namespace Operation

variable {σ : Type}

/-- The outcome of a query, without the answer. -/
def withoutAnswer {α : Type} (outcome : Except Fault α × Session σ) :
    Except Fault Unit × Session σ :=
  (outcome.1.map fun _ => (), outcome.2)

variable [TokenSink σ]

mutual

/-- Carry out an operation. -/
def perform : Operation → Session σ → Except Fault Unit × Session σ
  | describe header, session => (.ok (), header.apply session)
  | locate location, session => (.ok (), session.setLocation location)
  | build category options value, session => session.build category options value
  | buildTokens category mapping priority acceptance, session =>
    (.ok (), (session.buildTokens category mapping priority acceptance).2)
  | joiner value, session => session.joiner value
  | nonJoiner value, session => session.nonJoiner value
  | period value, session => session.period value
  | virama, session => withoutAnswer session.virama
  | customList name, session => withoutAnswer (session.customList name)
  | deadConsonants filter, session => (.ok (), (session.deadConsonants filter).2)
  | combine source filter template, session =>
    withoutAnswer (session.combine source filter template)
  | expand category options source filter template, session =>
    match session.combine source filter template with
    | (.error fault, session) => (.error fault, session)
    | (.ok mapping, session) => session.build category options mapping.toValue
  | generateCompounds, session => (.ok (), session.generateCompounds.2)
  | stemRules value, session => session.stemRules value
  | stemExceptions value, session => session.stemExceptions value
  | inferDeadConsonants enabled, session => (.ok (), session.inferDeadConsonants enabled)
  | ignoreDuplicates enabled, session => (.ok (), session.ignoreDuplicates enabled)
  | tag name body, session => session.underTag name fun session => performAll body session
  | list names body, session => session.underLists names id fun session => performAll body session
  | attempt body, session => (.ok (), after body session)
  | finish now, session => (.ok (), session.finish now)

/-- Carry out operations in order, up to the first that fails. -/
def performAll : List Operation → Session σ → Except Fault Unit × Session σ
  | [], session => (.ok (), session)
  | operation :: rest, session =>
    match perform operation session with
    | (.ok (), session) => performAll rest session
    | failed => failed

/-- The session that is left when operations are carried out in order, whatever their outcomes. -/
def after : List Operation → Session σ → Session σ
  | [], session => session
  | operation :: rest, session => after rest (perform operation session).2

end

mutual

/-- An operation reaches the session that it leaves. -/
theorem reaches_perform : (operation : Operation) → (session : Session σ) →
    session.Reaches (perform operation session).2
  | describe header, session => by
    rw [perform, header.apply_eq]
    exact .single (.inr (.describe session _))
  | locate location, session => (leads_setLocation session location).reaches
  | build category options value, session => (leads_build session category options value).reaches
  | buildTokens _ _ _ _, session => (leads_submitAll session _).reaches
  | joiner value, session => (leads_joiner session value).reaches
  | nonJoiner value, session => (leads_nonJoiner session value).reaches
  | period value, session => (leads_build session .period { } _).reaches
  | virama, session => (leads_virama session).reaches
  | customList name, session => (leads_customList session name).reaches
  | deadConsonants filter, session => .single (.inl (.refresh session))
  | combine source filter template, session =>
    (leads_combine session source filter template).reaches
  | expand category options source filter template, session => by
    have hasked := leads_combine session source filter template
    rw [perform]
    generalize session.combine source filter template = asked at hasked ⊢
    obtain ⟨fault | mapping, asked⟩ := asked
    · exact hasked.reaches
    · exact hasked.reaches.trans (leads_build _ _ _ _).reaches
  | generateCompounds, session => (leads_submitAll session _).reaches
  | stemRules value, session => (leads_stemRules session value).reaches
  | stemExceptions value, session => (leads_stemExceptions session value).reaches
  | inferDeadConsonants enabled, session => .single (.inl (.configure session _))
  | ignoreDuplicates enabled, session => .single (.inl (.configure session _))
  | tag name body, session => by
    obtain ⟨entered, henter, hleave⟩ :=
      underTag_moves session name fun session => performAll body session
    exact .head (.inl henter) ((reaches_performAll body entered).tail (.inl hleave))
  | list names body, session => by
    rcases underLists_moves session names id fun session => performAll body session with
      hrefused | ⟨entered, henter, hleave⟩
    · exact .single (.inl hrefused)
    · exact .head (.inl henter) ((reaches_performAll body entered).tail (.inl hleave))
  | attempt body, session => reaches_after body session
  | finish now, session => reaches_finish session now

/-- Operations up to a failure reach the session that they leave. -/
theorem reaches_performAll : (operations : List Operation) → (session : Session σ) →
    session.Reaches (performAll operations session).2
  | [], session => .refl
  | operation :: rest, session => by
    have hfirst := reaches_perform operation session
    rw [performAll]
    generalize perform operation session = outcome at hfirst ⊢
    obtain ⟨fault | ⟨⟩, session⟩ := outcome
    · exact hfirst
    · exact hfirst.trans (reaches_performAll rest session)

/-- Operations with any outcomes reach the session that they leave. -/
theorem reaches_after : (operations : List Operation) → (session : Session σ) →
    session.Reaches (after operations session)
  | [], session => .refl
  | operation :: rest, session => by
    rw [after]
    exact (reaches_perform operation session).trans (reaches_after rest _)

end

end Operation

/-- The sessions that operations come by: those that are left when an operation ends, and those in
which the operations of a scope find themselves, also while the scope is open. -/
inductive Visits {σ : Type} [TokenSink σ] (start : Session σ) : Session σ → Prop where
  | start : Visits start start
  | perform {session : Session σ} (h : Visits start session) (operation : Operation) :
    Visits start (operation.perform session).2
  | enterTag {session : Session σ} (h : Visits start session) (name : String) :
    Visits start { session with journal := { session.journal with tag := some name } }
  | enterLists {session : Session σ} (h : Visits start session) {names : List Value}
    {lists : NamedLists} (hopen : session.lists.openScope names = (.ok (), lists)) :
    Visits start { session with lists }

variable {σ : Type} [TokenSink σ] {start session : Session σ}

/-- Sessions that operations come by are reached. -/
theorem Visits.reaches (h : start.Visits session) : start.Reaches session := by
  induction h with
  | start => exact .refl
  | perform _ operation ih => exact ih.trans (Operation.reaches_perform operation _)
  | enterTag _ name ih => exact ih.tail (.inl (.note ⟨rfl, List.prefix_rfl⟩))
  | enterLists _ hopen ih => exact ih.tail (.inl (.openLists hopen))

/-- Carrying on with operations leads to another session that operations come by. -/
theorem Visits.after (h : start.Visits session) (operations : List Operation) :
    start.Visits (Operation.after operations session) := by
  induction operations generalizing session with
  | nil => exact h
  | cons operation rest ih => exact ih (h.perform operation)

end Session

end TranslitScheme
