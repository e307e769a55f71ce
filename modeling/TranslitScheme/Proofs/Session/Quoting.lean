import TranslitScheme.Proofs.Session.Defaults
import TranslitScheme.Proofs.Session.Operation
import TranslitScheme.Proofs.Session.Stemming

/-!
# What operations quote

The text that the journal quotes is set while a pair is read or a token is refused, and it is unset
again before the operation ends. So an operation that begins while nothing is quoted records each of
its findings under the text of what it is about, and ends while nothing is quoted, also if it fails.

`Operation.told` says what an operation records, as a function of the session in which it begins
that takes no notice of the quoted text: the remarks on the pairs of mappings, on tokens and on
pairs of endings, and those about nothing, which are faults and failures of the sink.
-/

namespace TranslitScheme

namespace Session

variable {σ : Type}

/-- The diagnostics that remarks become in a session. -/
def relate (session : Session σ) (remarks : List Remark) : List Diagnostic :=
  remarks.map session.journal.about

/-- Nothing is quoted before and after, and diagnostics are recorded in between. -/
structure Records (session : Session σ) (told : List Diagnostic) (left : Session σ) : Prop where
  quiet : left.journal.expression = none
  entries : left.journal.entries = session.journal.entries ++ told

variable {session middle left : Session σ}

/-- Remarks are told, if nothing was quoted before. -/
theorem Records.of_tell (h : session.journal.expression = none) {remarks : List Remark}
    (hleft : left.journal = session.journal.tell remarks) :
    session.Records (session.relate remarks) left := by
  constructor
  · rw [hleft]
    exact h
  · rw [hleft]
    rfl

/-- What is told in two parts. -/
theorem Records.trans {told others : List Diagnostic} (h : session.Records told middle)
    (h' : middle.Records others left) : session.Records (told ++ others) left where
  quiet := h'.quiet
  entries := by rw [h'.entries, h.entries, List.append_assoc]

/-- Nothing is told. -/
theorem Records.nothing (h : session.journal.expression = none)
    (hentries : left.journal.entries = session.journal.entries)
    (hexpression : left.journal.expression = session.journal.expression) :
    session.Records [] left :=
  ⟨hexpression.trans h, hentries.trans (List.append_nil _).symm⟩

/-! ### Single operations -/

/-- The remark on what the sink was asked, if it fails. -/
def refusalRemarks {α : Type} (code : DiagnosticCode) : Except SinkError α → List Remark
  | .ok _ => []
  | .error refusal => [⟨.nothing, ⟨code, .error, refusal.message⟩⟩]

/-- A failure of the sink is recorded as a remark about nothing. -/
theorem tell_refusalRemarks {journal : Journal} (h : journal.expression = none) {α : Type}
    (code : DiagnosticCode) (outcome : Except SinkError α) :
    journal.tell (refusalRemarks code outcome) =
      match outcome with
      | .ok _ => journal
      | .error refusal => journal.error code refusal.message := by
  cases outcome with
  | ok value => exact journal.tell_nil
  | error refusal => exact (Journal.record_eq_tell h _).symm

/-- A fault is told as a remark about nothing. -/
theorem abort_tells {α : Type} (session : Session σ) (h : session.journal.expression = none)
    (fault : Fault) :
    (session.abort (α := α) fault).2.journal = session.journal.tell [.ofFault fault] :=
  Journal.record_eq_tell h fault.finding

/-- The remark on asking for the first virama, if there is none. -/
def viramaRemarks (session : Session σ) : List Remark :=
  match session.tokens .virama .all with
  | [] => [.ofFault .viramaNotSet]
  | _ => []

/-- Asking for the first virama tells that there is none. -/
theorem virama_tells (session : Session σ) (h : session.journal.expression = none) :
    session.virama.2.journal = session.journal.tell session.viramaRemarks := by
  unfold virama viramaRemarks
  cases session.tokens .virama .all with
  | nil => exact session.abort_tells h .viramaNotSet
  | cons token rest => exact (Journal.tell_nil _).symm

/-- The remark on asking for a list, if there is none of that name. -/
def listRemarks (session : Session σ) (name : String) : List Remark :=
  match session.lists.get? name with
  | some _ => []
  | none => [.ofFault (.unknownList name)]

/-- Asking for a list tells that there is none. -/
theorem customList_tells (session : Session σ) (h : session.journal.expression = none)
    (name : String) :
    (session.customList name).2.journal = session.journal.tell (session.listRemarks name) := by
  unfold customList listRemarks
  cases session.lists.get? name with
  | none => exact session.abort_tells h (.unknownList name)
  | some list => exact (Journal.tell_nil _).symm

/-- The remarks on a mapping of endings, as it is read and handed to an operation of the sink. -/
def endingRemarks (session : Session σ)
    (create : σ → String × String → Except SinkError Unit × σ) (what : String) (value : Value) :
    List Remark :=
  value.remarks ++
    match value.mapping? with
    | some mapping => (pairRemarks create what session.sink mapping).1
    | none => []

/-- Pairs of endings are remarked on. -/
theorem createPairs_tells (session : Session σ) (h : session.journal.expression = none)
    (value : Value)
    (create : σ → String × String → Except SinkError Unit × σ) (what : String) :
    (session.createPairs value create what).2.journal =
      session.journal.tell (session.endingRemarks create what value) := by
  have hread := value.toMapping_eq_tell h
  cases value with
  | map pairs =>
    rw [createPairs_map, hread]
    exact session.journal.tell_tell _ _
  | _ =>
    rw [createPairs, hread]
    exact congrArg session.journal.tell (List.append_nil _).symm

variable [TokenSink σ]

/-- The remarks on the tokens of a mapping that was read, or on the options that they are built
with. -/
def declareRemarks (session : Session σ) (category : Category) (options : TokenOptions)
    (mapping : Mapping) : List Remark :=
  match Priority.ofSetting options.priority with
  | .error fault => [.ofFault fault]
  | .ok priority =>
    match Acceptance.ofSetting options.acceptIf with
    | .error fault => [.ofFault fault]
    | .ok acceptance => session.tokenRemarks (mappingTokens category mapping priority acceptance)

/-- The remarks on a declaration: on what is read, and then on what is built. -/
def buildRemarks (session : Session σ) (category : Category) (options : TokenOptions)
    (value : Value) : List Remark :=
  value.remarks ++
    match value.mapping? with
    | some mapping => session.declareRemarks category options mapping
    | none => []

/-- A declaration is remarked on. -/
theorem build_tells (session : Session σ) (h : session.journal.expression = none)
    (category : Category)
    (options : TokenOptions) (value : Value) :
    (session.build category options value).2.journal =
      session.journal.tell (session.buildRemarks category options value) := by
  let read : Session σ := { session with journal := session.journal.tell value.remarks }
  have hquiet : read.journal.expression = none := h
  have hfault (fault : Fault) : (read.abort (α := Unit) fault).2.journal =
      session.journal.tell (value.remarks ++ [.ofFault fault]) := by
    rw [read.abort_tells hquiet]
    exact session.journal.tell_tell _ _
  unfold build buildRemarks
  rw [value.toMapping_eq_tell h]
  cases value.mapping? with
  | none => exact congrArg session.journal.tell (List.append_nil _).symm
  | some mapping =>
    unfold declareRemarks
    dsimp only
    cases Priority.ofSetting options.priority with
    | error fault => exact hfault fault
    | ok priority =>
      cases Acceptance.ofSetting options.acceptIf with
      | error fault => exact hfault fault
      | ok acceptance =>
        exact (submitAll_tells read _).trans (session.journal.tell_tell _ _)

/-- The remarks on asking for the tokens of a source. -/
def sourceRemarks (session : Session σ) : TokenSource → List Remark
  | .category .deadConsonant =>
    refusalRemarks .sinkFailure (TokenSink.tokensOf session.sink .deadConsonant)
  | .category _ => []
  | .list name => session.listRemarks name

/-- Reading dead consonants back tells that the sink fails. -/
theorem refreshDeadConsonants_tells (session : Session σ) (h : session.journal.expression = none) :
    session.refreshDeadConsonants.journal = session.journal.tell
      (refusalRemarks .sinkFailure (TokenSink.tokensOf session.sink .deadConsonant)) := by
  rw [tell_refusalRemarks h, refreshDeadConsonants]
  cases TokenSink.tokensOf session.sink .deadConsonant <;> rfl

/-- Asking for the tokens of a source is remarked on. -/
theorem sourceTokens_tells (session : Session σ) (h : session.journal.expression = none)
    (source : TokenSource) :
    (session.sourceTokens source).2.journal =
      session.journal.tell (session.sourceRemarks source) := by
  cases source with
  | list name => exact session.customList_tells h name
  | category category =>
    cases category with
    | deadConsonant => exact session.refreshDeadConsonants_tells h
    | _ => exact (Journal.tell_nil _).symm

/-- The remarks on expanding a template: on what is read, and then on its source. -/
def combineRemarks (session : Session σ) (source : TokenSource) (template : Value) : List Remark :=
  template.remarks ++ if template.mapping?.isSome then session.sourceRemarks source else []

/-- Expanding a template is remarked on. -/
theorem combine_tells (session : Session σ) (h : session.journal.expression = none)
    (source : TokenSource)
    (filter : TokenFilter) (template : Value) :
    (session.combine source filter template).2.journal =
      session.journal.tell (session.combineRemarks source template) := by
  let read : Session σ := { session with journal := session.journal.tell template.remarks }
  have hsource : (read.sourceTokens source).2.journal =
      session.journal.tell (template.remarks ++ session.sourceRemarks source) :=
    (read.sourceTokens_tells h source).trans (session.journal.tell_tell _ _)
  unfold combine combineRemarks
  rw [template.toMapping_eq_tell h]
  cases template.mapping? with
  | none => exact congrArg session.journal.tell (List.append_nil _).symm
  | some mapping =>
    rw [Option.isSome_some, if_pos rfl, ← hsource]
    dsimp only
    rcases read.sourceTokens source with ⟨fault | tokens, asked⟩ <;> rfl

/-- Setting a switch tells that the sink refuses. -/
theorem configure_tells (session : Session σ) (h : session.journal.expression = none)
    (option : SinkOption) :
    (session.configure option).journal = session.journal.tell
      (refusalRemarks .sinkRejected (TokenSink.configure session.sink option).1) := by
  rw [tell_refusalRemarks h, configure]
  rcases TokenSink.configure session.sink option with ⟨refusal | ⟨⟩, sink⟩ <;> rfl

/-! ### Finishing -/

/-- Flushing tells that the sink fails. -/
theorem flush_tells (session : Session σ) (h : session.journal.expression = none) :
    session.flush.journal = session.journal.tell
      (refusalRemarks .sinkFailure (TokenSink.flush session.sink).1) := by
  rw [tell_refusalRemarks h, flush]
  rcases TokenSink.flush session.sink with ⟨refusal | ⟨⟩, sink⟩ <;> rfl

/-- Storing the details tells that the sink refuses them. -/
theorem storeDetails_tells (session : Session σ) (h : session.journal.expression = none)
    (now : String) :
    (session.storeDetails now).journal = session.journal.tell
      (refusalRemarks .sinkFailure (TokenSink.setDetails session.sink
        { session.details with compiledDate := now }).1) := by
  rw [tell_refusalRemarks h, storeDetails]
  rcases TokenSink.setDetails session.sink { session.details with compiledDate := now } with
    ⟨refusal | ⟨⟩, sink⟩ <;> rfl

/-- The remarks on finishing: on the default symbols, on flushing and on the details. -/
def finishRemarks (session : Session σ) (now : String) : List Remark :=
  let injected := session.injectDefaults
  let flushed := injected.flush
  session.tokenRemarks session.defaultTokens ++
    (refusalRemarks .sinkFailure (TokenSink.flush injected.sink).1 ++
      refusalRemarks .sinkFailure (TokenSink.setDetails flushed.sink
        { flushed.details with compiledDate := now }).1)

/-- Finishing is remarked on. -/
theorem finish_tells (session : Session σ) (h : session.journal.expression = none) (now : String) :
    (session.finish now).journal = session.journal.tell (session.finishRemarks now) := by
  have hinjected : session.injectDefaults.journal =
      session.journal.tell (session.tokenRemarks session.defaultTokens) := by
    rw [injectDefaults_eq, submitAll_tells]
  have hquiet : session.injectDefaults.journal.expression = none := by
    rw [hinjected]
    exact h
  have hflushed := session.injectDefaults.flush_tells hquiet
  have hquietToo : session.injectDefaults.flush.journal.expression = none := by
    rw [hflushed]
    exact hquiet
  rw [finish, storeDetails_tells _ hquietToo, hflushed, hinjected, Journal.tell_tell,
    Journal.tell_tell]
  rfl

/-! ### All operations -/

namespace Operation

mutual

/-- What an operation records. -/
def told : Operation → Session σ → List Diagnostic
  | describe _, _ => []
  | locate _, _ => []
  | build category options value, session =>
    session.relate (session.buildRemarks category options value)
  | buildTokens category mapping priority acceptance, session =>
    session.relate (session.tokenRemarks (mappingTokens category mapping priority acceptance))
  | joiner value, session => session.relate (session.buildRemarks .joiner { } value)
  | nonJoiner value, session => session.relate (session.buildRemarks .nonJoiner { } value)
  | period value, session =>
    session.relate (session.buildRemarks .period { } (.map [(.str ".", value)]))
  | virama, session => session.relate session.viramaRemarks
  | customList name, session => session.relate (session.listRemarks name)
  | deadConsonants _, session => session.relate (session.sourceRemarks (.category .deadConsonant))
  | combine source _ template, session => session.relate (session.combineRemarks source template)
  | expand category options source filter template, session =>
    session.relate (session.combineRemarks source template) ++
      match session.combine source filter template with
      | (.ok mapping, asked) => asked.relate (asked.buildRemarks category options mapping.toValue)
      | _ => []
  | generateCompounds, session =>
    session.relate (session.tokenRemarks (Token.compounds (session.tokens .consonant .all)
      (session.tokens .vowel .all) session.settings.inherentVowel))
  | stemRules value, session =>
    session.relate (session.endingRemarks
      (fun sink pair => TokenSink.createStemRule sink ⟨pair.1, pair.2⟩) "stem rule" value)
  | stemExceptions value, session =>
    session.relate (session.endingRemarks
      (fun sink pair => TokenSink.createStemException sink ⟨pair.1, pair.2⟩) "stem exception"
      value)
  | inferDeadConsonants enabled, session =>
    session.relate (refusalRemarks .sinkRejected
      (TokenSink.configure session.sink (.inferDeadConsonants enabled)).1)
  | ignoreDuplicates enabled, session =>
    session.relate (refusalRemarks .sinkRejected
      (TokenSink.configure session.sink (.ignoreDuplicates enabled)).1)
  | tag name body, session =>
    toldAll body { session with journal := { session.journal with tag := some name } }
  | list names body, session =>
    match session.lists.openScope names with
    | (.error fault, _) => session.relate [.ofFault fault]
    | (.ok (), lists) => toldAll body { session with lists }
  | attempt body, session => toldAfter body session
  | finish now, session => session.relate (session.finishRemarks now)

/-- What operations record, up to the first that fails. -/
def toldAll : List Operation → Session σ → List Diagnostic
  | [], _ => []
  | operation :: rest, session =>
    told operation session ++
      match perform operation session with
      | (.ok (), left) => toldAll rest left
      | _ => []

/-- What operations record, whatever their outcomes. -/
def toldAfter : List Operation → Session σ → List Diagnostic
  | [], _ => []
  | operation :: rest, session =>
    told operation session ++ toldAfter rest (perform operation session).2

end

mutual

/-- An operation tells what it records, if nothing is quoted when it begins. -/
theorem records_perform : (operation : Operation) → (session : Session σ) →
    session.journal.expression = none →
    session.Records (told operation session) (perform operation session).2
  | describe header, session, h => by
    rw [perform, header.apply_eq]
    exact .nothing h rfl rfl
  | locate location, session, h => .nothing h rfl rfl
  | build category options value, session, h =>
    .of_tell h (session.build_tells h category options value)
  | buildTokens _ _ _ _, session, h => .of_tell h (session.submitAll_tells _)
  | joiner value, session, h =>
    .of_tell h (build_tells { session with ownJoiner := true } h .joiner { } value)
  | nonJoiner value, session, h =>
    .of_tell h (build_tells { session with ownNonJoiner := true } h .nonJoiner { } value)
  | period value, session, h => .of_tell h (session.build_tells h .period { } _)
  | virama, session, h => .of_tell h (session.virama_tells h)
  | customList name, session, h => .of_tell h (session.customList_tells h name)
  | deadConsonants _, session, h => .of_tell h (session.refreshDeadConsonants_tells h)
  | combine source filter template, session, h =>
    .of_tell h (session.combine_tells h source filter template)
  | expand category options source filter template, session, h => by
    have hasked : session.Records _ (session.combine source filter template).2 :=
      .of_tell h (session.combine_tells h source filter template)
    rw [perform, told]
    generalize session.combine source filter template = asked at hasked ⊢
    obtain ⟨fault | mapping, asked⟩ := asked
    · exact (List.append_nil _).symm ▸ hasked
    · exact hasked.trans
        (.of_tell hasked.quiet (asked.build_tells hasked.quiet category options _))
  | generateCompounds, session, h => .of_tell h (session.submitAll_tells _)
  | stemRules value, session, h => .of_tell h (session.createPairs_tells h value _ _)
  | stemExceptions value, session, h => .of_tell h (session.createPairs_tells h value _ _)
  | inferDeadConsonants enabled, session, h => .of_tell h (session.configure_tells h _)
  | ignoreDuplicates enabled, session, h => .of_tell h (session.configure_tells h _)
  | tag name body, session, h =>
    have hbody := records_performAll body
      { session with journal := { session.journal with tag := some name } } h
    ⟨hbody.quiet, hbody.entries⟩
  | list names body, session, h => by
    rw [perform, underLists, told]
    rcases session.lists.openScope_cases names with ⟨fault, hfault⟩ | ⟨lists, hopened, -⟩
    · rw [hfault]
      exact .of_tell h (session.abort_tells h fault)
    · rw [hopened]
      have hbody := records_performAll body { session with lists } h
      exact ⟨hbody.quiet, hbody.entries⟩
  | attempt body, session, h => records_after body session h
  | finish now, session, h => .of_tell h (session.finish_tells h now)

/-- Operations up to a failure tell what they record. -/
theorem records_performAll : (operations : List Operation) → (session : Session σ) →
    session.journal.expression = none →
    session.Records (toldAll operations session) (performAll operations session).2
  | [], session, h => .nothing h rfl rfl
  | operation :: rest, session, h => by
    have hfirst := records_perform operation session h
    rw [performAll, toldAll]
    generalize perform operation session = outcome at hfirst ⊢
    obtain ⟨fault | ⟨⟩, left⟩ := outcome
    · exact (List.append_nil _).symm ▸ hfirst
    · exact hfirst.trans (records_performAll rest left hfirst.quiet)

/-- Operations with any outcomes tell what they record. -/
theorem records_after : (operations : List Operation) → (session : Session σ) →
    session.journal.expression = none →
    session.Records (toldAfter operations session) (after operations session)
  | [], session, h => .nothing h rfl rfl
  | operation :: rest, session, h => by
    have hfirst := records_perform operation session h
    rw [after, toldAfter]
    exact hfirst.trans (records_after rest _ hfirst.quiet)

end

end Operation

end Session

end TranslitScheme
