import TranslitScheme.CommandLine.Run
import TranslitScheme.Files.Tree

/-!
# What commands do to a tree of files

An action takes a tree of files to a result and another tree. Actions only ever print, and never
look at what was printed, so that the outcome of an action is the same at every place of a run. This
is what lets the outcome of a command be taken apart into those of its actions.
-/

namespace TranslitScheme.CommandLine

namespace Action

variable {α β : Type}

/-- What an action comes to on a tree of files, and the tree that it leaves. -/
def outcome (action : Action (StateM FileTree) α) (tree : FileTree) :
    Except Failure α × FileTree :=
  let ended := (action.run.run { }).run tree
  (ended.1.1, ended.2)

/-- Whatever was printed before an action, its outcome is the same. -/
def Unheard (action : Action (StateM FileTree) α) : Prop :=
  ∀ terminal tree,
    let ended := (action.run.run terminal).run tree
    (ended.1.1, ended.2) = action.outcome tree

/-- A value does not depend on what was printed. -/
theorem unheard_pure (value : α) : Unheard (pure value) := fun _ _ => rfl

/-- A failure does not depend on what was printed. -/
theorem unheard_throw (failure : Failure) :
    Unheard (throw failure : Action (StateM FileTree) α) := fun _ _ => rfl

/-- What is done to files does not depend on what was printed. -/
theorem unheard_lift (operation : StateM FileTree α) :
    Unheard (ExceptT.lift (StateT.lift operation)) := fun _ _ => rfl

/-- Printing does not depend on what was printed. -/
theorem unheard_modify (change : Terminal → Terminal) :
    Unheard (modify change : Action (StateM FileTree) Unit) := fun _ _ => rfl

variable {action : Action (StateM FileTree) α} {next : α → Action (StateM FileTree) β}

/-- Two actions run one after the other, if the first does not fail. -/
theorem run_bind (terminal : Terminal) (tree : FileTree) :
    ((action >>= next).run.run terminal).run tree =
      match (action.run.run terminal).run tree with
      | ((.ok value, printed), left) => ((next value).run.run printed).run left
      | ((.error failure, printed), left) => ((.error failure, printed), left) := by
  rw [ExceptT.run_bind, StateT.run_bind, StateT.run_bind]
  rcases (action.run.run terminal).run tree with ⟨⟨failure | value, printed⟩, left⟩ <;> rfl

/-- The outcome of two actions, one after the other. -/
theorem outcome_bind (hnext : ∀ value, (next value).Unheard) (tree : FileTree) :
    (action >>= next).outcome tree =
      match action.outcome tree with
      | (.ok value, left) => (next value).outcome left
      | (.error failure, left) => (.error failure, left) := by
  unfold outcome
  rw [run_bind]
  rcases (action.run.run { }).run tree with ⟨⟨failure | value, printed⟩, left⟩
  · rfl
  · exact hnext value printed left

/-- Two actions do not depend on what was printed if neither does. -/
theorem unheard_bind (haction : action.Unheard) (hnext : ∀ value, (next value).Unheard) :
    (action >>= next).Unheard := by
  intro terminal tree
  rw [outcome_bind hnext, ← haction terminal tree, run_bind]
  rcases (action.run.run terminal).run tree with ⟨⟨failure | value, printed⟩, left⟩
  · rfl
  · exact hnext value printed left

/-- An action that does not fail hands on a given value. -/
def Returns (action : Action (StateM FileTree) α) (value : α) : Prop :=
  ∀ terminal tree,
    let ended := (action.run.run terminal).run tree
    ∀ result, ended.1.1 = .ok result → result = value

/-- A value is handed on. -/
theorem returns_pure (value : α) : Returns (pure value) value :=
  fun _ _ _ h => (Except.ok.inj h).symm

/-- Two actions hand on what the second one does. -/
theorem returns_bind {value : β} (hnext : ∀ first, (next first).Returns value) :
    (action >>= next).Returns value := by
  intro terminal tree ended result h
  change (((action >>= next).run.run terminal).run tree).1.1 = .ok result at h
  rw [run_bind] at h
  generalize (action.run.run terminal).run tree = middle at h
  obtain ⟨⟨failure | first, printed⟩, left⟩ := middle
  · contradiction
  · exact hnext first printed left result h

/-- What two actions come to, the second makes of what the first came to. -/
theorem exists_outcome_of_bind (hnext : ∀ value, (next value).Unheard) {tree left : FileTree}
    {result : β} (h : (action >>= next).outcome tree = (.ok result, left)) :
    ∃ value middle, action.outcome tree = (.ok value, middle) ∧
      (next value).outcome middle = (.ok result, left) := by
  rw [outcome_bind hnext] at h
  rcases hfirst : action.outcome tree with ⟨failure | value, middle⟩
  · rw [hfirst] at h
    cases congrArg Prod.fst h
  · rw [hfirst] at h
    exact ⟨value, middle, rfl, h⟩

end Action

open TranslitScheme.CommandLine.Action

/-- Printing lines does not depend on what was printed. -/
theorem unheard_say (texts : List String) :
    (say texts : Action (StateM FileTree) Unit).Unheard :=
  unheard_modify _

/-- Printing lines leaves the files alone. -/
theorem outcome_say (texts : List String) (tree : FileTree) :
    (say texts : Action (StateM FileTree) Unit).outcome tree = (.ok (), tree) := rfl

/-- Reading a file does not depend on what was printed. -/
theorem unheard_readText (path : String) :
    (FileSystem.readText path : Action (StateM FileTree) (Except FileError String)).Unheard :=
  unheard_lift _

/-- Reading a file leaves it as it is. -/
theorem outcome_readText (path : String) (tree : FileTree) :
    (FileSystem.readText path : Action (StateM FileTree) (Except FileError String)).outcome tree =
      (.ok (tree.readText path), tree) := rfl

/-- Warning does not depend on what was printed. -/
theorem unheard_warn (texts : List String) :
    (warn texts : Action (StateM FileTree) Unit).Unheard :=
  unheard_modify _

/-- A note leaves the files alone. -/
theorem outcome_note (verbose : Bool) (text : String) (tree : FileTree) :
    (note verbose text : Action (StateM FileTree) Unit).outcome tree = (.ok (), tree) := by
  cases verbose <;> rfl

/-- A note does not depend on what was printed. -/
theorem unheard_note (verbose : Bool) (text : String) :
    (note verbose text : Action (StateM FileTree) Unit).Unheard := by
  cases verbose with
  | false => exact unheard_pure ()
  | true => exact unheard_warn _

/-- Failing with causes does not depend on what was printed. -/
theorem unheard_orFail {α ε : Type} (result : Except ε α) (message : String)
    (causes : ε → List String) :
    (orFail result message causes : Action (StateM FileTree) α).Unheard := by
  cases result with
  | ok value => exact unheard_pure value
  | error failure => exact unheard_throw _

section Directories

open FileSystem

/-- Accepting a directory that exists does not depend on what was printed. -/
theorem unheard_acceptExisting (path : String) (made : Except FileError Unit) :
    (acceptExisting path made : Action (StateM FileTree) (Except FileError Unit)).Unheard := by
  cases made with
  | ok made => exact unheard_pure _
  | error failure =>
    refine unheard_bind (unheard_lift _) fun found => ?_
    split <;> exact unheard_pure _

/-- Making directories does not depend on what was printed. -/
theorem unheard_createDirectoriesUpTo (bound : Nat) (path : String) :
    (createDirectoriesUpTo bound path :
      Action (StateM FileTree) (Except FileError Unit)).Unheard := by
  induction bound generalizing path with
  | zero => exact unheard_bind (unheard_lift _) fun made => unheard_acceptExisting path made
  | succ bound ih =>
    rw [createDirectoriesUpTo]
    split
    · exact unheard_pure _
    · refine unheard_bind (unheard_lift _) fun made => ?_
      split
      · split
        · exact unheard_pure _
        · refine unheard_bind (ih _) fun above => ?_
          split
          · exact unheard_pure _
          · exact unheard_bind (unheard_lift _) fun made => unheard_acceptExisting path made
      · exact unheard_acceptExisting path _

end Directories

/-- Writing a table does not depend on what was printed. -/
theorem unheard_writeTable (target : String) (table : Table) :
    (writeTable target table : Action (StateM FileTree) Unit).Unheard := by
  have hwrite : (do
      orFail ((← FileSystem.writeText target table.text).mapError TableError.io)
        ("Failed to write table " ++ target) tableCauses :
      Action (StateM FileTree) Unit).Unheard :=
    unheard_bind (unheard_lift _) fun written => unheard_orFail _ _ _
  unfold writeTable
  dsimp only
  split
  · refine unheard_bind (unheard_createDirectoriesUpTo _ _) fun made => ?_
    exact unheard_bind (unheard_orFail _ _ _) fun _ => hwrite
  · exact hwrite

/-- Writing a report does not depend on what was printed. -/
theorem unheard_writeReport (path : Option String) (text what : String) (verbose : Bool) :
    (writeReport path text what verbose : Action (StateM FileTree) Unit).Unheard := by
  cases path with
  | none => exact unheard_pure ()
  | some path =>
    refine unheard_bind (unheard_lift _) fun written => ?_
    exact unheard_bind (unheard_orFail _ _ _) fun _ => unheard_note _ _

/-- Looking for files does not depend on what was printed. -/
theorem unheard_findFiles (path suffix : String) :
    (findFiles path suffix : Action (StateM FileTree) (List String)).Unheard := by
  refine unheard_bind (unheard_lift _) fun found => ?_
  split
  · exact unheard_pure _
  · refine unheard_bind (unheard_lift _) fun found => ?_
    split
    · exact unheard_bind (unheard_lift _) fun files => unheard_pure _
    · exact unheard_throw _

/-- What is done with a compilation: what it found is printed, and its table is written unless it
was aborted. -/
def deliver (source target : String) (verbose : Bool) (compiled : Compilation TokenStore) :
    Action (StateM FileTree) Report := do
  say (compiled.report.diagnostics.flatMap diagnosticLines)
  if compiled.aborted then warn ["Aborted, nothing written for " ++ source]
  else
    writeTable target compiled.sink.toTable
    note verbose ("Wrote " ++ toString compiled.sink.flushed.length ++ " tokens to " ++ target)
  say ["Completed with '" ++ toString compiled.report.summary.warnings ++
    "' warning(s) and '" ++ toString compiled.report.summary.errors ++ "' error(s)"]
  return compiled.report

/-- What is done with a compilation does not depend on what was printed. -/
theorem unheard_deliver (source target : String) (verbose : Bool)
    (compiled : Compilation TokenStore) : (deliver source target verbose compiled).Unheard := by
  have hclose (texts : List String) := unheard_bind (unheard_say texts)
    fun _ => unheard_pure compiled.report
  refine unheard_bind (unheard_say _) fun _ => ?_
  split
  · exact unheard_bind (unheard_warn _) fun _ => hclose _
  · refine unheard_bind (unheard_writeTable _ _) fun _ => ?_
    exact unheard_bind (unheard_note _ _) fun _ => hclose _

/-- A compilation that is delivered hands on its report. -/
theorem returns_deliver (source target : String) (verbose : Bool)
    (compiled : Compilation TokenStore) :
    (deliver source target verbose compiled).Returns compiled.report := by
  refine returns_bind fun _ => ?_
  split
  · exact returns_bind fun _ => returns_bind fun _ => returns_pure _
  · exact returns_bind fun _ => returns_bind fun _ => returns_bind fun _ => returns_pure _

/-- An aborted compilation leaves the files alone and its report behind. -/
theorem outcome_deliver_of_aborted (source target : String) (verbose : Bool)
    {compiled : Compilation TokenStore} (h : compiled.aborted = true) (tree : FileTree) :
    (deliver source target verbose compiled).outcome tree = (.ok compiled.report, tree) := by
  obtain ⟨report, sink, aborted⟩ := compiled
  obtain rfl : aborted = true := h
  rfl

/-- What is done with the merged report: it is written where it is wanted, and its summary is
printed. -/
def announce (report markdown : Option String) (verbose : Bool) (merged : Report) :
    Action (StateM FileTree) Bool := do
  writeReport report merged.text "report" verbose
  writeReport markdown merged.markdown "markdown report" verbose
  say (summaryLines merged)
  return merged.hasErrors

/-- What is done with the merged report does not depend on what was printed. -/
theorem unheard_announce (report markdown : Option String) (verbose : Bool) (merged : Report) :
    (announce report markdown verbose merged).Unheard := by
  refine unheard_bind (unheard_writeReport _ _ _ _) fun _ => ?_
  refine unheard_bind (unheard_writeReport _ _ _ _) fun _ => ?_
  exact unheard_bind (unheard_say _) fun _ => unheard_pure _

/-- Announcing a report tells whether it has errors. -/
theorem returns_announce (report markdown : Option String) (verbose : Bool) (merged : Report) :
    (announce report markdown verbose merged).Returns merged.hasErrors := by
  unfold announce
  exact returns_bind fun _ => returns_bind fun _ => returns_bind fun _ => returns_pure _

section Compiling

variable (settings : Settings) (outputDir : Option String) (verbose : Bool) (now : String)

/-- A scheme is read, compiled and delivered. -/
theorem compileScheme_eq (source : String) :
    compileScheme settings source outputDir verbose now =
      say ["Compiling " ++ source, "Building " ++ tablePath source outputDir] >>= fun _ =>
        FileSystem.readText source >>= fun contents =>
          deliver source (tablePath source outputDir) verbose
            (Compilation.ofFile source contents ({ } : TokenStore) settings now) := rfl

/-- Compiling a scheme does not depend on what was printed. -/
theorem unheard_compileScheme (source : String) :
    (compileScheme settings source outputDir verbose now :
      Action (StateM FileTree) Report).Unheard := by
  rw [compileScheme_eq]
  refine unheard_bind (unheard_say _) fun _ => ?_
  exact unheard_bind (unheard_readText source) fun contents => unheard_deliver _ _ _ _

/-- What compiling a scheme comes to, with what the tree has of the scheme. -/
theorem outcome_compileScheme (source : String) (tree : FileTree) :
    (compileScheme settings source outputDir verbose now).outcome tree =
      (deliver source (tablePath source outputDir) verbose
        (Compilation.ofFile source (tree.readText source) ({ } : TokenStore) settings
          now)).outcome tree := by
  have hdeliver (contents : Except FileError String) :=
    unheard_deliver source (tablePath source outputDir) verbose
      (Compilation.ofFile source contents ({ } : TokenStore) settings now)
  have hread := unheard_bind (unheard_readText source) hdeliver
  rw [compileScheme_eq, outcome_bind fun _ => hread, outcome_say]
  dsimp only
  rw [outcome_bind hdeliver, outcome_readText]

/-- Compiling schemes does not depend on what was printed. -/
theorem unheard_compileSchemes (sources : List String) (report : Report) :
    (compileSchemes settings outputDir verbose now sources report :
      Action (StateM FileTree) Report).Unheard := by
  induction sources generalizing report with
  | nil => exact unheard_pure report
  | cons source rest ih =>
    exact unheard_bind (unheard_compileScheme settings outputDir verbose now source)
      fun compiled => ih _

/-- What is done with the sources that are found. -/
def compileFound (report markdown : Option String) (sources : List String) :
    Action (StateM FileTree) Bool := do
  note verbose ("Found " ++ toString sources.length ++ " scheme(s)")
  let merged ← compileSchemes settings (outputDir.orElse fun _ => settings.outputPath?) verbose now
    sources (Report.empty now)
  announce report markdown verbose merged

/-- Sources are looked for and compiled, if there are any. -/
theorem compileCommand_eq (path : String) (report markdown : Option String) :
    compileCommand settings path outputDir report markdown verbose now =
      findFiles path schemeSuffix >>= fun sources =>
        if sources.isEmpty then
          throw { message := "No " ++ schemeSuffix ++ " files found under " ++ path }
        else compileFound settings outputDir verbose now report markdown sources := rfl

/-- Compiling what is found does not depend on what was printed. -/
theorem unheard_compileFound (report markdown : Option String) (sources : List String) :
    (compileFound settings outputDir verbose now report markdown sources).Unheard := by
  refine unheard_bind (unheard_note _ _) fun _ => ?_
  exact unheard_bind (unheard_compileSchemes _ _ _ _ _ _) fun merged => unheard_announce _ _ _ _

/-- Compiling what is found, if it is anything, does not depend on what was printed. -/
theorem unheard_compileAny (path : String) (report markdown : Option String)
    (sources : List String) :
    (if sources.isEmpty then
      throw { message := "No " ++ schemeSuffix ++ " files found under " ++ path }
    else compileFound settings outputDir verbose now report markdown sources).Unheard := by
  split
  · exact unheard_throw _
  · exact unheard_compileFound _ _ _ _ _ _ _

/-- A command that compiles does not depend on what was printed. -/
theorem unheard_compileCommand (path : String) (report markdown : Option String) :
    (compileCommand settings path outputDir report markdown verbose now :
      Action (StateM FileTree) Bool).Unheard := by
  rw [compileCommand_eq]
  exact unheard_bind (unheard_findFiles _ _)
    (unheard_compileAny settings outputDir verbose now path report markdown)

end Compiling

end TranslitScheme.CommandLine
