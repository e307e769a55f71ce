import TranslitScheme.Proofs.CommandLine.Action
import TranslitScheme.Proofs.Files.Writing

/-!
# What commands write

Compiling a scheme writes one file at most, its table, and directories on the way to it.
Compiling many schemes writes their tables, and announcing the report writes the files that were
asked for. All other files are left as they were, whether an action fails or not.

An action that does not fail has written what it was to write, and that can be read back.
-/

namespace TranslitScheme.CommandLine

open TranslitScheme.FileTree

namespace Action

variable {α β : Type} {base : Trail} {written : Trail → Prop}

/-- An action writes files at some trails at most, whether it fails or not, when a given directory
is the working directory. -/
def WritesOnly (base : Trail) (written : Trail → Prop) (action : Action (StateM FileTree) α) :
    Prop :=
  ∀ terminal tree, tree.workingDirectory = base →
    Spares written tree ((action.run.run terminal).run tree).2

/-- Handing on a value writes nothing. -/
theorem writesOnly_pure (value : α) : WritesOnly base written (pure value) := fun _ _ _ => .refl _ _

/-- Failing writes nothing. -/
theorem writesOnly_throw (failure : Failure) :
    WritesOnly base written (throw failure : Action (StateM FileTree) α) :=
  fun _ _ _ => .refl _ _

/-- Printing writes nothing. -/
theorem writesOnly_modify (change : Terminal → Terminal) :
    WritesOnly base written (modify change : Action (StateM FileTree) Unit) :=
  fun _ _ _ => .refl _ _

/-- What is done to files is what an operation does. -/
theorem writesOnly_lift {operation : StateM FileTree α}
    (h : ∀ tree, tree.workingDirectory = base → Spares written tree (operation.run tree).2) :
    WritesOnly base written (ExceptT.lift (StateT.lift operation)) := fun _ tree => h tree

/-- Two actions write what either does. -/
theorem writesOnly_bind {action : Action (StateM FileTree) α}
    {next : α → Action (StateM FileTree) β} (haction : WritesOnly base written action)
    (hnext : ∀ value, WritesOnly base written (next value)) :
    WritesOnly base written (action >>= next) := by
  intro terminal tree hbase
  have hfirst := haction terminal tree hbase
  rw [run_bind]
  generalize (action.run.run terminal).run tree = ended at hfirst ⊢
  obtain ⟨⟨failure | value, printed⟩, left⟩ := ended
  · exact hfirst
  · exact hfirst.trans (hnext value printed left (hfirst.workingDirectory.trans hbase))

/-- Some of the files that may be written are. -/
theorem WritesOnly.mono {more : Trail → Prop} {action : Action (StateM FileTree) α}
    (h : WritesOnly base written action) (hmore : ∀ trail, written trail → more trail) :
    WritesOnly base more action :=
  fun terminal tree hbase => (h terminal tree hbase).mono hmore

/-- What is left of a tree by an action that comes to a value. -/
theorem WritesOnly.spares {action : Action (StateM FileTree) α} (h : WritesOnly base written action)
    {tree left : FileTree} {result : Except Failure α} (hbase : tree.workingDirectory = base)
    (houtcome : action.outcome tree = (result, left)) : Spares written tree left := by
  have hleft : (action.outcome tree).2 = left := congrArg Prod.snd houtcome
  rw [← hleft]
  exact h { } tree hbase

end Action

open TranslitScheme.CommandLine.Action

variable {base : Trail} {written : Trail → Prop}

/-- Printing lines writes nothing. -/
theorem writesOnly_say (texts : List String) :
    (say texts : Action (StateM FileTree) Unit).WritesOnly base written :=
  writesOnly_modify _

/-- A warning writes nothing. -/
theorem writesOnly_warn (texts : List String) :
    (warn texts : Action (StateM FileTree) Unit).WritesOnly base written :=
  writesOnly_modify _

/-- A note writes nothing. -/
theorem writesOnly_note (verbose : Bool) (text : String) :
    (note verbose text : Action (StateM FileTree) Unit).WritesOnly base written := by
  cases verbose with
  | false => exact writesOnly_pure ()
  | true => exact writesOnly_warn _

/-- Failing with causes writes nothing. -/
theorem writesOnly_orFail {α ε : Type} (result : Except ε α) (message : String)
    (causes : ε → List String) :
    (orFail result message causes : Action (StateM FileTree) α).WritesOnly base written := by
  cases result with
  | ok value => exact writesOnly_pure value
  | error failure => exact writesOnly_throw _

section Files

open FileSystem

/-- Looking at files writes nothing. -/
theorem writesOnly_look {α : Type} (result : FileTree → α) :
    WritesOnly base written (ExceptT.lift (StateT.lift fun tree => (result tree, tree))) :=
  writesOnly_lift fun tree _ => .refl written tree

/-- Making a directory writes no file. -/
theorem writesOnly_createDirectory (path : String) :
    (createDirectory path :
      Action (StateM FileTree) (Except FileError Unit)).WritesOnly base written := by
  refine writesOnly_lift fun tree hbase => ?_
  change Spares written tree (change (fun tree => tree.createDirectory path) tree).2
  unfold change
  split
  · rename_i left hcreate
    exact (spares_createDirectory hcreate).mono fun _ hnone => hnone.elim
  · exact .refl written tree

/-- Writing a text writes the file to which the path leads. -/
theorem writesOnly_writeText (path text : String) :
    (writeText path text : Action (StateM FileTree) (Except FileError Unit)).WritesOnly base
      (· = landing base path) := by
  refine writesOnly_lift fun tree hbase => ?_
  change Spares _ tree (change (fun tree => tree.writeText path text) tree).2
  unfold change
  split
  · rename_i left hwrite
    exact hbase ▸ spares_writeText hwrite
  · exact .refl _ tree

/-- Accepting a directory that exists writes nothing. -/
theorem writesOnly_acceptExisting (path : String) (made : Except FileError Unit) :
    (acceptExisting path made :
      Action (StateM FileTree) (Except FileError Unit)).WritesOnly base written := by
  cases made with
  | ok made => exact writesOnly_pure _
  | error failure =>
    refine writesOnly_bind (writesOnly_look _) fun found => ?_
    split <;> exact writesOnly_pure _

/-- Making directories writes no file. -/
theorem writesOnly_createDirectoriesUpTo (bound : Nat) (path : String) :
    (createDirectoriesUpTo bound path :
      Action (StateM FileTree) (Except FileError Unit)).WritesOnly base written := by
  induction bound generalizing path with
  | zero =>
    exact writesOnly_bind (writesOnly_createDirectory path) fun made =>
      writesOnly_acceptExisting path made
  | succ bound ih =>
    rw [createDirectoriesUpTo]
    split
    · exact writesOnly_pure _
    · refine writesOnly_bind (writesOnly_createDirectory path) fun made => ?_
      split
      · split
        · exact writesOnly_pure _
        · refine writesOnly_bind (ih _) fun above => ?_
          split
          · exact writesOnly_pure _
          · exact writesOnly_bind (writesOnly_createDirectory path) fun made =>
              writesOnly_acceptExisting path made
      · exact writesOnly_acceptExisting path _

end Files

/-- Writing a table writes the file to which its path leads. -/
theorem writesOnly_writeTable (target : String) (table : Table) :
    (writeTable target table : Action (StateM FileTree) Unit).WritesOnly base
      (· = landing base target) := by
  have hwrite : (do
      orFail ((← FileSystem.writeText target table.text).mapError TableError.io)
        ("Failed to write table " ++ target) tableCauses :
      Action (StateM FileTree) Unit).WritesOnly base (· = landing base target) :=
    writesOnly_bind (writesOnly_writeText _ _) fun written => writesOnly_orFail _ _ _
  unfold writeTable
  dsimp only
  split
  · refine writesOnly_bind (writesOnly_createDirectoriesUpTo _ _) fun made => ?_
    exact writesOnly_bind (writesOnly_orFail _ _ _) fun _ => hwrite
  · exact hwrite

/-- Writing a report writes the file that is named. -/
theorem writesOnly_writeReport (path : Option String) (text what : String) (verbose : Bool) :
    (writeReport path text what verbose : Action (StateM FileTree) Unit).WritesOnly base
      fun trail => ∃ file, path = some file ∧ trail = landing base file := by
  cases path with
  | none => exact writesOnly_pure ()
  | some path =>
    refine writesOnly_bind ((writesOnly_writeText _ _).mono ?_) fun written => ?_
    · exact fun trail htrail => ⟨path, rfl, htrail⟩
    · exact writesOnly_bind (writesOnly_orFail _ _ _) fun _ => writesOnly_note _ _

/-- Delivering a compilation writes the file to which the path of its table leads. -/
theorem writesOnly_deliver (source target : String) (verbose : Bool)
    (compiled : Compilation TokenStore) :
    (deliver source target verbose compiled).WritesOnly base (· = landing base target) := by
  have hclose (texts : List String) :
      (do say texts; return compiled.report :
        Action (StateM FileTree) Report).WritesOnly base (· = landing base target) :=
    writesOnly_bind (writesOnly_say texts) fun _ => writesOnly_pure compiled.report
  refine writesOnly_bind (writesOnly_say _) fun _ => ?_
  split
  · exact writesOnly_bind (writesOnly_warn _) fun _ => hclose _
  · refine writesOnly_bind (writesOnly_writeTable _ _) fun _ => ?_
    exact writesOnly_bind (writesOnly_note _ _) fun _ => hclose _

/-- Announcing a report writes the files that were asked for. -/
theorem writesOnly_announce (report markdown : Option String) (verbose : Bool) (merged : Report) :
    (announce report markdown verbose merged).WritesOnly base fun trail =>
      ∃ file, (report = some file ∨ markdown = some file) ∧ trail = landing base file := by
  refine writesOnly_bind ((writesOnly_writeReport report _ _ _).mono ?_) fun _ => ?_
  · exact fun trail ⟨file, hfile, htrail⟩ => ⟨file, .inl hfile, htrail⟩
  · refine writesOnly_bind ((writesOnly_writeReport markdown _ _ _).mono ?_) fun _ => ?_
    · exact fun trail ⟨file, hfile, htrail⟩ => ⟨file, .inr hfile, htrail⟩
    · exact writesOnly_bind (writesOnly_say _) fun _ => writesOnly_pure _

section Compiling

variable (settings : Settings) (outputDir : Option String) (verbose : Bool) (now : String)

/-- Compiling a scheme writes its table. -/
theorem writesOnly_compileScheme (source : String) :
    (compileScheme settings source outputDir verbose now :
      Action (StateM FileTree) Report).WritesOnly base
        (· = landing base (tablePath source outputDir)) := by
  rw [compileScheme_eq]
  refine writesOnly_bind (writesOnly_say _) fun _ => ?_
  exact writesOnly_bind (writesOnly_look _) fun contents => writesOnly_deliver _ _ _ _

/-- Compiling schemes writes their tables. -/
theorem writesOnly_compileSchemes (sources : List String) (report : Report) :
    (compileSchemes settings outputDir verbose now sources report :
      Action (StateM FileTree) Report).WritesOnly base fun trail =>
        ∃ source ∈ sources, trail = landing base (tablePath source outputDir) := by
  induction sources generalizing report with
  | nil => exact writesOnly_pure report
  | cons source rest ih =>
    refine writesOnly_bind
      ((writesOnly_compileScheme settings outputDir verbose now source).mono ?_) fun compiled => ?_
    · exact fun trail htrail => ⟨source, List.mem_cons_self .., htrail⟩
    · exact (ih _).mono fun trail ⟨other, hother, htrail⟩ =>
        ⟨other, List.mem_cons_of_mem _ hother, htrail⟩

end Compiling

/-! ### What was written can be read -/

/-- A text that was written without a failure can be read. -/
theorem readText_of_outcome_writeText {ε : Type} {target text message : String}
    {wrap : FileError → ε} {causes : ε → List String} {tree left : FileTree}
    (h : (do orFail ((← FileSystem.writeText target text).mapError wrap) message causes :
      Action (StateM FileTree) Unit).outcome tree = (.ok (), left)) :
    left.readText target = .ok text := by
  obtain ⟨result, middle, hwrite, hresult⟩ :=
    exists_outcome_of_bind (fun written => unheard_orFail _ _ _) h
  have houtcome : (FileSystem.writeText target text : Action (StateM FileTree) _).outcome tree =
      let ended := change (fun tree => tree.writeText target text) tree
      (.ok ended.1, ended.2) := rfl
  unfold change at houtcome
  split at houtcome
  · rename_i changed hchanged
    cases houtcome.symm.trans hwrite
    cases hresult
    exact readText_of_writeText hchanged
  · cases houtcome.symm.trans hwrite
    cases congrArg Prod.fst hresult

/-- A table that was written without a failure can be read. -/
theorem readText_of_outcome_writeTable {target : String} {table : Table} {tree left : FileTree}
    (h : (writeTable target table).outcome tree = (.ok (), left)) :
    left.readText target = .ok table.text := by
  have hwrite : (do
      orFail ((← FileSystem.writeText target table.text).mapError TableError.io)
        ("Failed to write table " ++ target) tableCauses :
      Action (StateM FileTree) Unit).Unheard :=
    unheard_bind (unheard_lift _) fun written => unheard_orFail _ _ _
  unfold writeTable at h
  dsimp only at h
  split at h
  · obtain ⟨made, middle, -, hmade⟩ := exists_outcome_of_bind
      (fun _ => unheard_bind (unheard_orFail _ _ _) fun _ => hwrite) h
    obtain ⟨-, reached, -, hreached⟩ := exists_outcome_of_bind (fun _ => hwrite) hmade
    exact readText_of_outcome_writeText hreached
  · exact readText_of_outcome_writeText h

/-- What is told of a compilation after its table was written. -/
def tellWritten (target : String) (verbose : Bool) (compiled : Compilation TokenStore) :
    Action (StateM FileTree) Report := do
  note verbose ("Wrote " ++ toString compiled.sink.flushed.length ++ " tokens to " ++ target)
  say ["Completed with '" ++ toString compiled.report.summary.warnings ++
    "' warning(s) and '" ++ toString compiled.report.summary.errors ++ "' error(s)"]
  return compiled.report

/-- A compilation that is not aborted is delivered by writing its table. -/
theorem deliver_of_done {compiled : Compilation TokenStore} (h : compiled.aborted = false)
    (source target : String) (verbose : Bool) :
    deliver source target verbose compiled =
      say (compiled.report.diagnostics.flatMap diagnosticLines) >>= fun _ =>
        writeTable target compiled.sink.toTable >>= fun _ =>
          tellWritten target verbose compiled := by
  simp only [deliver, h, Bool.false_eq_true, if_false]
  rfl

/-- The table of a compilation that was delivered without a failure can be read, unless the
compilation was aborted. -/
theorem readText_of_outcome_deliver {source target : String} {verbose : Bool}
    {compiled : Compilation TokenStore} {tree left : FileTree} {report : Report}
    (hdone : compiled.aborted = false)
    (h : (deliver source target verbose compiled).outcome tree = (.ok report, left)) :
    left.readText target = .ok compiled.sink.toTable.text := by
  have htell : (tellWritten target verbose compiled).Unheard :=
    unheard_bind (unheard_note _ _) fun _ => unheard_bind (unheard_say _) fun _ => unheard_pure _
  have hnothing (base : Trail) :
      (tellWritten target verbose compiled).WritesOnly base fun _ => False :=
    writesOnly_bind (writesOnly_note _ _) fun _ =>
      writesOnly_bind (writesOnly_say _) fun _ => writesOnly_pure _
  have hwrite := unheard_bind (unheard_writeTable target compiled.sink.toTable) fun _ => htell
  rw [deliver_of_done hdone] at h
  obtain ⟨_, told, -, htold⟩ := exists_outcome_of_bind (fun _ => hwrite) h
  obtain ⟨_, written, hwritten, hleft⟩ := exists_outcome_of_bind (fun _ => htell) htold
  exact ((hnothing _).spares rfl hleft).readText (readText_of_outcome_writeTable hwritten) id

end TranslitScheme.CommandLine
