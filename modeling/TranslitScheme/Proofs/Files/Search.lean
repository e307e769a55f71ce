import TranslitScheme.Proofs.Files.Writing

/-!
# The files below a directory

A file that is found below a directory is found by the path of the directory with the rest of its
trail behind it. In a tree whose trails are made of names, as they are in every tree that is built
by writing files, that path leads to the file, so that different files are found by paths that lead
to different trails.
-/

namespace TranslitScheme.FileTree

open TranslitScheme.Path

variable {base : Trail}

/-- A trail goes down by names. -/
def isTrail (trail : Trail) : Bool := trail.all isName

/-- All files and the working directory are at the ends of trails. -/
structure WellFormed (tree : FileTree) : Prop where
  files : ∀ file ∈ tree.files, isTrail file.1 = true
  workingDirectory : isTrail tree.workingDirectory = true

/-- One trail behind another is a trail. -/
theorem isTrail_append_iff {front rest : Trail} :
    isTrail (front ++ rest) = true ↔ isTrail front = true ∧ isTrail rest = true := by
  rw [isTrail, List.all_append, Bool.and_eq_true_iff]
  rfl

/-- A trail is put behind the path of a directory. -/
theorem landing_foldl_join {rest : Trail} (h : isTrail rest = true) (path : String) :
    landing base (rest.foldl join path) = landing base path ++ rest := by
  induction rest generalizing path with
  | nil => exact (List.append_nil _).symm
  | cons name rest ih =>
    obtain ⟨hname, hrest⟩ := Bool.and_eq_true_iff.mp h
    rw [List.foldl_cons, ih hrest, landing_join_of_isName hname, List.append_assoc,
      List.singleton_append]

/-- A trail below a directory has that of the directory in front. -/
theorem eq_append_of_trailBelow? {directory trail rest : Trail}
    (h : trailBelow? directory trail = some rest) : trail = directory ++ rest := by
  induction directory generalizing trail with
  | nil => simpa [trailBelow?] using h
  | cons name directory ih =>
    cases trail with
    | nil => simp [trailBelow?] at h
    | cons other trail =>
      rw [trailBelow?] at h
      split at h
      · rename_i heq
        rw [heq, ih h, List.cons_append]
      · cases h

/-- The directory at a path is where the path leads. -/
theorem eq_landing_of_directoryAt? {tree : FileTree} {path : String} {directory : Trail}
    (h : tree.directoryAt? path = some directory) :
    directory = landing tree.workingDirectory path := by
  unfold directoryAt? at h
  split at h
  · rename_i place hfind
    rw [← Option.some.inj h]
    exact landing_of_find hfind
  · rename_i place name endsInSlash hfind
    split at h
    · rw [← Option.some.inj h]
      exact landing_of_find hfind
    · cases h
  · cases h

/-- The trails of the files below a directory, from there, in the order of the files. -/
def trailsBelow (tree : FileTree) (directory : Trail) : List Trail :=
  tree.files.filterMap fun file => trailBelow? directory file.1

/-- Files below a directory that are in the order of their trails are found in that order. -/
theorem filesBelow_of_sorted {tree : FileTree} {path : String} {directory : Trail}
    (hdirectory : tree.directoryAt? path = some directory)
    (hsorted : (tree.trailsBelow directory).Pairwise fun trail other =>
      precedes trail other = true) :
    tree.filesBelow path =
      ((tree.trailsBelow directory).filter fun trail =>
        decide ((trail.dropLast.foldl join path).utf8ByteSize ≤ maxPathBytes)).map
          fun trail => trail.foldl join path := by
  have horder := List.mergeSort_of_pairwise hsorted
  unfold trailsBelow at horder ⊢
  unfold filesBelow
  rw [hdirectory]
  simp only [horder]

/-- A file below a directory is found by the path of the directory and the rest of its trail. -/
theorem exists_of_mem_filesBelow {tree : FileTree} {path source : String}
    (h : source ∈ tree.filesBelow path) :
    ∃ rest text, source = rest.foldl join path ∧
      (landing tree.workingDirectory path ++ rest, text) ∈ tree.files := by
  unfold filesBelow at h
  split at h
  · rename_i directory hdirectory
    obtain ⟨rest, hrest, rfl⟩ := List.mem_map.mp h
    have hfound := List.mem_mergeSort.mp ((List.mem_filter.mp hrest).1)
    obtain ⟨⟨trail, text⟩, hfile, hbelow⟩ := List.mem_filterMap.mp hfound
    obtain rfl := eq_landing_of_directoryAt? hdirectory
    exact ⟨rest, text, rfl, eq_append_of_trailBelow? hbelow ▸ hfile⟩
  · cases h

/-- Different files below a directory are found by paths that lead to different trails. -/
theorem WellFormed.eq_of_landing_eq {tree : FileTree} (htree : tree.WellFormed)
    {path source other : String} (hsource : source ∈ tree.filesBelow path)
    (hother : other ∈ tree.filesBelow path)
    (h : landing tree.workingDirectory source = landing tree.workingDirectory other) :
    source = other := by
  obtain ⟨rest, text, rfl, hfile⟩ := exists_of_mem_filesBelow hsource
  obtain ⟨others, text, rfl, hfile'⟩ := exists_of_mem_filesBelow hother
  have hrest := isTrail_append_iff.mp (htree.files _ hfile)
  have hothers := isTrail_append_iff.mp (htree.files _ hfile')
  rw [landing_foldl_join hrest.2, landing_foldl_join hothers.2] at h
  rw [List.append_cancel_left h]

/-! ### Trees that are built by writing files -/

/-- Above a trail is a trail. -/
theorem isTrail_above {trail : Trail} (h : isTrail trail = true) :
    isTrail (above trail) = true :=
  List.all_eq_true.mpr fun name hname =>
    List.all_eq_true.mp h name (List.dropLast_subset trail hname)

/-- A piece of a path leads from a trail to a trail. -/
theorem isTrail_step {trail : Trail} {piece : List Char} (htrail : isTrail trail = true)
    (hpiece : '/' ∉ piece) : isTrail (step trail piece) = true := by
  unfold step
  split
  · exact htrail
  · rename_i hidle
    split
    · exact isTrail_above htrail
    · rename_i hdots
      have hname := isName_ofList (by simpa using hidle) hdots hpiece
      exact isTrail_append_iff.mpr ⟨htrail, by rw [isTrail, List.all_cons, hname]; rfl⟩

/-- A path leads to a trail. -/
theorem isTrail_landing (hbase : isTrail base = true) (path : String) :
    isTrail (landing base path) = true := by
  have hpieces : ∀ piece ∈ (split path).2, '/' ∉ piece := fun _ => notMem_of_mem_split
  have hstart : isTrail (start base path) = true := by
    unfold start
    split
    · rfl
    · exact hbase
  rw [landing, lead]
  generalize (split path).2 = pieces at hpieces
  generalize start base path = trail at hstart
  induction pieces generalizing trail with
  | nil => exact hstart
  | cons piece rest ih =>
    exact ih (fun piece h => hpieces piece (by simp [h])) _
      (isTrail_step hstart (hpieces piece (by simp)))

/-- A tree to which a file is written is well formed if it was before. -/
theorem WellFormed.writeText {tree left : FileTree} {path text : String} (htree : tree.WellFormed)
    (h : tree.writeText path text = .ok left) : left.WellFormed := by
  obtain ⟨directory, name, hfind, -, -, rfl⟩ := exists_putFile_of_writeText h
  have htrail : isTrail (directory ++ [name]) = true := by
    rw [← isTrail_landing htree.workingDirectory path, ← landing_of_find hfind]
    rfl
  refine ⟨fun file hfile => ?_, by rw [workingDirectory_putFile]; exact htree.workingDirectory⟩
  unfold putFile at hfile
  split at hfile
  · obtain ⟨held, hheld, rfl⟩ := List.mem_map.mp hfile
    split
    · exact htrail
    · exact htree.files held hheld
  · rcases List.mem_append.mp hfile with hheld | hnew
    · exact htree.files file hheld
    · rw [List.mem_singleton.mp hnew]
      exact htrail

/-- An operation leaves a well formed tree well formed. -/
def KeepsWellFormed {α : Type} (operation : StateM FileTree α) : Prop :=
  ∀ tree, tree.WellFormed → (operation.run tree).2.WellFormed

namespace KeepsWellFormed

variable {α β : Type}

/-- An operation that looks at the tree does not change it. -/
theorem look (result : FileTree → α) :
    KeepsWellFormed (fun tree => (result tree, tree) : StateM FileTree α) :=
  fun _ h => h

/-- One operation is done after another. -/
theorem bind {operation : StateM FileTree α} {next : α → StateM FileTree β}
    (h : KeepsWellFormed operation) (hnext : ∀ value, KeepsWellFormed (next value)) :
    KeepsWellFormed (operation >>= next) :=
  fun tree htree => hnext _ _ (h tree htree)

/-- Writing a file. -/
theorem writeText (path text : String) :
    KeepsWellFormed (FileSystem.writeText path text : StateM FileTree (Except FileError Unit)) := by
  intro tree htree
  change (change (fun tree => tree.writeText path text) tree).2.WellFormed
  unfold change
  split
  · rename_i left hwrite
    exact htree.writeText hwrite
  · exact htree

/-- Making a directory. -/
theorem createDirectory (path : String) :
    KeepsWellFormed
      (FileSystem.createDirectory path : StateM FileTree (Except FileError Unit)) := by
  intro tree htree
  change (change (fun tree => tree.createDirectory path) tree).2.WellFormed
  unfold change
  split
  · rename_i left hcreate
    obtain ⟨directory, name, -, rfl⟩ := exists_directory_of_createDirectory hcreate
    exact ⟨htree.files, htree.workingDirectory⟩
  · exact htree

/-- Accepting a directory that exists. -/
theorem acceptExisting (path : String) (made : Except FileError Unit) :
    KeepsWellFormed
      (FileSystem.acceptExisting path made : StateM FileTree (Except FileError Unit)) := by
  cases made with
  | ok made => exact look _
  | error failure =>
    refine bind (look _) fun found => ?_
    split <;> exact look _

/-- Making directories. -/
theorem createDirectoriesUpTo (bound : Nat) (path : String) :
    KeepsWellFormed (FileSystem.createDirectoriesUpTo bound path :
      StateM FileTree (Except FileError Unit)) := by
  induction bound generalizing path with
  | zero => exact bind (createDirectory path) fun made => acceptExisting path made
  | succ bound ih =>
    rw [FileSystem.createDirectoriesUpTo]
    split
    · exact look _
    · refine bind (createDirectory path) fun made => ?_
      split
      · split
        · exact look _
        · refine bind (ih _) fun above => ?_
          split
          · exact look _
          · exact bind (createDirectory path) fun made => acceptExisting path made
      · exact acceptExisting path _

/-- The result of an operation is of no interest. -/
theorem discard {operation : StateM FileTree α} (h : KeepsWellFormed operation) :
    KeepsWellFormed (discard operation) :=
  fun tree htree => h tree htree

/-- Putting a file into the tree. -/
theorem addFile (path text : String) : KeepsWellFormed (addFile path text) := by
  have hwrite := discard (writeText path text)
  unfold FileTree.addFile
  split
  · exact bind (discard (createDirectoriesUpTo _ _)) fun _ => hwrite
  · exact hwrite

/-- Putting files into the tree. -/
theorem addFiles (files : List (String × String)) :
    KeepsWellFormed (files.forM fun file => FileTree.addFile file.1 file.2) := by
  induction files with
  | nil => exact look _
  | cons file rest ih => exact bind (addFile file.1 file.2) fun _ => ih

end KeepsWellFormed

/-- A tree that holds files at given paths is well formed. -/
theorem wellFormed_ofFiles (hbase : isTrail base = true) (files : List (String × String)) :
    (ofFiles base files).WellFormed := by
  have hempty : ({ workingDirectory := base } : FileTree).WellFormed := ⟨nofun, hbase⟩
  exact KeepsWellFormed.addFiles files _ hempty

end TranslitScheme.FileTree
