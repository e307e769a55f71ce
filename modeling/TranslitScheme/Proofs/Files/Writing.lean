import TranslitScheme.Proofs.Files.Landing
import Mathlib.Data.List.TakeWhile

/-!
# What writing leaves alone

Whatever is done to a tree of files, its directories stay, among them the working directory, and so
do the texts of all files but the one that is written to. That is the file at the trail to which the
path leads, which holds the text afterwards.

A path that could be followed can then still be followed, so that reading a file by its path comes
to the same text before and after other files are written.
-/

namespace TranslitScheme.FileTree

/-- What has a name that is not too long is what is at the end of its trail. -/
theorem entry_eq_ok_iff {tree : FileTree} {directory : Trail} {name : String} {entry : Entry} :
    tree.entry directory name = .ok entry ↔
      name.utf8ByteSize ≤ maxNameBytes ∧ tree.entryAt (directory ++ [name]) = entry := by
  unfold FileTree.entry
  split
  · rename_i hlong
    simp [Nat.not_le.mpr hlong]
  · simp_all

/-- There is a directory at the end of a trail exactly when the tree has it. -/
theorem entryAt_eq_directory_iff {tree : FileTree} {trail : Trail} :
    tree.entryAt trail = .directory ↔ tree.hasDirectory trail = true := by
  unfold entryAt
  split
  · simp_all
  · split <;> simp_all

/-- There is a file at the end of a trail exactly when the tree has it and no directory is there. -/
theorem entryAt_eq_file_iff {tree : FileTree} {trail : Trail} {text : String} :
    tree.entryAt trail = .file text ↔
      tree.hasDirectory trail = false ∧ tree.files.lookup trail = some text := by
  unfold entryAt
  cases htrail : tree.hasDirectory trail with
  | true => simp
  | false => cases tree.files.lookup trail <;> simp

/-- What two steps come to, the second makes of what the first came to. -/
theorem exists_of_bind_eq_ok {ε α β : Type} {first : Except ε α} {next : α → Except ε β}
    {result : β} (h : first >>= next = .ok result) :
    ∃ value, first = .ok value ∧ next value = .ok result := by
  cases first with
  | error failure => cases h
  | ok value => exact ⟨value, rfl, h⟩

/-- A text is read where a path ends with the name of a file. -/
theorem readText_eq_ok_iff {tree : FileTree} {path text : String} :
    tree.readText path = .ok text ↔
      ∃ directory name, tree.find path = .ok (.named directory name false) ∧
        tree.entry directory name = .ok (.file text) := by
  constructor
  · intro h
    obtain ⟨place, hfind, hplace⟩ := exists_of_bind_eq_ok h
    cases place with
    | here directory => cases hplace
    | named directory name endsInSlash =>
      obtain ⟨entry, hentry, hread⟩ := exists_of_bind_eq_ok hplace
      cases entry with
      | file held =>
        cases endsInSlash with
        | true => cases hread
        | false =>
          cases hread
          exact ⟨directory, name, hfind, hentry⟩
      | directory => cases hread
      | nothing => cases hread
  · intro ⟨directory, name, hfind, hentry⟩
    simp only [FileTree.readText, hfind, hentry, bind, Except.bind]
    rfl

/-- One tree comes from another by writing files at some trails at most. -/
structure Spares (written : Trail → Prop) (tree left : FileTree) : Prop where
  workingDirectory : left.workingDirectory = tree.workingDirectory
  directories : ∀ trail, tree.hasDirectory trail = true → left.hasDirectory trail = true
  files : ∀ trail text, ¬ written trail → tree.entryAt trail = .file text →
    left.entryAt trail = .file text

namespace Spares

variable {written : Trail → Prop} {tree middle left : FileTree}

/-- A tree that is left alone comes from itself. -/
theorem refl (written : Trail → Prop) (tree : FileTree) : Spares written tree tree :=
  ⟨rfl, fun _ h => h, fun _ _ _ h => h⟩

/-- Files are written after others. -/
theorem trans (h : Spares written tree middle) (hnext : Spares written middle left) :
    Spares written tree left :=
  ⟨hnext.workingDirectory.trans h.workingDirectory,
    fun trail htrail => hnext.directories trail (h.directories trail htrail),
    fun trail text hother htext => hnext.files trail text hother (h.files trail text hother htext)⟩

/-- Some of the files that may be written are. -/
theorem mono {more : Trail → Prop} (h : Spares written tree left)
    (hmore : ∀ trail, written trail → more trail) : Spares more tree left :=
  { h with
    files := fun trail text hother => h.files trail text fun hwritten =>
      hother (hmore trail hwritten) }

/-- What was a directory is one. -/
theorem entry_directory (h : Spares written tree left) {directory : Trail} {name : String}
    (hentry : tree.entry directory name = .ok .directory) :
    left.entry directory name = .ok .directory := by
  obtain ⟨hsize, htrail⟩ := entry_eq_ok_iff.mp hentry
  have hdirectory := h.directories _ (entryAt_eq_directory_iff.mp htrail)
  exact entry_eq_ok_iff.mpr ⟨hsize, entryAt_eq_directory_iff.mpr hdirectory⟩

/-- Pieces that were followed are followed to the same place. -/
theorem follow (h : Spares written tree left) {directory : Trail} {pieces : List (List Char)}
    {place : Place} (hfollow : tree.follow directory pieces = .ok place) :
    left.follow directory pieces = .ok place := by
  induction pieces generalizing directory with
  | nil => exact hfollow
  | cons piece rest ih =>
    by_cases hends : EndsAt piece rest
    · rw [follow_of_endsAt hends] at hfollow ⊢
      exact hfollow
    · obtain ⟨henters, hrest⟩ := (follow_eq_ok_iff hends).mp hfollow
      have hleft : left.Enters directory piece :=
        henters.imp_right fun hpiece => hpiece.imp_right h.entry_directory
      exact (follow_eq_ok_iff hends).mpr ⟨hleft, ih hrest⟩

/-- A path that was followed is followed to the same place. -/
theorem find (h : Spares written tree left) {path : String} {place : Place}
    (hfind : tree.find path = .ok place) : left.find path = .ok place := by
  obtain ⟨htext, hfollow⟩ := find_eq_ok_iff.mp hfind
  exact find_eq_ok_iff.mpr ⟨htext, h.workingDirectory ▸ h.follow hfollow⟩

/-- A file that is not written to is read as before. -/
theorem readText (h : Spares written tree left) {path text : String}
    (hread : tree.readText path = .ok text)
    (hother : ¬ written (landing tree.workingDirectory path)) :
    left.readText path = .ok text := by
  obtain ⟨directory, name, hfind, hentry⟩ := readText_eq_ok_iff.mp hread
  obtain ⟨hsize, htrail⟩ := entry_eq_ok_iff.mp hentry
  rw [← landing_of_find hfind] at hother
  exact readText_eq_ok_iff.mpr ⟨directory, name, h.find hfind,
    entry_eq_ok_iff.mpr ⟨hsize, h.files _ _ hother htrail⟩⟩

end Spares

variable {tree left : FileTree} {path text : String}

/-- A directory is made where there is nothing. -/
theorem exists_directory_of_createDirectory (h : tree.createDirectory path = .ok left) :
    ∃ directory name, tree.entry directory name = .ok .nothing ∧
      left = { tree with directories := tree.directories ++ [directory ++ [name]] } := by
  obtain ⟨place, hfind, hplace⟩ := exists_of_bind_eq_ok h
  cases place with
  | here directory => cases hplace
  | named directory name endsInSlash =>
    obtain ⟨entry, hentry, hcreate⟩ := exists_of_bind_eq_ok hplace
    cases entry with
    | nothing => exact ⟨directory, name, hentry, (Except.ok.inj hcreate).symm⟩
    | file text => cases hcreate
    | directory => cases hcreate

/-- Making a directory leaves all files alone. -/
theorem spares_createDirectory (h : tree.createDirectory path = .ok left) :
    Spares (fun _ => False) tree left := by
  obtain ⟨directory, name, hentry, rfl⟩ := exists_directory_of_createDirectory h
  have hnothing := (entry_eq_ok_iff.mp hentry).2
  refine ⟨rfl, fun trail htrail => ?_, fun trail text _ hfile => ?_⟩
  · simp only [hasDirectory, Bool.or_eq_true, List.contains_iff_mem] at htrail ⊢
    exact htrail.imp_right fun hmem => List.mem_append_left _ hmem
  · have hne : trail ≠ directory ++ [name] := fun heq => by
      rw [heq, hnothing] at hfile
      cases hfile
    obtain ⟨hplace, hlookup⟩ := entryAt_eq_file_iff.mp hfile
    refine entryAt_eq_file_iff.mpr ⟨?_, hlookup⟩
    simp only [hasDirectory, Bool.or_eq_false_iff] at hplace ⊢
    simp_all

/-- Putting a file leaves the working directory. -/
theorem workingDirectory_putFile (tree : FileTree) (trail : Trail) (text : String) :
    (tree.putFile trail text).workingDirectory = tree.workingDirectory := by
  unfold putFile
  split <;> rfl

/-- A file is no directory. -/
theorem hasDirectory_putFile (tree : FileTree) (trail other : Trail) (text : String) :
    (tree.putFile trail text).hasDirectory other = tree.hasDirectory other := by
  unfold putFile
  split <;> rfl

/-- Files in which those at one trail get a text have that text there, if there are any. -/
theorem lookup_map_replace (files : List (Trail × String)) (trail other : Trail) (text : String) :
    (files.map fun file => if file.1 = trail then (trail, text) else file).lookup other =
      if other = trail then (files.lookup other).map fun _ => text else files.lookup other := by
  induction files with
  | nil => simp
  | cons file rest ih =>
    obtain ⟨place, held⟩ := file
    by_cases hfirst : other = place
    · subst hfirst
      by_cases hother : other = trail <;> simp [hother]
    · have hbeq : (other == place) = false := beq_eq_false_iff_ne.mpr hfirst
      by_cases hplace : place = trail
      · subst hplace
        simp [List.lookup_cons, hbeq, ih]
      · simp [List.lookup_cons, hbeq, hplace, ih]

/-- The text at a trail after a text is put there or elsewhere. -/
theorem lookup_putFile (tree : FileTree) (trail other : Trail) (text : String) :
    (tree.putFile trail text).files.lookup other =
      if other = trail then some text else tree.files.lookup other := by
  unfold putFile
  cases hheld : tree.files.lookup trail with
  | some held =>
    simp only [Option.isSome_some, if_true]
    rw [lookup_map_replace]
    by_cases hother : other = trail <;> simp [hother, hheld]
  | none =>
    simp only [Option.isSome_none, Bool.false_eq_true, if_false, List.lookup_append]
    by_cases hother : other = trail
    · simp [hother, hheld]
    · have hbeq : (other == trail) = false := beq_eq_false_iff_ne.mpr hother
      simp [List.lookup_cons, hbeq, hother]

/-- A path to which a text can be written ends with a name that is not that of a directory, and
the text is put there. -/
theorem exists_putFile_of_writeText (h : tree.writeText path text = .ok left) :
    ∃ directory name, tree.find path = .ok (.named directory name false) ∧
      name.utf8ByteSize ≤ maxNameBytes ∧ tree.hasDirectory (directory ++ [name]) = false ∧
        left = tree.putFile (directory ++ [name]) text := by
  obtain ⟨place, hfind, hplace⟩ := exists_of_bind_eq_ok h
  cases place with
  | here directory => cases hplace
  | named directory name endsInSlash =>
    cases endsInSlash with
    | true => cases hplace
    | false =>
      obtain ⟨entry, hentry, hwrite⟩ := exists_of_bind_eq_ok hplace
      obtain ⟨hsize, htrail⟩ := entry_eq_ok_iff.mp hentry
      have hfile : entry ≠ .directory := fun heq => by
        rw [heq] at hwrite
        cases hwrite
      have hplain : tree.hasDirectory (directory ++ [name]) = false :=
        Bool.eq_false_iff.mpr fun hdirectory =>
          hfile (htrail.symm.trans (entryAt_eq_directory_iff.mpr hdirectory))
      refine ⟨directory, name, hfind, hsize, hplain, ?_⟩
      cases entry with
      | directory => exact absurd rfl hfile
      | file held => exact (Except.ok.inj hwrite).symm
      | nothing => exact (Except.ok.inj hwrite).symm

/-- Writing a text leaves all files alone but the one to which the path leads. -/
theorem spares_writeText (h : tree.writeText path text = .ok left) :
    Spares (· = landing tree.workingDirectory path) tree left := by
  obtain ⟨directory, name, hfind, -, -, rfl⟩ := exists_putFile_of_writeText h
  have hlanding := landing_of_find hfind
  refine ⟨workingDirectory_putFile tree _ text, fun trail htrail => by rwa [hasDirectory_putFile],
    fun trail other hother hfile => ?_⟩
  obtain ⟨hplace, hlookup⟩ := entryAt_eq_file_iff.mp hfile
  refine entryAt_eq_file_iff.mpr ⟨by rwa [hasDirectory_putFile], ?_⟩
  have hne : trail ≠ directory ++ [name] := fun heq => hother (heq.trans hlanding)
  rwa [lookup_putFile, if_neg hne]

/-- A text that is written can be read. -/
theorem readText_of_writeText (h : tree.writeText path text = .ok left) :
    left.readText path = .ok text := by
  have hspares := spares_writeText h
  obtain ⟨directory, name, hfind, hsize, hplace, rfl⟩ := exists_putFile_of_writeText h
  have hentry : (tree.putFile (directory ++ [name]) text).entryAt (directory ++ [name]) =
      .file text :=
    entryAt_eq_file_iff.mpr ⟨by rwa [hasDirectory_putFile], by rw [lookup_putFile, if_pos rfl]⟩
  exact readText_eq_ok_iff.mpr
    ⟨directory, name, hspares.find hfind, entry_eq_ok_iff.mpr ⟨hsize, hentry⟩⟩

/-- Idle pieces are followed to where they begin. -/
theorem follow_of_isIdle (tree : FileTree) (directory : Trail) {pieces : List (List Char)}
    (h : ∀ piece ∈ pieces, Path.isIdle piece = true) :
    tree.follow directory pieces = .ok (.here directory) := by
  induction pieces with
  | nil => rfl
  | cons piece rest ih =>
    rw [List.forall_mem_cons] at h
    rw [follow, if_pos h.1, ih h.2]

/-- A path to which a text can be written has a directory. -/
theorem exists_parent_of_writeText (h : tree.writeText path text = .ok left) :
    ∃ directory, Path.parent? path = some directory := by
  obtain ⟨directory, name, hfind, -⟩ := exists_putFile_of_writeText h
  cases hpieces : Path.piecesFromEnd path with
  | cons piece rest => exact ⟨_, by rw [Path.parent?, hpieces]⟩
  | nil =>
    -- a path of idle pieces leads to no name
    have hidle : ∀ piece ∈ (Path.split path).2, Path.isIdle piece = true := by
      simpa [Path.piecesFromEnd, List.dropWhile_eq_nil_iff] using hpieces
    have hfollow := (find_eq_ok_iff.mp hfind).2
    rw [follow_of_isIdle tree _ hidle] at hfollow
    cases hfollow

end TranslitScheme.FileTree
