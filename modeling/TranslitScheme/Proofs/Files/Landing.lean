import TranslitScheme.Files.Tree

/-!
# Where a path leads

The pieces of a path alone tell where it leads. Idle pieces lead nowhere, two points lead to the
directory above, and a name leads to what has that name in a directory. A tree of files may refuse
to follow a path, but it follows it to nowhere else.

What is put behind a path leads on from there, and what is taken off its end was a step of the way.
-/

namespace TranslitScheme

namespace Path

/-- A text can name a file in a directory. -/
def isName (name : String) : Bool :=
  !isIdle name.toList && name != ".." && !name.toList.contains '/'

/-- A name leads somewhere, and down. -/
theorem isName_iff {name : String} :
    isName name = true ↔ isIdle name.toList = false ∧ name ≠ ".." ∧ '/' ∉ name.toList := by
  simp only [isName, Bool.and_eq_true, Bool.not_eq_true', bne_iff_ne, List.contains_eq_mem,
    decide_eq_false_iff_not, and_assoc]

/-- A piece of a path that leads anywhere but up is a name. -/
theorem isName_ofList {piece : List Char} (hidle : isIdle piece = false)
    (hdots : piece ≠ ['.', '.']) (hslash : '/' ∉ piece) :
    isName (String.ofList piece) = true := by
  have hne : String.ofList piece ≠ ".." := fun heq => hdots (by
    rw [← String.toList_ofList (l := piece), heq]
    rfl)
  rw [isName_iff, String.toList_ofList]
  exact ⟨hidle, hne, hslash⟩

/-- There are no slashes in a name. -/
theorem notMem_of_isName {name : String} (h : isName name = true) : '/' ∉ name.toList :=
  (isName_iff.mp h).2.2

/-- There are no slashes in what is between slashes. -/
theorem notMem_of_mem_splitOn {text piece : List Char} (h : piece ∈ text.splitOn '/') :
    '/' ∉ piece := by
  induction text generalizing piece with
  | nil => simp_all
  | cons letter text ih =>
    rw [List.splitOn_cons_eq_if_modifyHead] at h
    split at h
    · rcases List.mem_cons.mp h with rfl | hmem
      · simp
      · exact ih hmem
    · rename_i hletter
      obtain ⟨first, rest, hsplit⟩ := List.exists_cons_of_ne_nil (List.splitOn_ne_nil '/' text)
      rw [hsplit, List.modifyHead_cons, List.mem_cons] at h
      rw [hsplit] at ih
      rcases h with rfl | hmem
      · have hne : '/' ≠ letter := fun heq => hletter (by rw [← heq]; rfl)
        exact List.not_mem_cons_of_ne_of_not_mem hne (ih (List.mem_cons_self ..))
      · exact ih (List.mem_cons_of_mem _ hmem)

/-- A path is one of three kinds: it has no start of its own, it begins at the root, or it begins
with a single point that is all of it or has a slash behind it. -/
theorem split_cases (path : String) :
    (isAbsolute path = false ∧ split path = ([], path.toList.splitOn '/')) ∨
      (∃ rest, path.toList = '/' :: rest ∧ split path = (['/'], rest.splitOn '/')) ∨
      (path.toList = ['.'] ∧ split path = (['.'], [[]])) ∨
      ∃ rest, path.toList = '.' :: '/' :: rest ∧
        split path = (['.'], [] :: rest.splitOn '/') := by
  unfold split
  split
  · rename_i rest htext
    exact .inr (.inl ⟨rest, htext, rfl⟩)
  · rename_i htext
    exact .inr (.inr (.inl ⟨htext, rfl⟩))
  · rename_i rest htext
    refine .inr (.inr (.inr ⟨rest, htext, ?_⟩))
    rw [List.splitOn_cons_eq_if_modifyHead, if_pos (by rfl)]
  · rename_i hroot _ _
    refine .inl ⟨?_, rfl⟩
    cases htext : path.toList with
    | nil => simp [isAbsolute, htext]
    | cons letter rest =>
      have hletter : letter ≠ '/' := fun heq => hroot rest (heq ▸ htext)
      simp [isAbsolute, htext, hletter]

/-- There are no slashes in the pieces of a path. -/
theorem notMem_of_mem_split {path : String} {piece : List Char} (h : piece ∈ (split path).2) :
    '/' ∉ piece := by
  rcases split_cases path with ⟨-, hsplit⟩ | ⟨rest, -, hsplit⟩ | ⟨-, hsplit⟩ | ⟨rest, -, hsplit⟩ <;>
    rw [hsplit] at h
  · exact notMem_of_mem_splitOn h
  · exact notMem_of_mem_splitOn h
  · simp_all
  · rcases List.mem_cons.mp h with rfl | hmem
    · simp
    · exact notMem_of_mem_splitOn hmem

end Path

namespace FileTree

open TranslitScheme.Path

variable {base : Trail}

/-- Where a piece of a path leads from a directory. -/
def step (trail : Trail) (piece : List Char) : Trail :=
  if isIdle piece then trail
  else if piece = ['.', '.'] then above trail
  else trail ++ [String.ofList piece]

/-- Where the pieces of a path lead from a directory. -/
def lead (trail : Trail) (pieces : List (List Char)) : Trail := pieces.foldl step trail

/-- Where a path leads when a given directory is the working directory. -/
def landing (base : Trail) (path : String) : Trail := lead (start base path) (split path).2

/-- The trail of a place. -/
def Place.trail : Place → Trail
  | .here directory => directory
  | .named directory name _ => directory ++ [name]

/-- An idle piece leads nowhere. -/
theorem step_of_isIdle {piece : List Char} (h : isIdle piece = true) (trail : Trail) :
    step trail piece = trail := if_pos h

/-- A name leads to what has it. -/
theorem step_of_isName {name : String} (h : isName name = true) (trail : Trail) :
    step trail name.toList = trail ++ [name] := by
  obtain ⟨hidle, hdots, -⟩ := isName_iff.mp h
  have hpiece : name.toList ≠ ['.', '.'] := fun heq => hdots (String.toList_injective heq)
  rw [step, if_neg (by simp [hidle]), if_neg hpiece, String.ofList_toList]

/-- Pieces lead on from where those in front of them led. -/
theorem lead_append (trail : Trail) (pieces more : List (List Char)) :
    lead trail (pieces ++ more) = lead (lead trail pieces) more := List.foldl_append

/-- Idle pieces lead nowhere. -/
theorem lead_of_isIdle {pieces : List (List Char)} (h : ∀ piece ∈ pieces, isIdle piece = true)
    (trail : Trail) : lead trail pieces = trail := by
  induction pieces with
  | nil => rfl
  | cons piece rest ih =>
    have hpiece : step trail piece = trail := step_of_isIdle (h piece (by simp)) trail
    rw [lead, List.foldl_cons, hpiece]
    exact ih fun piece hmem => h piece (by simp [hmem])

/-- What is dropped from the end of a path because it is idle led nowhere. -/
theorem lead_dropWhile_isIdle (trail : Trail) (pieces : List (List Char)) :
    lead trail (pieces.dropWhile isIdle).reverse = lead trail pieces.reverse := by
  have hidle : ∀ piece ∈ (pieces.takeWhile isIdle).reverse, isIdle piece = true := fun piece h =>
    List.all_eq_true.mp List.all_takeWhile piece (List.mem_reverse.mp h)
  have hparts : pieces.reverse =
      (pieces.dropWhile isIdle).reverse ++ (pieces.takeWhile isIdle).reverse := by
    rw [← List.reverse_append, List.takeWhile_append_dropWhile]
  rw [hparts, lead_append, lead_of_isIdle hidle]

/-- Whatever meaning the start of a path has, its pieces lead to where all that is between slashes
does. -/
theorem landing_eq (base : Trail) (path : String) :
    landing base path = lead (start base path) (path.toList.splitOn '/') := by
  rcases split_cases path with ⟨-, hsplit⟩ | ⟨rest, htext, hsplit⟩ | ⟨htext, hsplit⟩ |
    ⟨rest, htext, hsplit⟩ <;> rw [landing, hsplit]
  · rw [htext, List.splitOn_cons_eq_if_modifyHead, if_pos (by rfl)]
    rfl
  · rw [htext]
    rfl
  · have hpoint : '/' ∉ ['.'] := by decide
    have hpieces := List.splitOn_append_cons_self_of_not_mem hpoint rest
    rw [htext]
    exact (congrArg (lead _) hpieces).symm

/-- A piece is the name at the end of a path, with slashes behind it at most. -/
def EndsAt (piece : List Char) (rest : List (List Char)) : Prop :=
  isIdle piece = false ∧ piece ≠ ['.', '.'] ∧ rest.all (· == []) = true

/-- A piece can be followed from a directory to another. -/
def Enters (tree : FileTree) (directory : Trail) (piece : List Char) : Prop :=
  isIdle piece = true ∨ piece = ['.', '.'] ∨
    tree.entry directory (String.ofList piece) = .ok .directory

/-- At the end of a path there is a name in a directory. -/
theorem follow_of_endsAt {piece : List Char} {rest : List (List Char)} (h : EndsAt piece rest)
    (tree : FileTree) (directory : Trail) :
    tree.follow directory (piece :: rest) =
      .ok (.named directory (String.ofList piece) (!rest.isEmpty)) := by
  obtain ⟨hidle, hdots, hslashes⟩ := h
  rw [follow, if_neg (by simp [hidle]), if_neg hdots, if_pos hslashes]

/-- Before its end, a path is followed from one directory to another. -/
theorem follow_eq_ok_iff {tree : FileTree} {directory : Trail} {piece : List Char}
    {rest : List (List Char)} {place : Place} (h : ¬ EndsAt piece rest) :
    tree.follow directory (piece :: rest) = .ok place ↔
      tree.Enters directory piece ∧ tree.follow (step directory piece) rest = .ok place := by
  rw [follow, step]
  split
  · simp_all [Enters]
  · rename_i hidle
    split
    · simp_all [Enters]
    · rename_i hdots
      split
      · rename_i hslashes
        exact absurd ⟨by simpa using hidle, hdots, hslashes⟩ h
      · split <;> simp_all [Enters]

/-- A tree that follows pieces from a directory follows them to where they lead. -/
theorem lead_of_follow {tree : FileTree} {directory : Trail} {pieces : List (List Char)}
    {place : Place} (h : tree.follow directory pieces = .ok place) :
    place.trail = lead directory pieces := by
  induction pieces generalizing directory with
  | nil =>
    cases h
    rfl
  | cons piece rest ih =>
    rw [lead, List.foldl_cons, ← lead]
    by_cases hends : EndsAt piece rest
    · rw [follow_of_endsAt hends] at h
      cases h
      obtain ⟨hidle, hdots, hslashes⟩ := hends
      have hrest : ∀ piece ∈ rest, isIdle piece = true := fun piece hmem => by
        have hnil : piece = [] := by simpa using List.all_eq_true.mp hslashes piece hmem
        rw [hnil]
        rfl
      rw [lead_of_isIdle hrest, step, if_neg (by simp [hidle]), if_neg hdots]
      rfl
    · exact ih ((follow_eq_ok_iff hends).mp h).2

/-- A path is followed when its text allows it and its pieces can be followed. -/
theorem find_eq_ok_iff {tree : FileTree} {path : String} {place : Place} :
    tree.find path = .ok place ↔
      (path.toList.contains '\x00' = false ∧ path.utf8ByteSize ≤ maxPathBytes ∧ path ≠ "") ∧
        tree.follow (start tree.workingDirectory path) (split path).2 = .ok place := by
  unfold find
  split
  · simp_all
  · split
    · rename_i hlong
      simp [Nat.not_le.mpr hlong]
    · split <;> simp_all

/-- A tree that follows a path follows it to where it leads. -/
theorem landing_of_find {tree : FileTree} {path : String} {place : Place}
    (h : tree.find path = .ok place) : place.trail = landing tree.workingDirectory path :=
  lead_of_follow (find_eq_ok_iff.mp h).2

/-- Where a path begins is told by its first letter. -/
theorem start_congr {path other : String} (h : path.toList.head? = other.toList.head?) :
    start base path = start base other := by
  rw [start, start, isAbsolute, isAbsolute, h]

/-- What is put behind a path leads on from there. -/
theorem landing_join {name : String} (hname : '/' ∉ name.toList) (directory : String) :
    landing base (join directory name) = step (landing base directory) name.toList := by
  have hrelative : isAbsolute name = false := by
    cases htext : name.toList with
    | nil => simp [isAbsolute, htext]
    | cons letter rest =>
      simp only [htext, List.mem_cons, not_or] at hname
      simp [isAbsolute, htext, Ne.symm hname.1]
  have hpiece : name.toList.splitOn '/' = [name.toList] := List.splitOn_eq_singleton hname
  have hbehind (trail : Trail) (front : List Char) :
      lead trail ((front ++ '/' :: name.toList).splitOn '/') =
        step (lead trail (front.splitOn '/')) name.toList := by
    rw [List.splitOn_append_cons_self, hpiece, lead_append]
    rfl
  rw [landing_eq, landing_eq, join]
  split
  · rename_i hbare
    obtain rfl : directory = "" := by simpa [hrelative] using hbare
    have hstart : start base name = start base "" := by
      rw [start, start, hrelative]
      rfl
    rw [hpiece, hstart]
    rfl
  · rename_i hbare
    have hnonempty : directory.toList ≠ [] := fun hnil =>
      hbare (.inr (String.toList_injective hnil))
    have hhead (more : List Char) : (directory.toList ++ more).head? = directory.toList.head? := by
      rw [List.head?_append, List.head?_eq_some_head hnonempty]
      rfl
    split
    · -- the path ends in a slash, behind which there is an idle piece
      rename_i hend
      have hstart : start base (directory ++ name) = start base directory :=
        start_congr (by rw [String.toList_append, hhead])
      obtain ⟨front, hfront⟩ := List.getLast?_eq_some_iff.mp hend
      rw [hstart, String.toList_append, hfront, List.append_assoc, List.singleton_append, hbehind,
        List.splitOn_append_cons_self, lead_append]
      rfl
    · have hstart : start base (directory ++ "/" ++ name) = start base directory :=
        start_congr (by rw [String.toList_append, String.toList_append, List.append_assoc, hhead])
      rw [hstart, String.toList_append, String.toList_append, List.append_assoc]
      exact hbehind _ _

/-- A name that is put behind a path is in the directory to which the path leads. -/
theorem landing_join_of_isName {name : String} (h : isName name = true) (directory : String) :
    landing base (join directory name) = landing base directory ++ [name] := by
  rw [landing_join (notMem_of_isName h), step_of_isName h]

/-- Pieces with slashes between them lead to where the pieces do. -/
theorem lead_splitOn_intercalate {pieces : List (List Char)} (h : ∀ piece ∈ pieces, '/' ∉ piece)
    (trail : Trail) :
    lead trail ((['/'].intercalate pieces).splitOn '/') = lead trail pieces := by
  cases pieces with
  | nil => rfl
  | cons piece rest => rw [List.splitOn_intercalate '/' h (by simp)]

/-- Pieces behind a point at the start lead to where they do by themselves. -/
theorem lead_splitOn_point {parts pieces : List (List Char)} (hparts : parts <+: [] :: pieces)
    (hslash : ∀ piece ∈ parts, '/' ∉ piece) (trail : Trail) :
    lead trail ((['.'] ++ ['/'].intercalate parts).splitOn '/') = lead trail parts := by
  cases parts with
  | nil => rfl
  | cons first rest =>
    obtain ⟨rfl, -⟩ := List.cons_prefix_cons.mp hparts
    cases rest with
    | nil => rfl
    | cons second rest =>
      have hpoint : '/' ∉ ['.'] := by decide
      have hpieces := List.splitOn_append_cons_self_of_not_mem hpoint
        (['/'].intercalate (second :: rest))
      have hrest : lead trail ((['/'].intercalate (second :: rest)).splitOn '/') =
          lead trail (second :: rest) :=
        lead_splitOn_intercalate (fun piece h => hslash piece (by simp [h])) trail
      rw [List.intercalate_cons_cons]
      exact (congrArg (lead trail) hpieces).trans hrest

/-- The first pieces of a path that does not begin with a slash do not begin with one either. -/
theorem head?_intercalate_ne {text : List Char} {parts : List (List Char)}
    (hparts : parts <+: text.splitOn '/') (htext : text.head? ≠ some '/') :
    (['/'].intercalate parts).head? ≠ some '/' := by
  obtain ⟨more, hmore⟩ := hparts
  have hwhole : ['/'].intercalate (parts ++ more) = text := by
    rw [hmore, List.intercalate_splitOn]
  intro hhead
  cases parts with
  | nil => cases hhead
  | cons first rest =>
    cases first with
    | cons letter word =>
      have hpiece : letter :: word ∈ text.splitOn '/' := by
        rw [← hmore]
        exact List.mem_cons_self ..
      have hslash := notMem_of_mem_splitOn hpiece
      cases rest <;> simp_all [List.intercalate_cons_cons]
    | nil =>
      cases rest with
      | nil => cases hhead
      | cons second rest =>
        rw [List.cons_append, List.cons_append, List.intercalate_cons_cons] at hwhole
        exact htext (by rw [← hwhole]; rfl)

/-- The path that is left when pieces are taken off the end begins where the whole path does. -/
theorem start_ofList {path : String} {parts : List (List Char)}
    (hparts : parts <+: (split path).2) :
    start base (String.ofList ((split path).1 ++ ['/'].intercalate parts)) = start base path := by
  rcases split_cases path with ⟨hrelative, hsplit⟩ | ⟨rest, htext, hsplit⟩ | ⟨htext, hsplit⟩ |
    ⟨rest, htext, hsplit⟩ <;> rw [hsplit] at hparts ⊢
  · have hhead : path.toList.head? ≠ some '/' := by simpa [isAbsolute] using hrelative
    have hfront := head?_intercalate_ne hparts hhead
    rw [start, start, hrelative, isAbsolute, String.toList_ofList, List.nil_append]
    rw [beq_eq_false_iff_ne.mpr hfront]
  all_goals
    refine start_congr ?_
    rw [String.toList_ofList, htext]
    rfl

/-- The path that is left when pieces are taken off the end leads to where those before do. -/
theorem landing_ofList {path : String} {parts : List (List Char)}
    (hparts : parts <+: (split path).2) :
    landing base (String.ofList ((split path).1 ++ ['/'].intercalate parts)) =
      lead (start base path) parts := by
  have hslash : ∀ piece ∈ parts, '/' ∉ piece := fun piece h =>
    notMem_of_mem_split (hparts.subset h)
  rw [landing_eq, start_ofList hparts, String.toList_ofList]
  rcases split_cases path with ⟨-, hsplit⟩ | ⟨rest, -, hsplit⟩ | ⟨-, hsplit⟩ |
    ⟨rest, -, hsplit⟩ <;> simp only [hsplit] at hparts ⊢
  · exact lead_splitOn_intercalate hslash _
  · rw [List.singleton_append, List.splitOn_cons_eq_if_modifyHead, if_pos (by rfl)]
    exact lead_splitOn_intercalate hslash _
  · exact lead_splitOn_point hparts hslash _
  · exact lead_splitOn_point hparts hslash _

/-- A path whose last piece is a name leads to that name from where its parent leads. -/
theorem exists_parent_of_fileName? {path name : String} (h : fileName? path = some name) :
    isName name = true ∧ ∃ directory, parent? path = some directory ∧
      ∀ base, landing base path = landing base directory ++ [name] := by
  unfold fileName? at h
  split at h
  · cases h
  · rename_i piece rest hpieces
    split at h
    · cases h
    · rename_i hdots
      obtain rfl : String.ofList piece = name := Option.some.inj h
      have hsuffix : piece :: rest <:+ (split path).2.reverse :=
        hpieces ▸ List.dropWhile_suffix isIdle
      have hidle : isIdle piece = false := by
        have hhead := List.head?_dropWhile_not isIdle (split path).2.reverse
        rw [← piecesFromEnd, hpieces] at hhead
        exact hhead
      have hslash : '/' ∉ piece :=
        notMem_of_mem_split (List.mem_reverse.mp (hsuffix.subset (List.mem_cons_self ..)))
      have hname := isName_ofList hidle hdots hslash
      have hprefix : (rest.dropWhile isIdle).reverse <+: (split path).2 := by
        rw [← List.reverse_suffix, List.reverse_reverse]
        exact (List.dropWhile_suffix isIdle).trans ((List.suffix_cons piece rest).trans hsuffix)
      refine ⟨hname, _, by rw [parent?, hpieces], fun base => ?_⟩
      have hlanding : landing base path = lead (start base path) (piece :: rest).reverse := by
        rw [← hpieces, piecesFromEnd, lead_dropWhile_isIdle, List.reverse_reverse, landing]
      rw [landing_ofList hprefix, lead_dropWhile_isIdle, hlanding, List.reverse_cons,
        lead_append, ← step_of_isName hname, String.toList_ofList]
      rfl

end FileTree

end TranslitScheme
