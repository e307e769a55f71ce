import TranslitScheme.Files.Path
import TranslitScheme.Files.System

/-!
# Trees of files

A file system in memory. Files and directories are known by the names that lead to them from
the root, and every directory on the way to a file exists. Paths that do not begin at the root
begin at the working directory, which exists like the directories above it.

Whatever is done with a path, it is followed to the directory that its last name is in. Only
then does it matter what has that name there, if anything.
-/

namespace TranslitScheme

/-- The names that lead from the root to a file or directory. -/
abbrev Trail := List String

/-- Files with their texts, and directories. -/
structure FileTree where
  files : List (Trail × String) := []
  directories : List Trail := []
  workingDirectory : Trail := []
  deriving DecidableEq, Repr, Inhabited

namespace FileTree

/-- Where a path leads. -/
inductive Place where
  /-- The path ends at a directory without naming it. -/
  | here (directory : Trail)
  /-- The path ends with a name in a directory. -/
  | named (directory : Trail) (name : String) (endsInSlash : Bool)
  deriving DecidableEq, Repr, Inhabited

/-- What has a name in a directory. -/
inductive Entry where
  | file (text : String)
  | directory
  | nothing
  deriving DecidableEq, Repr, Inhabited

/-- The longest name of a file or directory, in UTF-8 bytes. -/
def maxNameBytes : Nat := 255

/-- The longest path that can be followed, in UTF-8 bytes. -/
def maxPathBytes : Nat := 4095

/-- There is a directory at the end of a trail. -/
def hasDirectory (tree : FileTree) (trail : Trail) : Bool :=
  trail.isPrefixOf tree.workingDirectory || tree.directories.contains trail

/-- The directory above. The root is above itself. -/
def above (trail : Trail) : Trail := trail.dropLast

/-- What is at the end of a trail. -/
def entryAt (tree : FileTree) (trail : Trail) : Entry :=
  if tree.hasDirectory trail then .directory
  else
    match tree.files.lookup trail with
    | some text => .file text
    | none => .nothing

/-- What has a name in a directory, if there can be such a name. -/
def entry (tree : FileTree) (directory : Trail) (name : String) : Except FileError Entry :=
  if name.utf8ByteSize > maxNameBytes then .error .nameTooLong
  else .ok (tree.entryAt (directory ++ [name]))

/-- Follow the pieces of a path from a directory. -/
def follow (tree : FileTree) (directory : Trail) : List (List Char) → Except FileError Place
  | [] => .ok (.here directory)
  | piece :: rest =>
    if Path.isIdle piece then tree.follow directory rest
    else if piece = ['.', '.'] then tree.follow (above directory) rest
    else if rest.all (· == []) then .ok (.named directory (String.ofList piece) (!rest.isEmpty))
    else
      match tree.entry directory (String.ofList piece) with
      | .error failure => .error failure
      | .ok .directory => tree.follow (directory ++ [String.ofList piece]) rest
      | .ok (.file _) => .error .notADirectory
      | .ok .nothing => .error .notFound

/-- The directory at which a path begins. -/
def start (workingDirectory : Trail) (path : String) : Trail :=
  if Path.isAbsolute path then [] else workingDirectory

/-- Where a path leads, if it can be followed. -/
def find (tree : FileTree) (path : String) : Except FileError Place :=
  if path.toList.contains '\x00' then .error .nulInName
  else if path.utf8ByteSize > maxPathBytes then .error .nameTooLong
  else if path = "" then .error .notFound
  else tree.follow (start tree.workingDirectory path) (Path.split path).2

/-- The directory that a path leads to. -/
def directoryAt? (tree : FileTree) (path : String) : Option Trail :=
  match tree.find path with
  | .ok (.here directory) => some directory
  | .ok (.named directory name _) =>
    match tree.entry directory name with
    | .ok .directory => some (directory ++ [name])
    | _ => none
  | .error _ => none

/-- The text of the file that a path leads to. -/
def readText (tree : FileTree) (path : String) : Except FileError String := do
  match ← tree.find path with
  | .here _ => .error .isADirectory
  | .named directory name endsInSlash =>
    match ← tree.entry directory name with
    | .file text => if endsInSlash then .error .notADirectory else return text
    | .directory => .error .isADirectory
    | .nothing => .error .notFound

/-- Put a file in place of the one at the end of a trail, or add it. -/
def putFile (tree : FileTree) (trail : Trail) (text : String) : FileTree :=
  if (tree.files.lookup trail).isSome then
    { tree with
      files := tree.files.map fun file => if file.1 = trail then (trail, text) else file }
  else { tree with files := tree.files ++ [(trail, text)] }

/-- Write a text to the file that a path leads to. -/
def writeText (tree : FileTree) (path text : String) : Except FileError FileTree := do
  match ← tree.find path with
  | .here _ => .error .isADirectory
  | .named _ _ true => .error .isADirectory
  | .named directory name false =>
    match ← tree.entry directory name with
    | .directory => .error .isADirectory
    | _ => return tree.putFile (directory ++ [name]) text

/-- Make the directory that a path leads to. -/
def createDirectory (tree : FileTree) (path : String) : Except FileError FileTree := do
  match ← tree.find path with
  | .here _ => .error .alreadyExists
  | .named directory name _ =>
    match ← tree.entry directory name with
    | .nothing => return { tree with directories := tree.directories ++ [directory ++ [name]] }
    | _ => .error .alreadyExists

/-- A path leads to a directory. -/
def isDirectory (tree : FileTree) (path : String) : Bool := (tree.directoryAt? path).isSome

/-- A path leads to a file. -/
def isFile (tree : FileTree) (path : String) : Bool := (tree.readText path).isOk

/-- One trail comes before another when it does so at the first name that differs. -/
def precedes : Trail → Trail → Bool
  | [], _ => true
  | _ :: _, [] => false
  | a :: rest, b :: others => if a = b then precedes rest others else decide (a < b)

/-- The rest of a trail behind the trail of a directory. -/
def trailBelow? : Trail → Trail → Option Trail
  | [], trail => some trail
  | _ :: _, [] => none
  | name :: directory, other :: trail => if name = other then trailBelow? directory trail else none

/-- The paths of all files below the directory that a path leads to. A directory whose own
path cannot be followed is passed over. -/
def filesBelow (tree : FileTree) (path : String) : List String :=
  match tree.directoryAt? path with
  | some directory =>
    let trails := (tree.files.filterMap fun file => trailBelow? directory file.1).mergeSort precedes
    let reached := trails.filter fun trail =>
      decide ((trail.dropLast.foldl Path.join path).utf8ByteSize ≤ maxPathBytes)
    reached.map fun trail => trail.foldl Path.join path
  | none => []

/-- Run an operation that may change the tree. -/
def change (operation : FileTree → Except FileError FileTree) :
    StateM FileTree (Except FileError Unit) :=
  fun tree => match operation tree with
    | .ok changed => (.ok (), changed)
    | .error failure => (.error failure, tree)

instance : FileSystem (StateM FileTree) where
  isFile path := fun tree => (tree.isFile path, tree)
  isDirectory path := fun tree => (tree.isDirectory path, tree)
  filesBelow path := fun tree => (tree.filesBelow path, tree)
  readText path := fun tree => (tree.readText path, tree)
  writeText path text := change fun tree => tree.writeText path text
  createDirectory path := change fun tree => tree.createDirectory path

/-- Put a file into the tree, with the directories on the way to it, as far as that is possible. -/
def addFile (path text : String) : StateM FileTree Unit := do
  match Path.parent? path with
  | some directory => discard (FileSystem.createDirectories directory)
  | none => pure ()
  discard (FileSystem.writeText path text)

/-- The tree that holds files at the given paths, and the directories on the way to them. -/
def ofFiles (workingDirectory : Trail) (files : List (String × String)) : FileTree :=
  ((files.forM fun file => addFile file.1 file.2).run { workingDirectory }).2

end FileTree

end TranslitScheme
