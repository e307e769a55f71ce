import TranslitScheme.Files.Path

/-!
# File systems

What the command line asks of the files around it. The operations are those of any file
system, so the same commands run on real files and on a tree of files in memory.

A directory is made together with those above it that are missing. They are looked for from
the path upwards, so nothing is made when the path fails for another reason.
-/

namespace TranslitScheme

/-- Why an operation on files fails. -/
inductive FileError where
  | notFound
  | alreadyExists
  | notADirectory
  | isADirectory
  | nameTooLong
  | nulInName
  | other (text : String)
  deriving DecidableEq, Repr, Inhabited

namespace FileError

/-- The message of a failure. -/
def message : FileError → String
  | notFound => "No such file or directory (os error 2)"
  | alreadyExists => "File exists (os error 17)"
  | notADirectory => "Not a directory (os error 20)"
  | isADirectory => "Is a directory (os error 21)"
  | nameTooLong => "File name too long (os error 36)"
  | nulInName => "file name contained an unexpected NUL byte"
  | other text => text

end FileError

/-- A monad in which files can be read and written. -/
class FileSystem (m : Type → Type) where
  /-- A path leads to a file. -/
  isFile : String → m Bool
  /-- A path leads to a directory. -/
  isDirectory : String → m Bool
  /-- The paths of all files below a directory, each directory in the order of its names. -/
  filesBelow : String → m (List String)
  /-- The text of a file. -/
  readText : String → m (Except FileError String)
  /-- Write a text to a file, in place of what it held. -/
  writeText : String → String → m (Except FileError Unit)
  /-- Make a directory in one that exists. -/
  createDirectory : String → m (Except FileError Unit)

namespace FileSystem

variable {m : Type → Type} [Monad m] [FileSystem m]

/-- The outcome of making a directory, when it may have existed before. -/
def acceptExisting (path : String) (made : Except FileError Unit) : m (Except FileError Unit) :=
  match made with
  | .ok () => pure (.ok ())
  | .error failure => do
    if ← isDirectory path then return .ok () else return .error failure

/-- Make a directory and those above it, going up at most `bound` times. -/
def createDirectoriesUpTo : (bound : Nat) → String → m (Except FileError Unit)
  | 0, path => do acceptExisting path (← createDirectory path)
  | bound + 1, path => do
    if path = "" then return .ok ()
    else
      match ← createDirectory path with
      | .error .notFound =>
        match Path.parent? path with
        | none => return .error .notFound
        | some above =>
          match ← createDirectoriesUpTo bound above with
          | .error failure => return .error failure
          | .ok () => acceptExisting path (← createDirectory path)
      | made => acceptExisting path made

/-- Make a directory and those above it that are missing. -/
def createDirectories (path : String) : m (Except FileError Unit) :=
  createDirectoriesUpTo path.length path

end FileSystem

end TranslitScheme
