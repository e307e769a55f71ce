import TranslitScheme.Files.Path
import TranslitScheme.Files.System

/-!
# Files on disk

The file system of the machine. This is part of the outer layer: nothing is decided here, and
failures of the operating system are passed on by their codes.
-/

namespace TranslitScheme

namespace FileError

/-- The number of a failure, which some operations of the system negate. -/
def systemNumber (code : UInt32) : Nat :=
  if code.toNat < 2147483648 then code.toNat else 4294967296 - code.toNat

/-- The failure that the operating system reports. -/
def ofSystem : IO.Error → FileError
  | .noFileOrDirectory _ _ _ => .notFound
  | .alreadyExists _ _ _ => .alreadyExists
  | .inappropriateType _ code _ =>
    if systemNumber code = 20 then .notADirectory else .isADirectory
  | .invalidArgument _ code details =>
    if systemNumber code = 36 then .nameTooLong
    else .other (details ++ " (os error " ++ toString (systemNumber code) ++ ")")
  | .permissionDenied _ _ _ => .other "Permission denied (os error 13)"
  | failure => .other (toString failure)

end FileError

namespace Disk

/-- The outcome of an action, with the failure of the operating system if there is one. -/
def attempt {α : Type} (action : IO α) : IO (Except FileError α) := do
  try return .ok (← action)
  catch failure => return .error (.ofSystem failure)

/-- A path leads to a file. -/
def isFile (path : String) : IO Bool := do
  try return (← (System.mkFilePath [path]).metadata).type == .file
  catch _ => return false

/-- A path leads to a directory. -/
def isDirectory (path : String) : IO Bool := (System.mkFilePath [path]).isDir

/-- The text of a file, which must be encoded in UTF-8. -/
def readText (path : String) : IO (Except FileError String) := do
  match ← attempt (IO.FS.readBinFile path) with
  | .error failure => return .error failure
  | .ok bytes =>
    match String.fromUTF8? bytes with
    | some text => return .ok text
    | none => return .error (.other "stream did not contain valid UTF-8")

/-- The kind of what is at a path, without going where a symbolic link points. -/
def kind? (path : String) : IO (Option IO.FS.FileType) := do
  try return some (← (System.mkFilePath [path]).symlinkMetadata).type
  catch _ => return none

/-- The paths of all files below a directory, each directory in the order of its names. Symbolic
links are passed over. -/
partial def filesBelow (directory : String) : IO (List String) := do
  match ← attempt (System.mkFilePath [directory]).readDir with
  | .error _ => return []
  | .ok entries =>
    let names := (entries.map fun entry => entry.fileName).toList.mergeSort
    let found ← names.mapM fun name => do
      let path := Path.join directory name
      match ← kind? path with
      | some .dir => filesBelow path
      | some .file => return [path]
      | _ => return []
    return found.flatten

instance : FileSystem IO where
  isFile := isFile
  isDirectory := isDirectory
  filesBelow := filesBelow
  readText := readText
  writeText path text := attempt (IO.FS.writeFile path text)
  createDirectory path := attempt (IO.FS.createDir path)

end Disk

end TranslitScheme
