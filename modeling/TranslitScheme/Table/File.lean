import TranslitScheme.Files.System
import TranslitScheme.Table.Document

/-!
# Table files

A table is loaded from the text of a file. Either the file cannot be read, or its text is not
a stored table; the two are told apart.
-/

namespace TranslitScheme

/-- Why a table cannot be loaded or saved. -/
inductive TableError where
  | io (failure : FileError)
  | malformed (reason : String)
  deriving DecidableEq, Repr, Inhabited

namespace TableError

/-- What is wrong, without the kind of failure. -/
def reason : TableError → String
  | io failure => failure.message
  | malformed reason => reason

/-- The message of a failure. -/
def message (failure : TableError) : String :=
  match failure with
  | io _ => "IO error: " ++ failure.reason
  | malformed _ => "JSON error: " ++ failure.reason

end TableError

namespace Table

/-- The table of a file, from what was read of it. -/
def ofFile (contents : Except FileError String) : Except TableError Table :=
  match contents with
  | .error failure => .error (.io failure)
  | .ok text =>
    match parse? text with
    | some table => .ok table
    | none => .error (.malformed (complaint text))

end Table

end TranslitScheme
