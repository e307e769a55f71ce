/-!
# Paths

A path is a text of pieces with slashes between them. A slash or a single point at the very
start has a meaning of its own; blank pieces and further single points are idle. Idle pieces
stay in the text of a path unless they are at its end when something is taken off there.
-/

namespace TranslitScheme.Path

/-- The start of a path that has a meaning only there, and the pieces of the rest. -/
def split (path : String) : List Char × List (List Char) :=
  match path.toList with
  | '/' :: rest => (['/'], rest.splitOn '/')
  | ['.'] => (['.'], [[]])
  | '.' :: '/' :: rest => (['.'], ('/' :: rest).splitOn '/')
  | text => ([], text.splitOn '/')

/-- A piece that leads nowhere. -/
def isIdle (piece : List Char) : Bool := piece == [] || piece == ['.']

/-- The pieces of a path from the last to the first, beginning with one that is not idle. -/
def piecesFromEnd (path : String) : List (List Char) :=
  (split path).2.reverse.dropWhile isIdle

/-- The path without its last piece. -/
def parent? (path : String) : Option String :=
  match piecesFromEnd path with
  | [] => if (split path).1 = ['.'] then some "" else none
  | _ :: rest =>
    some (String.ofList
      ((split path).1 ++ ['/'].intercalate (rest.dropWhile isIdle).reverse))

/-- The last piece of a path, when it is a name. -/
def fileName? (path : String) : Option String :=
  match piecesFromEnd path with
  | [] => none
  | piece :: _ => if piece = ['.', '.'] then none else some (String.ofList piece)

/-- A file name without its extension. A name whose only point is its first character has
none. -/
def withoutExtension (name : String) : String :=
  match (name.toList.reverse.dropWhile (· != '.')).drop 1 with
  | [] => name
  | before => String.ofList before.reverse

/-- The last piece of a path without its extension. -/
def fileStem? (path : String) : Option String := (fileName? path).map withoutExtension

/-- A path begins at the root. -/
def isAbsolute (path : String) : Bool := path.toList.head? == some '/'

/-- Put a path behind a directory; an absolute path takes its place. -/
def join (directory path : String) : String :=
  if isAbsolute path ∨ directory = "" then path
  else if directory.toList.getLast? = some '/' then directory ++ path
  else directory ++ "/" ++ path

end TranslitScheme.Path
