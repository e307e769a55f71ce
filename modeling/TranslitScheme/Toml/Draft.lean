import TranslitScheme.Toml.Text
import TranslitScheme.Toml.Basic

/-!
# Tables under construction

The entries of a TOML document arrive one by one and may reach into tables from several
places. Which of that is allowed depends on how a table came to be: under its own header, on
the way to another header, or on the way of a key with points. A table is defined at most
once, though a table that was only passed on the way to a header may still get its own one,
which then counts as its place among its siblings.
-/

namespace TranslitScheme.Toml

/-- How a table came to be. -/
inductive Origin where
  /-- It has a header, or is an element of an array of tables, or the document. -/
  | defined
  /-- It is on the way to a header. -/
  | passed
  /-- It is on the way of a key with points. -/
  | dotted
  deriving DecidableEq, Repr, Inhabited

/-- A value, a table that may still grow, or an array of such tables. -/
inductive Draft where
  | leaf (value : Toml)
  | table (origin : Origin) (entries : List (String × Draft))
  | tables (elements : List (List (String × Draft)))
  deriving Repr, Inhabited

/-- The entries of a table under construction. -/
abbrev Entries := List (String × Draft)

namespace Entries

/-- Put a draft in place of the one under a given key. -/
def replace (key : String) (draft : Draft) (entries : Entries) : Entries :=
  entries.map fun entry => if entry.1 = key then (key, draft) else entry

/-- Edit the table at the end of a path, making the tables that are missing on the way.

An array of tables is entered through its last element. A path of a key with points must not
lead through a table that has been defined. -/
def editAt (way : Origin) (edit : Origin → Entries → Option Entries) :
    List String → Origin → Entries → Option Entries
  | [], origin, entries => edit origin entries
  | key :: rest, _, entries =>
    match entries.lookup key with
    | none => do
      let inner ← editAt way edit rest way []
      return entries ++ [(key, .table way inner)]
    | some (.leaf _) => none
    | some (.table origin inner) =>
      if way = .dotted ∧ origin = .defined then none
      else do
        let inner ← editAt way edit rest origin inner
        return replace key (.table origin inner) entries
    | some (.tables elements) => do
      let inner ← editAt way edit rest .defined (elements.getLastD [])
      return replace key (.tables (elements.dropLast ++ [inner])) entries

/-- Add a value under a key that is new in its table.

The table that a key with points leads to must have come to be by such keys only. -/
def insert (key : Key) (value : Toml) (entries : Entries) : Option Entries :=
  editAt .dotted
    (fun origin entries =>
      if (origin == .dotted) == key.path.isEmpty then none
      else if (entries.lookup key.name).isSome then none
      else some (entries ++ [(key.name, .leaf value)]))
    key.path .defined entries

/-- Begin a table under its own header. -/
def defineTable (key : Key) (entries : Entries) : Option Entries :=
  editAt .passed
    (fun _ entries =>
      match entries.lookup key.name with
      | none => some (entries ++ [(key.name, .table .defined [])])
      | some (.table .passed inner) =>
        some ((entries.filter fun entry => entry.1 ≠ key.name) ++
          [(key.name, .table .defined inner)])
      | _ => none)
    key.path .defined entries

/-- Begin another element of an array of tables. -/
def addElement (key : Key) (entries : Entries) : Option Entries :=
  editAt .passed
    (fun _ entries =>
      match entries.lookup key.name with
      | none => some (entries ++ [(key.name, .tables [[]])])
      | some (.tables elements) => some (replace key.name (.tables (elements ++ [[]])) entries)
      | _ => none)
    key.path .defined entries

/-- Add a value under a key in the table at the end of a path of headers. -/
def insertAt (header : List String) (key : Key) (value : Toml) (entries : Entries) :
    Option Entries :=
  editAt .passed (fun _ entries => insert key value entries) header .defined entries

end Entries

namespace Draft

mutual

/-- The finished value of a draft. -/
def toToml : Draft → Toml
  | leaf value => value
  | table _ entries => .table (entriesToToml entries)
  | tables elements => .arr (elementsToToml elements)

/-- The finished entries of a table. -/
def entriesToToml : List (String × Draft) → List (String × Toml)
  | [] => []
  | (key, draft) :: rest => (key, toToml draft) :: entriesToToml rest

/-- The finished elements of an array of tables. -/
def elementsToToml : List (List (String × Draft)) → List Toml
  | [] => []
  | entries :: rest => .table (entriesToToml entries) :: elementsToToml rest

end

end Draft

/-- One statement of a document. -/
inductive Statement where
  | entry (key : Key) (value : Toml)
  | tableHeader (key : Key)
  | elementHeader (key : Key)
  deriving Repr, Inhabited

/-- Carry out statements in order; `header` is the path to the table that entries go to. -/
def build : List Statement → (header : List String) → Entries → Option Entries
  | [], _, entries => some entries
  | .entry key value :: rest, header, entries => do
    build rest header (← entries.insertAt header key value)
  | .tableHeader key :: rest, _, entries => do
    build rest (key.path ++ [key.name]) (← entries.defineTable key)
  | .elementHeader key :: rest, _, entries => do
    build rest (key.path ++ [key.name]) (← entries.addElement key)

end TranslitScheme.Toml
