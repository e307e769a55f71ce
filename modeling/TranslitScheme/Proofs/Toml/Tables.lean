import TranslitScheme.Proofs.Toml.Statements
import Mathlib.Data.List.Nodup

/-!
# Written documents are read back

A block is a header with the entries below it. When the blocks of a document begin with different
keys, each header begins a table at the end of the document, and the entries below it are added to
that table. So what a written document describes can be told block by block, which is what
`parse?_written` does.

The table that an entry goes to is found anew each time by its path. `Focus` says that a path leads
to a place in a document, whatever stands there.
-/

namespace TranslitScheme.Toml

/-- The statement that gives a key a value in the table that statements are about. -/
def entryStatement (pair : String × Toml) : Statement := .entry ⟨[], pair.1⟩ pair.2

/-- The entries that hold given values. -/
def leaves (pairs : List (String × Toml)) : Entries := pairs.map fun pair => (pair.1, .leaf pair.2)

/-- The entry of a table that has its own header, inside those that are on the way to it. -/
def nested (path : List String) (name : String) (inner : Entries) : String × Draft :=
  match path with
  | [] => (name, .table .defined inner)
  | key :: path => (key, .table .passed [nested path name inner])

/-- A table as it is read, inside those that are on the way to it. -/
def wrapped (path : List String) (name : String) (pairs : List (String × Toml)) : String × Toml :=
  match path with
  | [] => (name, .table pairs)
  | key :: path => (key, .table [wrapped path name pairs])

/-- The first key of a path to a name. -/
def firstKey (path : List String) (name : String) : String := path.headD name

namespace Entries

/-- A key that no entry has is not found. -/
theorem lookup_of_notMem {key : String} {entries : Entries} (h : key ∉ entries.map Prod.fst) :
    entries.lookup key = none := by
  rw [List.lookup_eq_none_iff]
  intro entry hentry
  have hne : key ≠ entry.1 := fun heq => h (heq ▸ List.mem_map_of_mem hentry)
  simpa using hne

/-- The last entry is found when no other one has its key. -/
theorem lookup_append_singleton {key : String} {front : Entries} (hfront : key ∉ front.map Prod.fst)
    (draft : Draft) : (front ++ [(key, draft)]).lookup key = some draft := by
  simp [List.lookup_append, lookup_of_notMem hfront]

/-- The draft of the last entry is replaced when no other one has its key. -/
theorem replace_append_singleton {key : String} {front : Entries}
    (hfront : key ∉ front.map Prod.fst) (draft other : Draft) :
    replace key draft (front ++ [(key, other)]) = front ++ [(key, draft)] := by
  have hkept : front.map (fun entry => if entry.1 = key then (key, draft) else entry) = front := by
    refine (List.map_congr_left fun entry hentry => ?_).trans (List.map_id front)
    have hne : entry.1 ≠ key := fun heq => hfront (heq ▸ List.mem_map_of_mem hentry)
    rw [if_neg hne]
    rfl
  rw [replace, List.map_append, hkept]
  simp

/-- A table at the end of a document is edited when no other entry has its key. -/
theorem editAt_append_singleton (edit : Origin → Entries → Option Entries) {key : String}
    {front : Entries} (hfront : key ∉ front.map Prod.fst) (path : List String)
    (origin outer : Origin) (inner : Entries) :
    editAt .passed edit (key :: path) outer (front ++ [(key, .table origin inner)]) =
      (editAt .passed edit path origin inner).map fun inner =>
        front ++ [(key, .table origin inner)] := by
  rw [editAt, lookup_append_singleton hfront]
  dsimp only
  rw [if_neg (by simp)]
  cases editAt .passed edit path origin inner with
  | none => rfl
  | some left =>
    change some (replace key _ _) = _
    rw [replace_append_singleton hfront]
    rfl

/-- A value is added under a key that is new. -/
theorem insert_of_notMem {key : String} {entries : Entries} (h : key ∉ entries.map Prod.fst)
    (value : Toml) : insert ⟨[], key⟩ value entries = some (entries ++ [(key, .leaf value)]) := by
  simp [insert, editAt, lookup_of_notMem h]

end Entries

/-- A path of headers leads to a place in a document. -/
def Focus (header : List String) (document : Entries → Entries) : Prop :=
  ∀ (edit : Origin → Entries → Option Entries) (inner : Entries),
    Entries.editAt .passed edit header .defined (document inner) =
      (edit .defined inner).map document

/-- No path at all leads to the document itself. -/
theorem focus_nil : Focus [] fun inner => inner := by
  intro edit inner
  rw [Entries.editAt, Option.map_id']

/-- The table that was begun by its header at the end of a document is edited by its path. -/
theorem editAt_nested (edit : Origin → Entries → Option Entries) {front : Entries}
    {path : List String} {name : String} (hfront : firstKey path name ∉ front.map Prod.fst)
    (outer : Origin) (inner : Entries) :
    Entries.editAt .passed edit (path ++ [name]) outer (front ++ [nested path name inner]) =
      (edit .defined inner).map fun inner => front ++ [nested path name inner] := by
  induction path generalizing front outer with
  | nil => exact Entries.editAt_append_singleton edit hfront [] .defined outer inner
  | cons key path ih =>
    have hkey : key ∉ front.map Prod.fst := hfront
    have hinner := ih (show firstKey path name ∉ ([] : Entries).map Prod.fst from nofun) .passed
    rw [List.nil_append] at hinner
    rw [List.cons_append, nested, Entries.editAt_append_singleton edit hkey, hinner]
    cases edit .defined inner <;> rfl

/-- A path leads to the table that was begun by its header at the end of a document. -/
theorem focus_nested {front : Entries} {path : List String} {name : String}
    (hfront : firstKey path name ∉ front.map Prod.fst) :
    Focus (path ++ [name]) fun inner => front ++ [nested path name inner] :=
  fun edit inner => editAt_nested edit hfront .defined inner

/-- Entries with new keys are added to the table that their path leads to. -/
theorem build_entries {header : List String} {document : Entries → Entries}
    (hfocus : Focus header document) {inner : Entries} {pairs : List (String × Toml)}
    (hnodup : (inner.map Prod.fst ++ pairs.map Prod.fst).Nodup) (rest : List Statement) :
    build (pairs.map entryStatement ++ rest) header (document inner) =
      build rest header (document (inner ++ leaves pairs)) := by
  induction pairs generalizing inner with
  | nil => simp [leaves]
  | cons pair pairs ih =>
    obtain ⟨key, value⟩ := pair
    have hnew : key ∉ inner.map Prod.fst := by
      intro hmem
      exact (List.nodup_append'.mp hnodup).2.2 hmem List.mem_cons_self
    have hinserted : Entries.insertAt header ⟨[], key⟩ value (document inner) =
        some (document (inner ++ [(key, .leaf value)])) := by
      rw [Entries.insertAt, hfocus, Entries.insert_of_notMem hnew, Option.map_some]
    rw [List.map_cons, List.cons_append, entryStatement, build, hinserted, Option.bind_eq_bind,
      Option.bind_some, ih (by simpa using hnodup), List.append_assoc]
    rfl

/-- What the header of a name does in the table above, unless a value stands in its way. -/
def beginTable (name : String) (_ : Origin) (entries : Entries) : Option Entries :=
  match entries.lookup name with
  | none => some (entries ++ [(name, .table .defined [])])
  | some (.table .passed inner) =>
    some ((entries.filter fun entry => entry.1 ≠ name) ++ [(name, .table .defined inner)])
  | _ => none

/-- A table is begun at the end of a path that is not there yet. -/
theorem editAt_beginTable {entries : Entries} {path : List String} {name : String}
    (h : firstKey path name ∉ entries.map Prod.fst) (outer : Origin) :
    Entries.editAt .passed (beginTable name) path outer entries =
      some (entries ++ [nested path name []]) := by
  induction path generalizing entries outer with
  | nil =>
    have hname : name ∉ entries.map Prod.fst := h
    rw [Entries.editAt, beginTable, Entries.lookup_of_notMem hname]
    rfl
  | cons key path ih =>
    have hkey : key ∉ entries.map Prod.fst := h
    rw [Entries.editAt, Entries.lookup_of_notMem hkey, ih List.not_mem_nil]
    rfl

/-- A header begins a new table at the end of a document. -/
theorem defineTable_of_notMem {entries : Entries} {path : List String} {name : String}
    (h : firstKey path name ∉ entries.map Prod.fst) :
    entries.defineTable ⟨path, name⟩ = some (entries ++ [nested path name []]) :=
  editAt_beginTable h .defined

/-- A header and the entries below it add a table to the end of a document. -/
theorem build_table {entries : Entries} {path : List String} {name : String}
    (hnew : firstKey path name ∉ entries.map Prod.fst) {pairs : List (String × Toml)}
    (hnodup : (pairs.map Prod.fst).Nodup) (rest : List Statement) (header : List String) :
    build (.tableHeader ⟨path, name⟩ :: (pairs.map entryStatement ++ rest)) header entries =
      build rest (path ++ [name]) (entries ++ [nested path name (leaves pairs)]) := by
  rw [build, defineTable_of_notMem hnew, Option.bind_eq_bind, Option.bind_some]
  exact build_entries (focus_nested hnew) (by simpa using hnodup) rest

/-! ### Blocks -/

/-- A header and the entries below it. -/
structure Block where
  path : List String
  name : String
  pairs : List (String × Toml)
  deriving Repr, Inhabited

namespace Block

/-- The key of a block in the document. -/
def key (block : Block) : String := firstKey block.path block.name

/-- The statements of a block. -/
def statements (block : Block) : List Statement :=
  .tableHeader ⟨block.path, block.name⟩ :: block.pairs.map entryStatement

/-- The entry of a block while the document is built. -/
def draft (block : Block) : String × Draft := nested block.path block.name (leaves block.pairs)

/-- The entry of a block in the document. -/
def entry (block : Block) : String × Toml := wrapped block.path block.name block.pairs

end Block

/-- The first key of a path is the one under which the table stands. -/
theorem fst_nested (path : List String) (name : String) (inner : Entries) :
    (nested path name inner).1 = firstKey path name := by
  cases path <;> rfl

/-- Blocks with different first keys add one entry each. -/
theorem build_blocks {entries : Entries} {blocks : List Block}
    (hkeys : (entries.map Prod.fst ++ blocks.map Block.key).Nodup)
    (hpairs : ∀ block ∈ blocks, (block.pairs.map Prod.fst).Nodup) (header : List String) :
    build (blocks.flatMap Block.statements) header entries =
      some (entries ++ blocks.map Block.draft) := by
  induction blocks generalizing entries header with
  | nil => simp [build]
  | cons block blocks ih =>
    rw [List.forall_mem_cons] at hpairs
    have hnew : block.key ∉ entries.map Prod.fst := by
      intro hmem
      exact (List.nodup_append'.mp hkeys).2.2 hmem List.mem_cons_self
    have hadded : ((entries ++ [block.draft]).map Prod.fst ++ blocks.map Block.key).Nodup := by
      simpa [Block.draft, Block.key, fst_nested] using hkeys
    rw [List.flatMap_cons, Block.statements, List.cons_append, build_table hnew hpairs.1]
    refine (ih hadded hpairs.2 _).trans ?_
    rw [List.append_assoc]
    rfl

/-! ### Finished entries -/

/-- The entries of a table are finished one by one. -/
theorem entriesToToml_eq_map (entries : Entries) :
    Draft.entriesToToml entries = entries.map fun entry => (entry.1, entry.2.toToml) := by
  induction entries with
  | nil => rfl
  | cons entry rest ih =>
    obtain ⟨key, draft⟩ := entry
    rw [Draft.entriesToToml, ih]
    rfl

/-- Values are finished already. -/
theorem entriesToToml_leaves (pairs : List (String × Toml)) :
    Draft.entriesToToml (leaves pairs) = pairs := by
  rw [entriesToToml_eq_map, leaves, List.map_map]
  exact List.map_id pairs

/-- A table is finished with those that are on the way to it. -/
theorem toToml_nested (path : List String) (name : String) (pairs : List (String × Toml)) :
    ((nested path name (leaves pairs)).1, (nested path name (leaves pairs)).2.toToml) =
      wrapped path name pairs := by
  induction path with
  | nil => rw [nested, Draft.toToml, entriesToToml_leaves, wrapped]
  | cons key path ih =>
    rw [nested, Draft.toToml, entriesToToml_eq_map, List.map_singleton, ih, wrapped]

/-- A document is finished with one entry for each pair and each block. -/
theorem entriesToToml_document (pairs : List (String × Toml)) (blocks : List Block) :
    Draft.entriesToToml (leaves pairs ++ blocks.map Block.draft) =
      pairs ++ blocks.map Block.entry := by
  have hpairs := entriesToToml_leaves pairs
  rw [entriesToToml_eq_map] at hpairs
  rw [entriesToToml_eq_map, List.map_append, hpairs, List.map_map]
  congr 1
  exact List.map_congr_left fun block _ => toToml_nested block.path block.name block.pairs

/-! ### Documents -/

/-- Values with keys are written line by line. -/
theorem written_map {α : Type} (items : List α) (key : α → String) {value : α → Toml}
    {written : α → List Char} (h : ∀ item, ReadsBack (value item) (written item)) :
    List.Forall₂ Written (items.map fun item => entryStatement (key item, value item))
      (items.map fun item => writeEntry (key item) (written item)) := by
  rw [List.forall₂_map_left_iff, List.forall₂_map_right_iff, List.forall₂_same]
  exact fun item _ => .entry (key item) (h item)

/-- No written statement begins with a byte order mark. -/
theorem Written.head {statement : Statement} {line : List Char} (h : Written statement line) :
    ∃ first more, line = first :: more ∧ first ≠ '\ufeff' := by
  cases h with
  | entry key _ =>
    obtain ⟨first, more, hwritten, hfirst⟩ := exists_writeKey_eq_cons key
    refine ⟨first, _, by rw [writeEntry, hwritten]; rfl, ?_⟩
    rintro rfl
    exact absurd hfirst (by decide)
  | header _ name => exact ⟨'\n', _, rfl, by decide⟩

/-- Nothing is taken off the front of a written document. -/
theorem skipByteOrderMark_of_written {statements : List Statement} {lines : List (List Char)}
    (h : List.Forall₂ Written statements lines) :
    skipByteOrderMark lines.flatten = lines.flatten := by
  cases h with
  | nil => rfl
  | cons hline _ =>
    obtain ⟨first, more, rfl, hfirst⟩ := hline.head
    rw [List.flatten_cons, List.cons_append, skipByteOrderMark]
    exact fun _ heq => hfirst (List.cons.inj heq).1

/-- A document is read back that is written as pairs and blocks with different keys. -/
theorem parse?_written {pairs : List (String × Toml)} {blocks : List Block}
    {lines : List (List Char)}
    (hlines : List.Forall₂ Written
      (pairs.map entryStatement ++ blocks.flatMap Block.statements) lines)
    (hkeys : (pairs.map Prod.fst ++ blocks.map Block.key).Nodup)
    (hpairs : ∀ block ∈ blocks, (block.pairs.map Prod.fst).Nodup) :
    parse? (String.ofList lines.flatten) = some (pairs ++ blocks.map Block.entry) := by
  have hread := readStatements_of_written hlines (Nat.lt_succ_self lines.flatten.length)
  have hbuilt : build (pairs.map entryStatement ++ blocks.flatMap Block.statements) [] [] =
      some (leaves pairs ++ blocks.map Block.draft) := by
    have hkept : (leaves pairs).map Prod.fst = pairs.map Prod.fst := by
      rw [leaves, List.map_map]
      rfl
    have hfirst := (List.nodup_append'.mp hkeys).1
    refine (build_entries focus_nil (by simpa using hfirst) _).trans ?_
    rw [List.nil_append]
    exact build_blocks (hkept ▸ hkeys) hpairs []
  simp only [parse?, String.toList_ofList, skipByteOrderMark_of_written hlines]
  rw [hread, Option.bind_eq_bind, Option.bind_some, hbuilt, Option.bind_eq_bind, Option.bind_some,
    entriesToToml_document]
  rfl

end TranslitScheme.Toml
