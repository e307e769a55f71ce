import TranslitScheme.Token.Basic
import TranslitScheme.Value.Basic
import TranslitScheme.Fault

/-!
# Named lists of tokens

A scheme may open a scope over one or more list names. While it is open every token that is
built joins each of these lists once. Scopes do not nest, and a list can be opened again
later, when it goes on growing.

Lists are kept in the order in which their names were first opened, and the open scope is kept
as the places of its lists. The registry is handed back whether a scope could be opened or not.
It is as it was when a scope is open already or a name is unusable.
-/

namespace TranslitScheme

/-- A list of tokens with a name. -/
structure NamedList where
  name : String
  tokens : List Token := []
  deriving DecidableEq, Repr, Inhabited

namespace NamedList

/-- Append a token to a list. -/
def push (list : NamedList) (token : Token) : NamedList :=
  { list with tokens := list.tokens ++ [token] }

/-- The place of the list of a name, with the lists among which it is, declared at the end if it
was not there. -/
def locate (lists : List NamedList) (name : String) : Nat × List NamedList :=
  match lists.findIdx? fun list => list.name == name with
  | some place => (place, lists)
  | none => (lists.length, lists ++ [⟨name, []⟩])

/-- A list is located at a place of its name among the lists as they are, or behind them when none
of them has the name. -/
theorem locate_cases (lists : List NamedList) (name : String) :
    (∃ place, ∃ _ : place < lists.length, lists[place].name = name ∧
      locate lists name = (place, lists)) ∨
    (name ∉ lists.map NamedList.name ∧
      locate lists name = (lists.length, lists ++ [⟨name, []⟩])) := by
  unfold locate
  split
  · rename_i place hplace
    obtain ⟨hlt, hname, -⟩ := List.findIdx?_eq_some_iff_getElem.mp hplace
    exact Or.inl ⟨place, hlt, by simpa using hname, rfl⟩
  · rename_i hnone
    refine Or.inr ⟨fun hmem => ?_, rfl⟩
    obtain ⟨list, hlist, rfl⟩ := List.mem_map.mp hmem
    simpa using List.findIdx?_eq_none_iff.mp hnone list hlist

/-- The places of the lists of some names, behind places that were found before and without
repetitions, with the lists among which they are. -/
def locateAll : List String → List Nat × List NamedList → List Nat × List NamedList
  | [], found => found
  | name :: rest, (places, lists) =>
    let (place, lists) := locate lists name
    locateAll rest (if place ∈ places then places else places ++ [place], lists)

/-- Append a token to the lists at some places. -/
def pushAll (token : Token) (places : List Nat) (lists : List NamedList) : List NamedList :=
  places.foldl (fun lists place => lists.modify place (·.push token)) lists

/-- Lists have different names, and places are those of lists, none of them twice. -/
structure Indexed (places : List Nat) (lists : List NamedList) : Prop where
  names_nodup : (lists.map name).Nodup
  places_nodup : places.Nodup
  lt_length : ∀ place ∈ places, place < lists.length

namespace Indexed

variable {places : List Nat} {lists : List NamedList}

/-- There are no places of no lists. -/
theorem nil : Indexed [] [] := ⟨List.nodup_nil, List.nodup_nil, nofun⟩

/-- Lists with different names stay so when no scope is open. -/
theorem closed (h : Indexed places lists) : Indexed [] lists :=
  ⟨h.names_nodup, List.nodup_nil, nofun⟩

/-- A list that is located is among the lists, which keep their places. -/
theorem locate (h : Indexed places lists) (name : String) :
    Indexed places (NamedList.locate lists name).2 ∧
      (NamedList.locate lists name).1 < (NamedList.locate lists name).2.length := by
  rcases locate_cases lists name with ⟨place, hlt, -, hlocated⟩ | ⟨hnew, hlocated⟩
  · rw [hlocated]
    exact ⟨h, hlt⟩
  · rw [hlocated]
    refine ⟨⟨?_, h.places_nodup, fun place hplace => ?_⟩, ?_⟩
    · rw [List.map_append, List.map_singleton]
      exact List.nodup_append.mpr ⟨h.names_nodup, by simp, by simpa using hnew⟩
    · exact Nat.lt_of_lt_of_le (h.lt_length place hplace) (by simp)
    · simp

/-- The place of a list can be added to the places, unless it is one of them. -/
theorem insert (h : Indexed places lists) {place : Nat} (hplace : place < lists.length) :
    Indexed (if place ∈ places then places else places ++ [place]) lists := by
  split
  · exact h
  · rename_i hnew
    refine ⟨h.names_nodup, ?_, fun other hmem => ?_⟩
    · refine List.nodup_append.mpr ⟨h.places_nodup, by simp, ?_⟩
      rintro old hold last hlast rfl
      exact hnew (List.mem_singleton.mp hlast ▸ hold)
    · rcases List.mem_append.mp hmem with hold | hlast
      · exact h.lt_length other hold
      · exact List.mem_singleton.mp hlast ▸ hplace

/-- Lists that are located are among the lists, each at one of the places. -/
theorem locateAll (h : Indexed places lists) (names : List String) :
    Indexed (NamedList.locateAll names (places, lists)).1
      (NamedList.locateAll names (places, lists)).2 := by
  induction names generalizing places lists with
  | nil => exact h
  | cons name rest ih =>
    exact ih ((h.locate name).1.insert (h.locate name).2)

/-- Only the names of the lists count. -/
theorem of_names_eq (h : Indexed places lists) {others : List NamedList}
    (hnames : others.map name = lists.map name) : Indexed places others := by
  have hlength : others.length = lists.length := by simpa using congrArg List.length hnames
  exact ⟨hnames ▸ h.names_nodup, h.places_nodup,
    fun place hplace => hlength ▸ h.lt_length place hplace⟩

/-- Appending a token to a list leaves the names as they are. -/
theorem map_name_modify_push (lists : List NamedList) (token : Token) (place : Nat) :
    (lists.modify place (·.push token)).map name = lists.map name := by
  refine List.ext_getElem? fun other => ?_
  rw [List.getElem?_map, List.getElem?_map, List.getElem?_modify, Option.map_eq_map,
    Option.map_map]
  refine congrArg (Option.map · _) (funext fun list => ?_)
  rw [Function.comp_apply]
  split <;> rfl

/-- Places stay good when a token is appended to the lists. -/
theorem pushAll (h : Indexed places lists) (token : Token) (others : List Nat) :
    Indexed places (NamedList.pushAll token others lists) := by
  induction others generalizing lists with
  | nil => exact h
  | cons other rest ih => exact ih (h.of_names_eq (map_name_modify_push lists token other))

end Indexed

end NamedList

/-- The lists of a scheme, and the places of those of the open scope. -/
@[ext]
structure NamedLists where
  lists : List NamedList := []
  scope : Option (List Nat) := none
  indexed : NamedList.Indexed (scope.getD []) lists := by exact NamedList.Indexed.nil
  deriving DecidableEq, Repr

namespace NamedLists

instance : Inhabited NamedLists := ⟨{ }⟩

/-- The list names of a scope, each of which must be a non-empty string. -/
def scopeNames : List Value → Except Fault (List String)
  | [] => .ok []
  | name :: rest =>
    match name.asText? with
    | some text =>
      if text = "" then .error (.invalidListName name.kind)
      else (scopeNames rest).map (text :: ·)
    | none => .error (.invalidListName name.kind)

/-- Open a scope over names, declaring lists that do not exist yet. -/
def openScope (registry : NamedLists) (names : List Value) : Except Fault Unit × NamedLists :=
  match registry.scope, names with
  | some _, _ => (.error .nestedList, registry)
  | none, [] => (.error .unnamedList, registry)
  | none, names =>
    match scopeNames names with
    | .error fault => (.error fault, registry)
    | .ok texts =>
      let located := NamedList.locateAll texts ([], registry.lists)
      (.ok (), ⟨located.2, some located.1, registry.indexed.closed.locateAll texts⟩)

/-- Close the scope. -/
def closeScope (registry : NamedLists) : NamedLists :=
  ⟨registry.lists, none, registry.indexed.closed⟩

/-- A scope is open. -/
def isOpen (registry : NamedLists) : Bool := registry.scope.isSome

/-- Append a token to every list of the open scope. -/
def record (registry : NamedLists) (token : Token) : NamedLists :=
  ⟨NamedList.pushAll token (registry.scope.getD []) registry.lists, registry.scope,
    registry.indexed.pushAll token _⟩

/-- The list of a given name. -/
def get? (registry : NamedLists) (name : String) : Option NamedList :=
  registry.lists.find? fun list => list.name == name

/-- The names of all lists, in the order of declaration. -/
def names (registry : NamedLists) : List String := registry.lists.map NamedList.name

end NamedLists

end TranslitScheme
