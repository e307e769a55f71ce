import Mathlib.Data.List.Nodup
import TranslitScheme.NamedLists
import TranslitScheme.Proofs.Derivation.Merging

/-!
# Lists by place and by name

A registry keeps its open scope as places, while a scheme only knows names. A list keeps its
place when others are declared and when tokens are appended, and no two lists have the same name,
so a list is at one of the places of the scope just when its name is one of the names.

`lists_record` says what recording a token does: the list at each place of the scope gets the token
once, and no other list changes. `openScope_cases` says what opening a scope does: it fails and
leaves the registry as it is, or it declares the lists that are missing and puts the scope over the
names, each of them once. Both lean on `NamedList.Indexed`, which every registry carries.
-/

namespace TranslitScheme

namespace NamedList

variable {places : List Nat} {lists : List NamedList}

/-- Declare a list at the end unless there is one of that name. -/
def declare (lists : List NamedList) (name : String) : List NamedList :=
  if name ∈ lists.map NamedList.name then lists else lists ++ [⟨name, []⟩]

/-- The names of the lists at some places. -/
def namesAt (places : List Nat) (lists : List NamedList) : List String :=
  places.filterMap fun place => lists[place]?.map NamedList.name

/-- Locating a list declares it, and its place is that of its name. -/
theorem locate_eq (lists : List NamedList) (name : String) :
    (locate lists name).2 = declare lists name ∧
      (declare lists name)[(locate lists name).1]?.map NamedList.name = some name := by
  rcases locate_cases lists name with ⟨place, hlt, hsame, hlocated⟩ | ⟨hnew, hlocated⟩
  · rw [hlocated, declare, if_pos (List.mem_map.mpr ⟨lists[place], List.getElem_mem hlt, hsame⟩)]
    exact ⟨rfl, by rw [List.getElem?_eq_getElem hlt, Option.map_some, hsame]⟩
  · rw [hlocated, declare, if_neg hnew]
    exact ⟨rfl, by rw [List.getElem?_concat_length]; rfl⟩

/-- A list keeps its place and its name when another is declared. -/
theorem getElem?_declare (lists : List NamedList) (name : String) {place : Nat}
    (hplace : place < lists.length) : (declare lists name)[place]? = lists[place]? := by
  unfold declare
  split
  · rfl
  · exact List.getElem?_append_left hplace

/-- The token is appended to the list at each of the places, and nowhere else. -/
theorem pushAll_eq (token : Token) (hplaces : places.Nodup) (lists : List NamedList) :
    pushAll token places lists =
      lists.mapIdx fun place list => if place ∈ places then list.push token else list := by
  induction places generalizing lists with
  | nil =>
    refine List.ext_getElem? fun place => ?_
    rw [List.getElem?_mapIdx]
    exact Option.map_id'.symm
  | cons first rest ih =>
    obtain ⟨hfirst, hrest⟩ := List.nodup_cons.mp hplaces
    refine (ih hrest _).trans (List.ext_getElem? fun place => ?_)
    rw [List.getElem?_mapIdx, List.getElem?_mapIdx, List.getElem?_modify, Option.map_eq_map,
      Option.map_map]
    refine congrArg (Option.map · _) (funext fun list => ?_)
    by_cases hplace : first = place
    · subst hplace
      simp [hfirst]
    · simp [hplace, Ne.symm hplace]

/-- Lists with the same names have the same names at each place. -/
theorem namesAt_congr {others : List NamedList}
    (h : others.map NamedList.name = lists.map NamedList.name) (places : List Nat) :
    namesAt places others = namesAt places lists :=
  List.filterMap_congr fun place _ => by rw [← List.getElem?_map, h, List.getElem?_map]

/-- A list is located at the first place of its name, or behind all lists. -/
theorem fst_locate (lists : List NamedList) (name : String) :
    (locate lists name).1 = ((lists.map NamedList.name).findIdx? (· == name)).getD
      (lists.map NamedList.name).length := by
  rw [List.findIdx?_map, List.length_map, Function.comp_def, locate]
  cases lists.findIdx? fun list => list.name == name <;> rfl

/-- Where lists are located depends on the names of the lists only. -/
theorem fst_locateAll_congr {others : List NamedList}
    (h : others.map NamedList.name = lists.map NamedList.name) (names : List String) :
    (locateAll names (places, others)).1 = (locateAll names (places, lists)).1 := by
  induction names generalizing places lists others with
  | nil => rfl
  | cons name rest ih =>
    have hdeclared : (declare others name).map NamedList.name =
        (declare lists name).map NamedList.name := by
      unfold declare
      rw [h]
      split
      · exact h
      · rw [List.map_append, List.map_append, h]
    rw [locateAll, locateAll]
    dsimp only
    rw [(locate_eq others name).1, (locate_eq lists name).1, fst_locate, fst_locate, h]
    exact ih hdeclared

namespace Indexed

/-- Two places with the same name are the same. -/
theorem eq_of_name (h : Indexed places lists) {place other : Nat} {name : String}
    (hplace : lists[place]?.map NamedList.name = some name)
    (hother : lists[other]?.map NamedList.name = some name) : place = other := by
  rw [← List.getElem?_map] at hplace hother
  have hlt : place < (lists.map NamedList.name).length := (List.getElem?_eq_some_iff.mp hplace).1
  exact (List.getElem?_inj hlt h.names_nodup).mp (hplace.trans hother.symm)

/-- There is a list at each place. -/
theorem map_name_eq (h : Indexed places lists) :
    places.map (fun place => lists[place]?.map NamedList.name) =
      (namesAt places lists).map some := by
  obtain ⟨-, -, hlt⟩ := h
  induction places with
  | nil => rfl
  | cons place rest ih =>
    have hplace := List.getElem?_eq_getElem (hlt place List.mem_cons_self)
    rw [List.map_cons, ih fun other hother => hlt other (List.mem_cons_of_mem _ hother), namesAt,
      namesAt, List.filterMap_cons, hplace]
    rfl

/-- A list is at one of the places just when its name is one of their names. -/
theorem mem_namesAt_iff (h : Indexed places lists) {place : Nat} {name : String}
    (hplace : lists[place]?.map NamedList.name = some name) :
    name ∈ namesAt places lists ↔ place ∈ places := by
  rw [namesAt, List.mem_filterMap]
  refine ⟨fun ⟨other, hmem, hother⟩ => ?_, fun hmem => ⟨place, hmem, hplace⟩⟩
  rwa [h.eq_of_name hplace hother]

/-- Places without repetitions have names without repetitions. -/
theorem nodup_namesAt (h : Indexed places lists) : (namesAt places lists).Nodup :=
  h.places_nodup.filterMap fun _ _ _ hplace hother => h.eq_of_name hplace hother

/-- Declaring a list leaves the names at the places as they are. -/
theorem namesAt_declare (h : Indexed places lists) (name : String) :
    namesAt places (declare lists name) = namesAt places lists :=
  List.filterMap_congr fun place hplace => by
    rw [getElem?_declare lists name (h.lt_length place hplace)]

/-- Lists that are located are declared, and found at places whose names are those that are asked
for, behind the names of the places that were found before and without repetitions. -/
theorem locateAll_eq (h : Indexed places lists) (names : List String) :
    (NamedList.locateAll names (places, lists)).2 = names.foldl declare lists ∧
      namesAt (NamedList.locateAll names (places, lists)).1 (names.foldl declare lists) =
        (namesAt places lists ++ names).eraseDups := by
  induction names generalizing places lists with
  | nil =>
    refine ⟨rfl, ?_⟩
    rw [List.append_nil]
    exact (Template.eraseDups_of_nodup h.nodup_namesAt).symm
  | cons name rest ih =>
    obtain ⟨hdeclared, hname⟩ := locate_eq lists name
    obtain ⟨hlocated, hlt⟩ := h.locate name
    rw [hdeclared] at hlocated hlt
    obtain ⟨hlists, hnames⟩ := ih (hlocated.insert hlt)
    rw [NamedList.locateAll]
    dsimp only
    rw [hdeclared, List.foldl_cons]
    refine ⟨hlists, hnames.trans ?_⟩
    -- The place is new just when the name is.
    have hnew : name ∈ namesAt places lists ↔ (NamedList.locate lists name).1 ∈ places := by
      rw [← h.namesAt_declare name, hlocated.mem_namesAt_iff hname]
    split
    · rename_i hold
      rw [h.namesAt_declare name, List.eraseDups_append, List.eraseDups_append]
      simp [List.removeAll, hnew.mpr hold]
    · rename_i hfresh
      rw [namesAt, List.filterMap_append, List.filterMap_cons, hname, ← namesAt,
        h.namesAt_declare name, List.filterMap_nil, List.append_assoc, List.singleton_append]

end Indexed

end NamedList

namespace NamedLists

open NamedList (declare namesAt)

/-- The names of the scope that is open. -/
def openNames (registry : NamedLists) : List String :=
  namesAt (registry.scope.getD []) registry.lists

/-- Without a scope no names are open. -/
theorem openNames_of_scope_none {registry : NamedLists} (h : registry.scope = none) :
    registry.openNames = [] := by
  rw [openNames, h]
  rfl

/-- The places of a scope are those of its names, one by one. -/
theorem map_name_scope (registry : NamedLists) :
    (registry.scope.map fun places => places.map fun place =>
      registry.lists[place]?.map NamedList.name) =
        if registry.isOpen then some (registry.openNames.map some) else none := by
  have hvalid := registry.indexed.map_name_eq
  rw [isOpen, openNames]
  cases hscope : registry.scope with
  | none => rfl
  | some places =>
    rw [hscope] at hvalid
    exact congrArg some hvalid

/-- A token that is recorded is appended once to each list of the open scope, and to no other. -/
theorem lists_record (registry : NamedLists) (token : Token) :
    (registry.record token).lists = registry.lists.mapIdx fun place list =>
      if place ∈ registry.scope.getD [] then list.push token else list :=
  NamedList.pushAll_eq token registry.indexed.places_nodup registry.lists

/-- A token that is recorded is appended to the lists that the open scope names. -/
theorem lists_record_eq_map (registry : NamedLists) (token : Token) :
    (registry.record token).lists = registry.lists.map fun list =>
      if list.name ∈ registry.openNames then list.push token else list := by
  refine (lists_record registry token).trans (List.ext_getElem? fun place => ?_)
  rw [List.getElem?_mapIdx, List.getElem?_map]
  cases hlist : registry.lists[place]? with
  | none => rfl
  | some list =>
    have hname : registry.lists[place]?.map NamedList.name = some list.name := by rw [hlist]; rfl
    simp only [Option.map_some, openNames, registry.indexed.mem_namesAt_iff hname]

/-- What is in a list after a token was recorded is the token, or was in a list before. -/
theorem mem_lists_record {registry : NamedLists} {token listed : Token} {list : NamedList}
    (hlist : list ∈ (registry.record token).lists) (hlisted : listed ∈ list.tokens) :
    listed = token ∨ ∃ old ∈ registry.lists, listed ∈ old.tokens := by
  rw [lists_record_eq_map] at hlist
  obtain ⟨old, hold, rfl⟩ := List.mem_map.mp hlist
  split at hlisted
  · rcases List.mem_append.mp hlisted with hkept | hnew
    · exact Or.inr ⟨old, hold, hkept⟩
    · exact Or.inl (List.mem_singleton.mp hnew)
  · exact Or.inr ⟨old, hold, hlisted⟩

/-- Recording a token leaves the scope open over the same names. -/
theorem openNames_record (registry : NamedLists) (token : Token) :
    (registry.record token).openNames = registry.openNames := by
  refine NamedList.namesAt_congr ?_ _
  rw [lists_record_eq_map, List.map_map]
  refine List.map_congr_left fun list _ => ?_
  rw [Function.comp_apply]
  split <;> rfl

/-- Names that can be read are the texts that are written. -/
theorem filterMap_asText?_of_scopeNames {names : List Value} {texts : List String}
    (h : scopeNames names = .ok texts) : names.filterMap Value.asText? = texts := by
  induction names generalizing texts with
  | nil => exact Except.ok.inj h
  | cons name rest ih =>
    unfold scopeNames at h
    cases hname : name.asText? with
    | none => simp [hname] at h
    | some text =>
      simp only [hname] at h
      split at h
      · contradiction
      · cases hrest : scopeNames rest with
        | error fault => simp [hrest, Except.map] at h
        | ok others =>
          rw [hrest] at h
          obtain rfl := Except.ok.inj h
          rw [List.filterMap_cons, hname, ih hrest]

/-- A scope over names declares the lists that are missing, and is over each of the names once. -/
structure Opens (registry : NamedLists) (names : List Value) (opened : NamedLists) : Prop where
  scope_eq_none : registry.scope = none
  lists_eq : opened.lists = (names.filterMap Value.asText?).foldl declare registry.lists
  isOpen : opened.isOpen = true
  openNames_eq : opened.openNames = (names.filterMap Value.asText?).eraseDups

/-- Opening a scope fails and leaves the registry as it is, or opens it over the names. -/
theorem openScope_cases (registry : NamedLists) (names : List Value) :
    (∃ fault, registry.openScope names = (.error fault, registry)) ∨
      ∃ opened, registry.openScope names = (.ok (), opened) ∧ registry.Opens names opened := by
  unfold openScope
  cases hscope : registry.scope with
  | some _ => exact Or.inl ⟨_, rfl⟩
  | none =>
    cases names with
    | nil => exact Or.inl ⟨_, rfl⟩
    | cons name rest =>
      dsimp only
      cases htexts : scopeNames (name :: rest) with
      | error fault => exact Or.inl ⟨fault, rfl⟩
      | ok texts =>
        obtain ⟨hlists, hnames⟩ := registry.indexed.closed.locateAll_eq texts
        refine Or.inr ⟨_, rfl, hscope, ?_, rfl, ?_⟩
        · rw [filterMap_asText?_of_scopeNames htexts]
          exact hlists
        · rw [filterMap_asText?_of_scopeNames htexts]
          exact (congrArg (namesAt _) hlists).trans hnames

/-- A list that is declared is empty. -/
theorem mem_foldl_declare {names : List String} {lists : List NamedList} {list : NamedList}
    (h : list ∈ names.foldl declare lists) : list ∈ lists ∨ list.tokens = [] := by
  induction names generalizing lists with
  | nil => exact Or.inl h
  | cons name rest ih =>
    rcases ih h with hdeclared | hempty
    · unfold declare at hdeclared
      split at hdeclared
      · exact Or.inl hdeclared
      · rcases List.mem_append.mp hdeclared with hold | hnew
        · exact Or.inl hold
        · exact Or.inr (by rw [List.mem_singleton.mp hnew])
    · exact Or.inr hempty

/-- A scope that was opened is over the names. -/
theorem opens_of_openScope {registry opened : NamedLists} {names : List Value}
    (h : registry.openScope names = (.ok (), opened)) : registry.Opens names opened := by
  rcases registry.openScope_cases names with ⟨fault, hfault⟩ | ⟨other, hopened, hopens⟩
  · cases hfault.symm.trans h
  · cases hopened.symm.trans h
    exact hopens

/-- Opening a scope only adds empty lists. -/
theorem mem_of_openScope {registry opened : NamedLists} {names : List Value}
    (h : registry.openScope names = (.ok (), opened)) {list : NamedList}
    (hlist : list ∈ opened.lists) : list ∈ registry.lists ∨ list.tokens = [] := by
  rw [(opens_of_openScope h).lists_eq] at hlist
  exact mem_foldl_declare hlist

end NamedLists

end TranslitScheme
