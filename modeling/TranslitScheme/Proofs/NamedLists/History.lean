import TranslitScheme.Proofs.NamedLists.Places

/-!
# The history of a registry of lists

A registry only knows its lists and the places of those of the open scope. What it holds can be
told from what was asked of it, without looking at it: the scope is that of the last opening that
succeeded, unless it was closed, the lists are those that successful openings named, and the tokens
of a list are those that were recorded while the scope in force named it.

Histories are lists of calls, the latest one first, so that a look back is a recursion. Openings
may fail, and then they are as good as not there. `isOpen_after`, `openNames_after` and
`lists_after` give the registry that a history leaves, each by induction over the calls, and
`history_law` says what follows for everything that can be asked of it.
-/

namespace TranslitScheme.NamedLists

open NamedList (declare)

/-- A call of one of the operations that may change a registry. -/
inductive Operation where
  | openScope (names : List Value)
  | closeScope
  | record (token : Token)
  deriving Repr, Inhabited

/-- Carry out an operation. -/
def perform (registry : NamedLists) : Operation → Except Fault Unit × NamedLists
  | .openScope names => registry.openScope names
  | .closeScope => (.ok (), registry.closeScope)
  | .record token => (.ok (), registry.record token)

/-- The registry that a history leaves, whatever the outcomes of its calls. -/
def after : List Operation → NamedLists
  | [] => { }
  | last :: earlier => ((after earlier).perform last).2

/-- A scope over some names can be opened after a history. -/
def opens (earlier : List Operation) (names : List Value) : Bool :=
  ((after earlier).openScope names).1.isOk

/-- The names of the last opening that succeeded, if no closing came after it. -/
def standing? : List Operation → Option (List Value)
  | [] => none
  | .openScope names :: earlier => if opens earlier names then some names else standing? earlier
  | .closeScope :: _ => none
  | .record _ :: earlier => standing? earlier

/-- The names of all openings that succeeded, from the first to the last and with repetitions. -/
def mentioned : List Operation → List String
  | [] => []
  | .openScope names :: earlier =>
    mentioned earlier ++ if opens earlier names then names.filterMap Value.asText? else []
  | .closeScope :: earlier => mentioned earlier
  | .record _ :: earlier => mentioned earlier

/-- The scope in force after a history is over a given name. -/
def Covers (earlier : List Operation) (name : String) : Prop :=
  ∃ names ∈ standing? earlier, name ∈ names.filterMap Value.asText?

instance (earlier : List Operation) (name : String) : Decidable (Covers earlier name) :=
  inferInstanceAs (Decidable (∃ names ∈ standing? earlier, name ∈ names.filterMap Value.asText?))

/-- The tokens that were recorded while the scope in force was over a given name, in order. -/
def recorded (name : String) : List Operation → List Token
  | [] => []
  | .openScope _ :: earlier => recorded name earlier
  | .closeScope :: earlier => recorded name earlier
  | .record token :: earlier =>
    recorded name earlier ++ if Covers earlier name then [token] else []

/-- A value that can name a list: a text that is not blank. -/
def Usable (name : Value) : Prop := ∃ text, text ≠ "" ∧ name = .str text

/-- Names can be read just when each of them is usable. -/
theorem scopeNames_isOk_iff (names : List Value) :
    (scopeNames names).isOk = true ↔ ∀ name ∈ names, Usable name := by
  induction names with
  | nil => exact iff_of_true rfl (by simp)
  | cons name rest ih =>
    rw [List.forall_mem_cons, ← ih, scopeNames]
    cases htext : name.asText? with
    | none =>
      refine iff_of_false Bool.false_ne_true fun hboth => ?_
      obtain ⟨text, -, rfl⟩ := hboth.1
      contradiction
    | some text =>
      obtain rfl : name = .str text := by
        cases name <;> simp [Value.asText?] at htext
        rw [htext]
      by_cases hblank : text = ""
      · refine iff_of_false (by simp [hblank, Except.isOk, Except.toBool]) fun hboth => ?_
        obtain ⟨other, hother, hsame⟩ := hboth.1
        exact hother ((Value.str.inj hsame).symm.trans hblank)
      · rw [and_iff_right ⟨text, hblank, rfl⟩]
        simp only [if_neg hblank]
        cases scopeNames rest <;> rfl

/-- A scope is opened just when none is open and there are names, all of them usable. -/
theorem isOk_openScope_iff (registry : NamedLists) (names : List Value) :
    (registry.openScope names).1.isOk = true ↔
      registry.isOpen = false ∧ names ≠ [] ∧ ∀ name ∈ names, Usable name := by
  rw [← scopeNames_isOk_iff, isOpen]
  unfold openScope
  cases registry.scope with
  | some _ => exact iff_of_false Bool.false_ne_true fun hboth => Bool.false_ne_true hboth.1.symm
  | none =>
    cases names with
    | nil => exact iff_of_false Bool.false_ne_true fun hboth => hboth.2.1 rfl
    | cons name rest =>
      have hclosed : (none : Option (List Nat)).isSome = false := rfl
      rw [and_iff_right hclosed, and_iff_right (List.cons_ne_nil name rest)]
      dsimp only
      cases scopeNames (name :: rest) <;> rfl

/-- A scope that cannot be opened is reported as nested when one is open, whatever its names. -/
theorem openScope_of_isOpen {registry : NamedLists} (h : registry.isOpen = true)
    (names : List Value) : registry.openScope names = (.error .nestedList, registry) := by
  obtain ⟨places, hscope⟩ := Option.isSome_iff_exists.mp h
  unfold openScope
  rw [hscope]

/-- A call that opens a scope is as good as not there, or it opens the scope. -/
theorem after_openScope_cases (names : List Value) (earlier : List Operation) :
    (opens earlier names = false ∧ after (.openScope names :: earlier) = after earlier) ∨
      (opens earlier names = true ∧
        (after earlier).Opens names (after (.openScope names :: earlier))) := by
  rw [opens, after, perform]
  rcases (after earlier).openScope_cases names with ⟨fault, hfault⟩ | ⟨opened, hopened, hopens⟩
  · rw [hfault]
    exact Or.inl ⟨rfl, rfl⟩
  · rw [hopened]
    exact Or.inr ⟨rfl, hopens⟩

/-- Lists that are declared in addition are empty, and come in the order of their first mention. -/
theorem foldl_declare_eq (tokens : String → List Token) (names texts : List String)
    (hnew : ∀ text, text ∉ names → tokens text = []) :
    texts.foldl declare (names.eraseDups.map fun name => ⟨name, tokens name⟩) =
      (names ++ texts).eraseDups.map fun name => ⟨name, tokens name⟩ := by
  induction texts generalizing names with
  | nil => rw [List.append_nil, List.foldl_nil]
  | cons text rest ih =>
    have hdeclare : declare (names.eraseDups.map fun name => ⟨name, tokens name⟩) text =
        (names ++ [text]).eraseDups.map fun name => ⟨name, tokens name⟩ := by
      rw [declare, Template.eraseDups_append_singleton]
      simp only [List.map_map, Function.comp_def, List.map_id', List.mem_eraseDups]
      split
      · rfl
      · rename_i hmem
        rw [List.map_append, List.map_singleton, hnew text hmem]
    have hrest : ∀ other, other ∉ names ++ [text] → tokens other = [] :=
      fun other hother => hnew other fun hmem => hother (List.mem_append_left _ hmem)
    rw [List.foldl_cons, hdeclare, ih _ hrest, List.append_assoc, List.singleton_append]

/-- Every name that the scope in force is over was mentioned. -/
theorem mem_mentioned_of_covers {history : List Operation} {name : String}
    (h : Covers history name) : name ∈ mentioned history := by
  induction history with
  | nil =>
    obtain ⟨names, hnames, -⟩ := h
    contradiction
  | cons last earlier ih =>
    cases last with
    | openScope names =>
      rw [mentioned]
      by_cases hopens : opens earlier names = true
      · obtain ⟨standing, hstanding, hname⟩ := h
        rw [standing?, if_pos hopens] at hstanding
        obtain rfl := Option.some.inj hstanding
        rw [if_pos hopens]
        exact List.mem_append_right _ hname
      · rw [Covers, standing?, if_neg hopens] at h
        exact List.mem_append_left _ (ih h)
    | closeScope =>
      obtain ⟨names, hnames, -⟩ := h
      contradiction
    | record token => exact ih h

/-- A list that was never mentioned has no tokens. -/
theorem recorded_eq_nil {history : List Operation} {name : String}
    (h : name ∉ mentioned history) : recorded name history = [] := by
  induction history with
  | nil => rfl
  | cons last earlier ih =>
    cases last with
    | openScope names => exact ih fun hmem => h (List.mem_append_left _ hmem)
    | closeScope => exact ih h
    | record token =>
      have hcovers : ¬ Covers earlier name := fun hcovers => h (mem_mentioned_of_covers hcovers)
      rw [recorded, ih h, if_neg hcovers, List.append_nil]

/-- A scope is open just when an opening stands. -/
theorem isOpen_after (history : List Operation) :
    (after history).isOpen = (standing? history).isSome := by
  induction history with
  | nil => rfl
  | cons last earlier ih =>
    cases last with
    | openScope names =>
      rw [standing?]
      rcases after_openScope_cases names earlier with ⟨hfails, hafter⟩ | ⟨hopens, hopened⟩
      · rw [hafter, hfails]
        exact ih
      · rw [hopens, hopened.isOpen]
        rfl
    | closeScope => rfl
    | record token => exact ih

/-- The scope is over the names of the opening that stands, each of them once. -/
theorem openNames_after (history : List Operation) :
    (after history).openNames =
      ((standing? history).map fun names => (names.filterMap Value.asText?).eraseDups).getD [] := by
  induction history with
  | nil => rfl
  | cons last earlier ih =>
    cases last with
    | openScope names =>
      rw [standing?]
      rcases after_openScope_cases names earlier with ⟨hfails, hafter⟩ | ⟨hopens, hopened⟩
      · rw [hafter, hfails]
        exact ih
      · rw [hopens, hopened.openNames_eq]
        rfl
    | closeScope => rfl
    | record token => exact (openNames_record _ token).trans ih

/-- The scope that is open is over the names that the scope in force is over. -/
theorem mem_openNames_after_iff (history : List Operation) (name : String) :
    name ∈ (after history).openNames ↔ Covers history name := by
  rw [openNames_after]
  cases hstanding : standing? history with
  | none => simp [Covers, hstanding]
  | some names => simp [Covers, hstanding]

/-- There is a list for each name that was mentioned, in the order of first mention, with the tokens
that were recorded while the scope was over it. -/
theorem lists_after (history : List Operation) :
    (after history).lists =
      (mentioned history).eraseDups.map fun name => ⟨name, recorded name history⟩ := by
  induction history with
  | nil => rfl
  | cons last earlier ih =>
    cases last with
    | openScope names =>
      rw [mentioned]
      rcases after_openScope_cases names earlier with ⟨hfails, hafter⟩ | ⟨hopens, hopened⟩
      · rw [hafter, hfails, ih]
        simp only [Bool.false_eq_true, if_false, List.append_nil]
        rfl
      · rw [hopened.lists_eq, hopens, ih, foldl_declare_eq _ _ _ fun text => recorded_eq_nil]
        rfl
    | closeScope => exact ih
    | record token =>
      rw [after, perform, lists_record_eq_map, ih, List.map_map]
      refine List.map_congr_left fun name _ => ?_
      simp only [Function.comp_apply, mem_openNames_after_iff, recorded, NamedList.push]
      split <;> simp

/-- The tokens of a list are found under its name, if the name was ever mentioned. -/
theorem tokens_get?_after (history : List Operation) (name : String) :
    ((after history).get? name).map NamedList.tokens =
      if name ∈ mentioned history then some (recorded name history) else none := by
  have hfind (names : List String) :
      ((names.map fun name => (⟨name, recorded name history⟩ : NamedList)).find? fun list =>
        list.name == name).map NamedList.tokens =
      if name ∈ names then some (recorded name history) else none := by
    induction names with
    | nil => rfl
    | cons other rest ih =>
      rw [List.map_cons, List.find?_cons]
      by_cases hsame : other = name
      · simp [hsame]
      · simp only [beq_eq_false_iff_ne.mpr hsame, ih, List.mem_cons, Ne.symm hsame, false_or]
  rw [get?, lists_after, hfind]
  simp only [List.mem_eraseDups]

/-- The law of a registry, for all histories. The names of lists are different ones, in the order in
which successful openings first mention them. A list holds the tokens that were recorded while the
last successful opening that was not closed named it, each once and in order. The scope has a place
for each name of that opening, without repetitions and each of them that of the list of this name,
and a token that is recorded is appended once to the list at each of these places and to no other.
An opening succeeds just when no scope is open and there are names, all of them texts that are not
blank. When it fails it leaves the registry as it was, and with a scope open it is reported as
nested, whatever its names. -/
theorem history_law (history : List Operation) :
    let registry := after history
    (registry.names.Nodup ∧ registry.names = (mentioned history).eraseDups) ∧
    (∀ name, (registry.get? name).map NamedList.tokens =
      if name ∈ mentioned history then some (recorded name history) else none) ∧
    (registry.scope.map fun places => places.map fun place =>
      registry.lists[place]?.map NamedList.name) =
        (standing? history).map (fun names =>
          (names.filterMap Value.asText?).eraseDups.map some) ∧
    (∀ places ∈ registry.scope,
      places.Nodup ∧ ∀ place ∈ places, place < registry.lists.length) ∧
    (∀ token place, (registry.record token).lists[place]? =
      registry.lists[place]?.map fun list =>
        if place ∈ registry.scope.getD [] then { list with tokens := list.tokens ++ [token] }
        else list) ∧
    (∀ names, (registry.openScope names).1.isOk = true ↔
      standing? history = none ∧ names ≠ [] ∧
        ∀ name ∈ names, ∃ text, text ≠ "" ∧ name = .str text) ∧
    ∀ names fault, (registry.openScope names).1 = .error fault →
      (registry.openScope names).2 = registry ∧ (registry.isOpen = true → fault = .nestedList) := by
  intro registry
  have hnames : registry.names = (mentioned history).eraseDups := by
    rw [names, lists_after, List.map_map]
    exact List.map_id _
  have hisOpen : registry.isOpen = false ↔ standing? history = none := by
    rw [isOpen_after, Option.isSome_eq_false_iff, Option.isNone_iff_eq_none]
  refine ⟨⟨hnames ▸ Template.nodup_eraseDups _, hnames⟩, tokens_get?_after history, ?_,
    fun places hplaces => ?_, fun token place => ?_, fun names => ?_, fun names fault hfault => ?_⟩
  · rw [map_name_scope, isOpen_after, openNames_after]
    cases standing? history <;> rfl
  · have hindexed := registry.indexed
    rw [hplaces] at hindexed
    exact ⟨hindexed.places_nodup, hindexed.lt_length⟩
  · rw [lists_record, List.getElem?_mapIdx]
    rfl
  · rw [← hisOpen]
    exact isOk_openScope_iff registry names
  · rcases registry.openScope_cases names with ⟨other, hother⟩ | ⟨opened, hopened, -⟩
    · refine ⟨congrArg Prod.snd hother, fun hopen => ?_⟩
      rw [openScope_of_isOpen hopen] at hfault
      exact (Except.error.inj hfault).symm
    · rw [hopened] at hfault
      contradiction

/-- A vowel that stands for itself. -/
def letter (pattern : String) : Token := { category := .vowel, pattern, value1 := pattern }

/-- Two openings that succeed, the first of them with a repeated name, and three that fail: one in
an open scope, one without names and one with a number behind a good name. -/
def reopened : List Operation :=
  List.reverse
    [.record (letter "q"), .openScope [.str "b", .str "a", .str "b"], .record (letter "e"),
      .openScope [], .record (letter "i"), .closeScope, .openScope [],
      .openScope [.str "d", .int 1], .record (letter "o"), .openScope [.str "c", .str "b"],
      .record (letter "u")]

/-- Three lists are declared, and the second opening goes on with one of the first. -/
theorem history_law_reopened :
    let registry := after reopened
    registry.names = ["b", "a", "c"] ∧ registry.scope = some [2, 0] ∧
      (registry.get? "b").map NamedList.tokens = some [letter "e", letter "i", letter "u"] ∧
      (registry.get? "a").map NamedList.tokens = some [letter "e", letter "i"] ∧
      (registry.get? "d").map NamedList.tokens = none ∧
      registry.openScope [.str ""] = (.error .nestedList, registry) := by
  intro registry
  obtain ⟨⟨-, hnames⟩, htokens, -, -, -, -, hfail⟩ := history_law reopened
  have hfault : (registry.openScope [.str ""]).1 = .error .nestedList := by decide +kernel
  exact ⟨hnames.trans (by decide +kernel), by decide +kernel,
    (htokens "b").trans (by decide +kernel), (htokens "a").trans (by decide +kernel),
    (htokens "d").trans (by decide +kernel), Prod.ext hfault (hfail _ _ hfault).1⟩

end TranslitScheme.NamedLists
