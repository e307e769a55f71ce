import TranslitScheme.Proofs.Json.RoundTrip
import TranslitScheme.Table.Document

/-!
# Written records are read back

A record is written as an object of some of its fields. When no two fields have the same name,
reading finds every field that was written and misses every field that was left out, so a field
may be left out exactly when its default is what it had.

Lists, named cases and raw codes are read back as well. From these parts, the details, tokens,
stem rules and stem exceptions of a table are each read back from their own JSON form, and so is
the table.
-/

namespace TranslitScheme

namespace Json

/-! ### Parts of a record -/

/-- Reading each of some written elements succeeds with what was written, for all of them or for
none. -/
theorem mapM_map_eq_some_iff {α β : Type} (read : β → Option α) (write : α → β) (items : List α) :
    (items.map write).mapM read = some items ↔ ∀ item ∈ items, read (write item) = some item := by
  induction items with
  | nil => simp
  | cons item items ih =>
    rw [List.map_cons, List.mapM_cons, List.forall_mem_cons, ← ih]
    simp [Option.bind_eq_some_iff]

/-- A field of a record as it is written: its name, and its value unless it is left out. -/
abbrev Field := String × Option Json

/-- The members that some fields are written as. -/
def Field.members (fields : List Field) : List (String × Json) :=
  fields.filterMap fun field => field.2.map fun value => (field.1, value)

/-- What reading says about a field that has a value, or was left out. -/
def Slot.ofWritten : Option Json → Slot
  | some value => .given value
  | none => .missing

/-- A field that was written is given. -/
@[simp] theorem Slot.ofWritten_some (value : Json) : ofWritten (some value) = given value := rfl

/-- A field that must be given and is given is read. -/
@[simp] theorem Slot.required_given {α : Type} (read : Json → Option α) (value : Json) :
    (given value).required read = read value := rfl

/-- A field that has a default and is given is read. -/
@[simp] theorem Slot.withDefault_given {α : Type} (usual : α) (read : Json → Option α)
    (value : Json) : (given value).withDefault usual read = read value := rfl

/-- A string is read as its text. -/
@[simp] theorem asText?_str (text : String) : asText? (.str text) = some text := rfl

/-- A boolean is read as its flag. -/
@[simp] theorem asBool?_bool (flag : Bool) : asBool? (.bool flag) = some flag := rfl

/-- A string is read as the case of that name. -/
@[simp] theorem asCase?_str {α : Type} (named? : String → Option α) (name : String) :
    asCase? named? (.str name) = named? name := rfl

/-- The members of some fields have names of these fields. -/
theorem Field.fst_mem_of_mem_members {fields : List Field} {member : String × Json}
    (hmember : member ∈ Field.members fields) : member.1 ∈ fields.map (·.1) := by
  simp only [Field.members, List.mem_filterMap, Option.map_eq_some_iff] at hmember
  obtain ⟨field, hfield, value, -, rfl⟩ := hmember
  exact List.mem_map_of_mem hfield

/-- No member has a name that none of the fields has. -/
theorem Field.filter_members_of_notMem {fields : List Field} {name : String}
    (hname : name ∉ fields.map (·.1)) :
    (Field.members fields).filter (fun member => member.1 == name) = [] := by
  rw [List.filter_eq_nil_iff]
  intro member hmember heq
  exact hname (beq_iff_eq.mp heq ▸ Field.fst_mem_of_mem_members hmember)

/-- A field is found among the members of a record whose fields have different names. -/
theorem Field.memberSlot?_members {fields : List Field} (hnodup : (fields.map (·.1)).Nodup)
    {field : Field} (hfield : field ∈ fields) :
    memberSlot? (Field.members fields) field.1 = some (.ofWritten field.2) := by
  have hfilter : (Field.members fields).filter (fun member => member.1 == field.1) =
      (field.2.map fun value => (field.1, value)).toList := by
    induction fields with
    | nil => simp at hfield
    | cons other fields ih =>
      rw [List.map_cons, List.nodup_cons] at hnodup
      have hsplit : Field.members (other :: fields) =
          (other.2.map fun value => (other.1, value)).toList ++ Field.members fields := by
        unfold Field.members
        cases hvalue : other.2 <;> simp [hvalue]
      rw [hsplit, List.filter_append]
      cases List.mem_cons.mp hfield with
      | inl hhere =>
        rw [hhere, Field.filter_members_of_notMem hnodup.1, List.append_nil]
        cases other.2 <;> simp
      | inr hlater =>
        have hne : other.1 ≠ field.1 := fun heq => hnodup.1 (heq ▸ List.mem_map_of_mem hlater)
        rw [ih hnodup.2 hlater]
        cases other.2 <;> simp [hne]
  rw [memberSlot?, hfilter]
  cases field.2 <;> rfl

/-- A record whose fields have different names is read back field by field. -/
theorem slots?_obj_members (names : List String) (values : List (Option Json))
    (hnodup : names.Nodup) (hlength : names.length = values.length) :
    slots? names (.obj (Field.members (names.zip values))) =
      some (values.map Slot.ofWritten) := by
  have hnames : (names.zip values).map (·.1) = names := List.map_fst_zip (by omega)
  have hvalues : (names.zip values).map (·.2) = values := List.map_snd_zip (by omega)
  have hread : ∀ part ⊆ names.zip values,
      (part.map (·.1)).mapM (memberSlot? (Field.members (names.zip values))) =
        some ((part.map (·.2)).map Slot.ofWritten) := by
    intro part hpart
    induction part with
    | nil => rfl
    | cons field part ih =>
      rw [List.cons_subset] at hpart
      have hfield := Field.memberSlot?_members (hnames.symm ▸ hnodup) hpart.1
      simp [hfield, ih hpart.2]
  have hall := hread (names.zip values) (List.Subset.refl _)
  rw [hnames, hvalues] at hall
  exact hall

/-! ### Values of a record -/

attribute [simp] HasForm.null HasForm.bool HasForm.int HasForm.str

/-- An array has a JSON form when its elements have one. -/
@[simp] theorem hasForm_arr_iff (items : List Json) :
    HasForm (.arr items) ↔ ∀ item ∈ items, item.HasForm :=
  ⟨fun | .arr _ hitems => hitems, .arr items⟩

/-- An object has a JSON form when its members have one. -/
@[simp] theorem hasForm_obj_iff (members : List (String × Json)) :
    HasForm (.obj members) ↔ ∀ member ∈ members, member.2.HasForm :=
  ⟨fun | .obj _ hmembers => hmembers, .obj members⟩

/-- A value that may be absent has a JSON form when it has one where it is present. -/
theorem hasForm_ofOption {α : Type} {write : α → Json} (hwrite : ∀ value, (write value).HasForm)
    (value : Option α) : (ofOption write value).HasForm := by
  cases value with
  | none => exact .null
  | some value => exact hwrite value

/-- A list of values of which each is read back is read back. -/
theorem asList?_arr_map {α : Type} {read : Json → Option α} {write : α → Json}
    (hread : ∀ item, read (write item) = some item) (items : List α) :
    asList? read (.arr (items.map write)) = some items :=
  (mapM_map_eq_some_iff read write items).mpr fun item _ => hread item

/-- An engine code is read back. -/
theorem asEngineCode?_toInt (code : Int32) : asEngineCode? (.int code.toInt) = some code := by
  have hlow := code.le_toInt
  have hhigh := code.toInt_lt
  rw [asEngineCode?, Value.engineCode?, if_pos (by omega), Int32.ofInt_toInt]

end Json

/-! ### JSON forms of a table -/

/-- A priority has a JSON form. -/
theorem Priority.hasForm_toJson (priority : Priority) : priority.toJson.HasForm := by
  cases priority <;> simp [toJson]

/-- A condition has a JSON form. -/
theorem Acceptance.hasForm_toJson (condition : Acceptance) : condition.toJson.HasForm := by
  cases condition <;> simp [toJson]

/-- A token has a JSON form. -/
theorem Token.hasForm_toJson (token : Token) : token.toJson.HasForm := by
  simp [toJson, Priority.hasForm_toJson, Acceptance.hasForm_toJson]

/-- Scheme details have a JSON form. -/
theorem Details.hasForm_toJson (details : Details) : details.toJson.HasForm := by
  simp [toJson]

/-- A stem rule has a JSON form. -/
theorem StemRule.hasForm_toJson (rule : StemRule) : rule.toJson.HasForm := by
  simp [toJson]

/-- A stem exception has a JSON form. -/
theorem StemException.hasForm_toJson (exempt : StemException) : exempt.toJson.HasForm := by
  simp [toJson]

/-- A list that may be left out has a JSON form when its elements have one. -/
theorem Table.hasForm_of_mem_listMember {α : Type} {name : String} {write : α → Json}
    (hwrite : ∀ item, (write item).HasForm) {items : List α} {member : String × Json}
    (hmember : member ∈ listMember name write items) : member.2.HasForm := by
  cases items with
  | nil => simp [listMember] at hmember
  | cons item items =>
    rw [listMember, List.mem_singleton] at hmember
    · simp [hmember, hwrite]
    · simp

/-- A table has a JSON form. -/
theorem Table.hasForm_toJson (table : Table) : table.toJson.HasForm := by
  rw [toJson, Json.hasForm_obj_iff]
  intro member hmember
  simp only [List.mem_append, List.mem_cons, Option.mem_toList, Option.map_eq_some_iff] at hmember
  rcases hmember with ⟨details, -, rfl⟩ | rfl | hrules | hexceptions
  · exact details.hasForm_toJson
  · simp [Token.hasForm_toJson]
  · exact hasForm_of_mem_listMember StemRule.hasForm_toJson hrules
  · exact hasForm_of_mem_listMember StemException.hasForm_toJson hexceptions

/-! ### Records of a table -/

/-- A priority is read back. -/
theorem Priority.ofJson?_toJson (priority : Priority) :
    Priority.ofJson? priority.toJson = some priority := by
  cases priority with
  | raw value => simp [ofJson?, toJson, Json.asCaseOrRaw?, Json.asEngineCode?_toInt]
  | _ => rfl

/-- A condition is read back. -/
theorem Acceptance.ofJson?_toJson (condition : Acceptance) :
    Acceptance.ofJson? condition.toJson = some condition := by
  cases condition with
  | raw code => simp [ofJson?, toJson, Json.asCaseOrRaw?, Json.asEngineCode?_toInt]
  | _ => rfl

/-- A way of matching is read back. -/
theorem Matching.ofTableName?_tableName (matching : Matching) :
    Matching.ofTableName? matching.tableName = some matching := by
  cases matching <;> rfl

/-- A token is read back. -/
theorem Token.ofJson?_toJson (token : Token) : Token.ofJson? token.toJson = some token := by
  have hslots := Json.slots?_obj_members fieldNames
    [some (.str token.category.tableName), some (.str token.pattern), some (.str token.value1),
      some (.str token.value2), some (.str token.value3), some (.str token.tag),
      some (.str token.matching.tableName), some token.priority.toJson,
      some token.acceptance.toJson] (by decide) rfl
  have htoken : token.toJson.slots? fieldNames = _ := hslots
  rw [ofJson?, htoken]
  simp [Category.ofTableName?_tableName, Matching.ofTableName?_tableName, Priority.ofJson?_toJson,
    Acceptance.ofJson?_toJson]

/-- Scheme details are read back. -/
theorem Details.ofJson?_toJson (details : Details) :
    Details.ofJson? details.toJson = some details := by
  have hslots := Json.slots?_obj_members fieldNames
    [some (.str details.languageCode), some (.str details.identifier),
      some (.str details.displayName), some (.str details.author),
      some (.str details.compiledDate), some (.bool details.isStable)] (by decide) rfl
  have hdetails : details.toJson.slots? fieldNames = _ := hslots
  rw [ofJson?, hdetails]
  simp

/-- A stem rule is read back. -/
theorem StemRule.ofJson?_toJson (rule : StemRule) : StemRule.ofJson? rule.toJson = some rule := by
  have hslots := Json.slots?_obj_members ["old_ending", "new_ending"]
    [some (.str rule.oldEnding), some (.str rule.newEnding)] (by decide) rfl
  have hrule : rule.toJson.slots? ["old_ending", "new_ending"] = _ := hslots
  rw [ofJson?, hrule]
  simp

/-- A stem exception is read back. -/
theorem StemException.ofJson?_toJson (exempt : StemException) :
    StemException.ofJson? exempt.toJson = some exempt := by
  have hslots := Json.slots?_obj_members ["rule", "exception"]
    [some (.str exempt.rule), some (.str exempt.ending)] (by decide) rfl
  have hexempt : exempt.toJson.slots? ["rule", "exception"] = _ := hslots
  rw [ofJson?, hexempt]
  simp

namespace Table

/-- The value of a list that is left out when it is empty. -/
def listValue? {α : Type} (write : α → Json) : List α → Option Json
  | [] => none
  | items => some (.arr (items.map write))

/-- A list that is left out when it is empty is read back, since it is empty by default. -/
theorem withDefault_listValue? {α : Type} {read : Json → Option α} {write : α → Json}
    (hread : ∀ item, read (write item) = some item) (items : List α) :
    (Json.Slot.ofWritten (listValue? write items)).withDefault [] (Json.asList? read) =
      some items := by
  cases items with
  | nil => rfl
  | cons item items => exact Json.asList?_arr_map hread (item :: items)

/-- A table is written as an object of its fields. -/
theorem toJson_eq (table : Table) :
    table.toJson = .obj (Json.Field.members
      (["details", "tokens", "stem_rules", "stem_exceptions"].zip
        [table.details.map Details.toJson, some (.arr (table.tokens.map Token.toJson)),
          listValue? StemRule.toJson table.stemRules,
          listValue? StemException.toJson table.stemExceptions])) := by
  obtain ⟨details, tokens, stemRules, stemExceptions⟩ := table
  cases details <;> cases stemRules <;> cases stemExceptions <;> rfl

/-- A table is read back. -/
theorem ofJson?_toJson (table : Table) : Table.ofJson? table.toJson = some table := by
  have hdetails : (Json.Slot.ofWritten (table.details.map Details.toJson)).withDefault none
      (fun value => (Json.Slot.given value).optional Details.ofJson?) = some table.details := by
    cases table.details with
    | none => rfl
    | some details =>
      have hread := Details.ofJson?_toJson details
      rw [Details.toJson] at hread
      simp [Details.toJson, Json.Slot.optional, hread]
  have htokens := Json.asList?_arr_map Token.ofJson?_toJson table.tokens
  rw [ofJson?, toJson_eq, Json.slots?_obj_members _ _ (by decide) rfl]
  simp [hdetails, htokens, withDefault_listValue? StemRule.ofJson?_toJson,
    withDefault_listValue? StemException.ofJson?_toJson]

/-- The table that the text of a table describes is the table. -/
theorem parse?_text (table : Table) : parse? table.text = some table := by
  rw [parse?, text, table.hasForm_toJson.parse?_pretty, Option.bind_some, ofJson?_toJson]

end Table

end TranslitScheme
