import TranslitScheme.Proofs.Json.Record
import TranslitScheme.Report.Document

/-!
# Tables and reports survive being stored

The text of a table describes the table, whatever its tokens hold and whichever of its parts
are empty. The text of a report describes the report exactly when its numbers fit into the
unsigned integers of 32 and 64 bits that reading asks for; nothing else about a report can keep
it from being read back.
-/

namespace TranslitScheme

namespace Json

/-- A natural number is read back exactly when it is below the limit. -/
@[simp] theorem asNat?_int_eq_some_iff (limit number found : Nat) :
    asNat? limit (.int number) = some found ↔ number < limit ∧ number = found := by
  have hread : asNat? limit (.int number) = if number < limit then some number else none := rfl
  by_cases hnumber : number < limit <;> simp [hread, hnumber]

/-- A value that may be absent is read back exactly when it is where it is present, as long as
no present value is written as `null`. -/
theorem optional_ofOption_eq_some_iff {α : Type} (read : Json → Option α) (write : α → Json)
    (hnull : ∀ value, write value ≠ .null) (value : Option α) :
    (Slot.given (ofOption write value)).optional read = some value ↔
      ∀ item ∈ value, read (write item) = some item := by
  cases value with
  | none => simp [ofOption, Slot.optional]
  | some item =>
    have hitem := hnull item
    simp only [ofOption, Option.mem_def, Option.some.injEq, forall_eq']
    unfold Slot.optional
    split <;> simp_all

end Json

/-! ### The numbers of a report -/

/-- The step of a location is a count. -/
def Location.Fits (location : Location) : Prop := ∀ step ∈ location.step, step < countLimit

/-- The location of a diagnostic has a step that is a count. -/
def Diagnostic.Fits (diagnostic : Diagnostic) : Prop :=
  ∀ location ∈ diagnostic.location, location.Fits

/-- Major and minor number have 32 bits. -/
structure ReportVersion.Fits (version : ReportVersion) : Prop where
  major : version.major < 4294967296
  minor : version.minor < 4294967296

/-- The numbers of a summary are counts. -/
structure Summary.Fits (summary : Summary) : Prop where
  total : summary.total < countLimit
  errors : summary.errors < countLimit
  warnings : summary.warnings < countLimit
  info : summary.info < countLimit
  tokensCreated : summary.tokensCreated < countLimit
  schemesCompiled : summary.schemesCompiled < countLimit

/-- All numbers of a report fit into the integers that store them. -/
structure Report.Fits (report : Report) : Prop where
  version : report.version.Fits
  summary : report.summary.Fits
  diagnostics : ∀ diagnostic ∈ report.diagnostics, diagnostic.Fits

/-! ### JSON forms of a report -/

/-- A location has a JSON form. -/
theorem Location.hasForm_toJson (location : Location) : location.toJson.HasForm := by
  have hstep := Json.hasForm_ofOption (fun step : Nat => Json.HasForm.int step) location.step
  simp [toJson, hstep]

/-- A diagnostic has a JSON form. -/
theorem Diagnostic.hasForm_toJson (diagnostic : Diagnostic) : diagnostic.toJson.HasForm := by
  have hlocation := Json.hasForm_ofOption Location.hasForm_toJson diagnostic.location
  have hexpression := Json.hasForm_ofOption Json.HasForm.str diagnostic.expression
  simp [toJson, hlocation, hexpression]

/-- A version has a JSON form. -/
theorem ReportVersion.hasForm_toJson (version : ReportVersion) : version.toJson.HasForm := by
  simp [toJson]

/-- A summary has a JSON form. -/
theorem Summary.hasForm_toJson (summary : Summary) : summary.toJson.HasForm := by
  simp [toJson]

/-- A report has a JSON form. -/
theorem Report.hasForm_toJson (report : Report) : report.toJson.HasForm := by
  rw [toJson, Json.hasForm_obj_iff]
  intro member hmember
  rw [List.mem_append] at hmember
  cases hmember with
  | inl hfixed =>
    simp only [List.mem_cons, List.not_mem_nil, or_false] at hfixed
    rcases hfixed with rfl | rfl | rfl | rfl
    · exact report.version.hasForm_toJson
    · exact .str report.timestamp
    · exact report.summary.hasForm_toJson
    · simp [Diagnostic.hasForm_toJson]
  | inr hschemes => exact Table.hasForm_of_mem_listMember Details.hasForm_toJson hschemes

/-! ### Records of a report -/

/-- A location is read back exactly when its step is a count. -/
theorem Location.ofJson?_toJson_iff (location : Location) :
    Location.ofJson? location.toJson = some location ↔ location.Fits := by
  have hslots := Json.slots?_obj_members ["file", "step"]
    [some (.str location.file), some (Json.ofOption (fun step : Nat => .int step) location.step)]
    (by decide) rfl
  have hlocation : location.toJson.slots? ["file", "step"] = _ := hslots
  have hstep := Json.optional_ofOption_eq_some_iff (Json.asNat? countLimit)
    (fun step : Nat => .int step) (fun _ => nofun) location.step
  rw [ofJson?, hlocation]
  obtain ⟨file, step⟩ := location
  simp [Option.bind_eq_some_iff, hstep, Fits]

/-- A diagnostic is read back exactly when its location is. -/
theorem Diagnostic.ofJson?_toJson_iff (diagnostic : Diagnostic) :
    Diagnostic.ofJson? diagnostic.toJson = some diagnostic ↔ diagnostic.Fits := by
  have hslots := Json.slots?_obj_members ["code", "severity", "message", "location", "expression"]
    [some (.str diagnostic.code.name), some (.str diagnostic.severity.name),
      some (.str diagnostic.message), some (Json.ofOption Location.toJson diagnostic.location),
      some (Json.ofOption Json.str diagnostic.expression)] (by decide) rfl
  have hdiagnostic : diagnostic.toJson.slots?
      ["code", "severity", "message", "location", "expression"] = _ := hslots
  have hlocation := Json.optional_ofOption_eq_some_iff Location.ofJson? Location.toJson
    (fun _ => nofun) diagnostic.location
  have hexpression := Json.optional_ofOption_eq_some_iff Json.asText? Json.str
    (fun _ => nofun) diagnostic.expression
  rw [ofJson?, hdiagnostic]
  obtain ⟨code, severity, message, location, expression⟩ := diagnostic
  simp [DiagnosticCode.ofName?_name, Severity.ofName?_name, Option.bind_eq_some_iff, hlocation,
    hexpression, Location.ofJson?_toJson_iff, Fits]

/-- A version is read back exactly when its numbers have 32 bits. -/
theorem ReportVersion.ofJson?_toJson_iff (version : ReportVersion) :
    ReportVersion.ofJson? version.toJson = some version ↔ version.Fits := by
  have hslots := Json.slots?_obj_members ["major", "minor"]
    [some (.int version.major), some (.int version.minor)] (by decide) rfl
  have hversion : version.toJson.slots? ["major", "minor"] = _ := hslots
  have hparts : ReportVersion.ofJson? version.toJson = some version ↔
      version.major < 4294967296 ∧ version.minor < 4294967296 := by
    rw [ofJson?, hversion]
    obtain ⟨major, minor⟩ := version
    simp [Option.bind_eq_some_iff]
  rw [hparts]
  exact ⟨fun ⟨hmajor, hminor⟩ => ⟨hmajor, hminor⟩, fun hfits => ⟨hfits.major, hfits.minor⟩⟩

/-- A summary is read back exactly when its numbers are counts. -/
theorem Summary.ofJson?_toJson_iff (summary : Summary) :
    Summary.ofJson? summary.toJson = some summary ↔ summary.Fits := by
  have hslots := Json.slots?_obj_members
    ["total", "errors", "warnings", "info", "tokens_created", "schemes_compiled"]
    [some (.int summary.total), some (.int summary.errors), some (.int summary.warnings),
      some (.int summary.info), some (.int summary.tokensCreated),
      some (.int summary.schemesCompiled)] (by decide) rfl
  have hsummary : summary.toJson.slots?
      ["total", "errors", "warnings", "info", "tokens_created", "schemes_compiled"] = _ := hslots
  have hparts : Summary.ofJson? summary.toJson = some summary ↔
      summary.total < countLimit ∧ summary.errors < countLimit ∧ summary.warnings < countLimit ∧
        summary.info < countLimit ∧ summary.tokensCreated < countLimit ∧
        summary.schemesCompiled < countLimit := by
    rw [ofJson?, hsummary]
    obtain ⟨total, errors, warnings, info, tokensCreated, schemesCompiled⟩ := summary
    simp [Option.bind_eq_some_iff, and_assoc]
  rw [hparts]
  constructor
  · rintro ⟨htotal, herrors, hwarnings, hinfo, htokens, hschemes⟩
    exact ⟨htotal, herrors, hwarnings, hinfo, htokens, hschemes⟩
  · intro hfits
    exact ⟨hfits.total, hfits.errors, hfits.warnings, hfits.info, hfits.tokensCreated,
      hfits.schemesCompiled⟩

namespace Report

/-- A report is written as an object of its fields. -/
theorem toJson_eq (report : Report) :
    report.toJson = .obj (Json.Field.members
      (["version", "timestamp", "summary", "diagnostics", "schemes"].zip
        [some report.version.toJson, some (.str report.timestamp), some report.summary.toJson,
          some (.arr (report.diagnostics.map Diagnostic.toJson)),
          Table.listValue? Details.toJson report.schemes])) := by
  obtain ⟨version, timestamp, summary, diagnostics, schemes⟩ := report
  cases schemes <;> rfl

/-- A report is read back exactly when its numbers fit. -/
theorem ofJson?_toJson_iff (report : Report) :
    Report.ofJson? report.toJson = some report ↔ report.Fits := by
  have hversion := report.version.ofJson?_toJson_iff
  have hsummary := report.summary.ofJson?_toJson_iff
  have hdiagnostics : Json.asList? Diagnostic.ofJson?
      (.arr (report.diagnostics.map Diagnostic.toJson)) = some report.diagnostics ↔
        ∀ diagnostic ∈ report.diagnostics, diagnostic.Fits := by
    simp only [← Diagnostic.ofJson?_toJson_iff]
    exact Json.mapM_map_eq_some_iff Diagnostic.ofJson? Diagnostic.toJson report.diagnostics
  have hschemes := Table.withDefault_listValue? Details.ofJson?_toJson report.schemes
  rw [ofJson?, toJson_eq, Json.slots?_obj_members _ _ (by decide) rfl]
  obtain ⟨version, timestamp, summary, diagnostics, schemes⟩ := report
  constructor
  · intro hread
    simp only [List.map_cons, List.map_nil, Json.Slot.ofWritten_some, Json.Slot.required_given,
      Json.asText?_str, Option.pure_def, Option.bind_eq_bind, Option.bind_some,
      Option.bind_eq_some_iff, Option.some.injEq, mk.injEq, true_and] at hread
    obtain ⟨_, hreadVersion, _, hreadSummary, _, hreadDiagnostics, _, -, rfl, rfl, rfl, rfl⟩ :=
      hread
    exact ⟨hversion.mp hreadVersion, hsummary.mp hreadSummary, hdiagnostics.mp hreadDiagnostics⟩
  · intro hfits
    simp [hversion.mpr hfits.version, hsummary.mpr hfits.summary,
      hdiagnostics.mpr hfits.diagnostics, hschemes]

/-- The text of a report describes the report exactly when its numbers fit. -/
theorem parse?_text_iff (report : Report) : parse? report.text = some report ↔ report.Fits := by
  rw [parse?, text, report.hasForm_toJson.parse?_pretty, Option.bind_some, ofJson?_toJson_iff]

end Report

/-- Every table is what its text describes, and so is every report whose numbers fit into the
integers that store them. -/
theorem stored_texts_describe :
    (∀ table : Table, Table.parse? table.text = some table) ∧
      ∀ report : Report, Report.parse? report.text = some report ↔ report.Fits :=
  ⟨Table.parse?_text, Report.parse?_text_iff⟩

end TranslitScheme
