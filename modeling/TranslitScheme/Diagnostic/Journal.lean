import TranslitScheme.Diagnostic.Basic

/-!
# The diagnostics journal

A compilation writes its findings into a journal. The journal stamps each one with the
location and expression that are active, replaces its severity when the settings override
that code, and also carries the tag that is active.

Overrides are kept by the text of a code, and hold at most one severity for each text.
-/

namespace TranslitScheme

/-- Severities that replace the usual ones, by the text of a code. -/
structure Overrides where
  entries : List (String × Severity)
  keys_nodup : (entries.map Prod.fst).Nodup
  deriving DecidableEq, Repr

namespace Overrides

/-- No overrides. -/
def empty : Overrides := ⟨[], List.nodup_nil⟩

instance : Inhabited Overrides := ⟨empty⟩

/-- The severity set for a code text, if any. -/
def get? (overrides : Overrides) (key : String) : Option Severity :=
  overrides.entries.lookup key

/-- The severity of a code: the override when there is one, else the usual severity. -/
def severityOf (overrides : Overrides) (code : DiagnosticCode) (usual : Severity) : Severity :=
  (overrides.get? code.name).getD usual

/-- Replace the severity of a listed key, or list the key at the end. -/
def put (key : String) (severity : Severity) : List (String × Severity) → List (String × Severity)
  | [] => [(key, severity)]
  | entry :: rest =>
    if entry.1 = key then (key, severity) :: rest else entry :: put key severity rest

/-- Putting a key lists it and keeps all other keys. -/
theorem mem_keys_put (key other : String) (severity : Severity)
    (entries : List (String × Severity)) :
    other ∈ (put key severity entries).map Prod.fst ↔
      other = key ∨ other ∈ entries.map Prod.fst := by
  induction entries with
  | nil => simp [put]
  | cons entry rest ih =>
    by_cases hkey : entry.1 = key
    · simp [put, hkey]
    · rw [put, if_neg hkey, List.map_cons, List.mem_cons, ih, List.map_cons, List.mem_cons]
      exact or_left_comm

/-- Putting a key never lists one twice. -/
theorem nodup_keys_put (key : String) (severity : Severity) (entries : List (String × Severity))
    (hentries : (entries.map Prod.fst).Nodup) :
    ((put key severity entries).map Prod.fst).Nodup := by
  induction entries with
  | nil => simp [put]
  | cons entry rest ih =>
    rw [List.map_cons, List.nodup_cons] at hentries
    by_cases hkey : entry.1 = key
    · simpa [put, hkey] using ⟨by simpa [hkey] using hentries.1, hentries.2⟩
    · rw [put, if_neg hkey, List.map_cons, List.nodup_cons, mem_keys_put, not_or]
      exact ⟨⟨hkey, hentries.1⟩, ih hentries.2⟩

/-- Set the severity for a code text. -/
def set (overrides : Overrides) (key : String) (severity : Severity) : Overrides where
  entries := put key severity overrides.entries
  keys_nodup := nodup_keys_put key severity overrides.entries overrides.keys_nodup

/-- Collect overrides; of two severities for one key the later one holds. -/
def ofList (entries : List (String × Severity)) : Overrides :=
  entries.foldl (fun overrides entry => overrides.set entry.1 entry.2) empty

end Overrides

/-- What one part of a scheme is found to be, before it is stamped and recorded. -/
structure Finding where
  code : DiagnosticCode
  severity : Severity
  message : String
  deriving DecidableEq, Repr, Inhabited

/-- The diagnostics of one compilation and what they are stamped with. -/
structure Journal where
  overrides : Overrides := .empty
  entries : List Diagnostic := []
  location : Option Location := none
  tag : Option String := none
  expression : Option String := none
  deriving DecidableEq, Repr, Inhabited

namespace Journal

/-- The diagnostic that a finding becomes in a journal. -/
def stamp (journal : Journal) (finding : Finding) : Diagnostic where
  code := finding.code
  severity := journal.overrides.severityOf finding.code finding.severity
  message := finding.message
  location := journal.location
  expression := journal.expression

/-- Record one finding. -/
def record (journal : Journal) (finding : Finding) : Journal :=
  { journal with entries := journal.entries ++ [journal.stamp finding] }

/-- Record findings in order. -/
def recordAll (journal : Journal) (findings : List Finding) : Journal :=
  findings.foldl record journal

/-- Record a finding that is usually an error. -/
def error (journal : Journal) (code : DiagnosticCode) (message : String) : Journal :=
  journal.record ⟨code, .error, message⟩

/-- Record a finding that is usually a warning. -/
def warning (journal : Journal) (code : DiagnosticCode) (message : String) : Journal :=
  journal.record ⟨code, .warn, message⟩

/-- Record an error about a given expression and go back to the active one. -/
def errorIn (journal : Journal) (code : DiagnosticCode) (expression message : String) : Journal :=
  let reported := { journal with expression := some expression }.error code message
  { reported with expression := journal.expression }

/-- The number of errors recorded. -/
def errors (journal : Journal) : Nat := Diagnostic.count .error journal.entries

/-- The number of warnings recorded. -/
def warnings (journal : Journal) : Nat := Diagnostic.count .warn journal.entries

/-- Recording several findings appends each of them, stamped alike. -/
theorem recordAll_eq (journal : Journal) (findings : List Finding) :
    journal.recordAll findings =
      { journal with entries := journal.entries ++ findings.map journal.stamp } := by
  induction findings generalizing journal with
  | nil => simp [recordAll]
  | cons finding rest ih =>
    have hstep : journal.recordAll (finding :: rest) =
        (journal.record finding).recordAll rest := rfl
    rw [hstep, ih]
    simp [record, stamp, List.append_assoc]

end Journal

end TranslitScheme
