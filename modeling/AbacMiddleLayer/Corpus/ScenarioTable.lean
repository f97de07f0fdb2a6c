import AbacMiddleLayer.Corpus.CanonicalScenarios
import Mathlib.Data.List.GetD

/-! # The scenario table and its readers

`write_scenarios_tsv` on scenarios as `json.load` gives them, valid under the schema or
not, and the thirteen fields that `MiddleLayerCorpusRunner` and `CasbinCorpusRunner` find
in the file by the names in its header. The writer refuses tabs and line feeds; a carriage
return passes, and ends a line for the Java runner only.
-/
namespace AbacMiddleLayer.Corpus
open Tsv

variable {V : Type*}

/-- The values under the keys of a scenario and of its three parts; `none` is a missing key or
a `null`. -/
structure Loaded (V : Type*) where
  self : String → Option V
  subject : String → Option V
  resource : String → Option V
  environment : String → Option V

/-- The function `field`, for any conversion of values to texts. -/
def fieldText (str : V → Text) (d : String → Option V) (key : String) : Text :=
  match d key with
  | none => []
  | some v => str v

def Loaded.row (str : V → Text) (s : Loaded V) : List Text :=
  [fieldText str s.self "id", fieldText str s.subject "id", fieldText str s.subject "role",
    fieldText str s.subject "department", fieldText str s.subject "clearance",
    fieldText str s.resource "id", fieldText str s.resource "owner",
    fieldText str s.resource "department", fieldText str s.resource "classification",
    fieldText str s.self "action", fieldText str s.environment "network",
    fieldText str s.environment "hour", fieldText str s.self "expected"]

/-- The text of the file; `none` is the `ValueError` for a tab or newline in a field. -/
def writeLoadedTsv (str : V → Text) (scenarios : List (Loaded V)) : Option Text :=
  if scenarios.any fun s => (s.row str).any fun c => decide ('\t' ∈ c ∨ '\n' ∈ c) then none
  else some (unlines (join '\t' header :: scenarios.map fun s => join '\t' (s.row str)))

/-- A scenario that is valid under the schema, as it is loaded. -/
def Scenario.loaded (s : Scenario) : Loaded (Field Number) where
  self
    | "id" => some (.text s.id)
    | "action" => s.get .action
    | "expected" => some (.text s.expected.str.toList)
    | _ => none
  subject
    | "id" => s.get .subjectId
    | "role" => s.get .subjectRole
    | "department" => s.get .subjectDepartment
    | "clearance" => s.get .subjectClearance
    | _ => none
  resource
    | "id" => s.get .resourceId
    | "owner" => s.get .resourceOwner
    | "department" => s.get .resourceDepartment
    | "classification" => s.get .resourceClassification
    | _ => none
  environment
    | "network" => s.get .envNetwork
    | "hour" => s.get .envHour
    | _ => none

theorem fieldText_eq (d : String → Option (Field Number)) (key : String) :
    fieldText Field.str d key = field (d key) := by
  unfold fieldText field
  cases d key <;> rfl

theorem Scenario.row_loaded (s : Scenario) : s.loaded.row Field.str = s.row := by
  simp only [Loaded.row, fieldText_eq]
  rfl

/-- Scenarios that are valid under the schema are written as `writeScenariosTsv` has it. -/
theorem writeLoadedTsv_loaded (scenarios : List Scenario) :
    writeLoadedTsv Field.str (scenarios.map Scenario.loaded) = writeScenariosTsv scenarios := by
  simp only [writeLoadedTsv, writeScenariosTsv, List.any_map, List.map_map, Function.comp_def,
    Scenario.row_loaded]

/-- The fields of each row by the names of the columns; without a header `rows.get(0)` fails. -/
def javaFields (tsv : Text) : Option (List (List Text)) :=
  match readTsv tsv with
  | [] => none
  | first :: rows => some (rows.map fun row => columns.map fun name => get row (indexHeader first) name)

/-- The fields in the map from names to cells; `none` is a name that the map does not have. -/
def cppFields (tsv : Text) : Option (List (List (Option Text))) :=
  match readTsvRows tsv with
  | [] => none
  | first :: rows => some (rows.map fun row =>
      columns.map fun name => (first.zip row).reverse.lookup name.toList)

/-- Both runners find one row per scenario, in order, with all fields as they were written. -/
def RoundTrips (str : V → Text) (scenarios : List (Loaded V)) (tsv : Text) : Prop :=
  javaFields tsv = some (scenarios.map (Loaded.row str)) ∧
    cppFields tsv = some (scenarios.map fun s => (s.row str).map some)

theorem map_get_header {row : List Text} (h : row.length = header.length) :
    (columns.map fun name => get row (indexHeader header) name) = row := by
  have hlength : columns.length = row.length := by rw [h, header, List.length_map]
  apply List.ext_getElem
  · rw [List.length_map, hlength]
  · intro i hi hi'
    rw [List.length_map] at hi
    rw [List.getElem_map, get, lookup_header hi]
    exact List.getD_eq_getElem _ _ hi'

theorem map_lookup_header {row : List Text} (h : row.length = header.length) :
    (columns.map fun name => (header.zip row).reverse.lookup name.toList) = row.map some := by
  have hlength : columns.length = row.length := by rw [h, header, List.length_map]
  apply List.ext_getElem
  · rw [List.length_map, List.length_map, hlength]
  · intro i hi hi'
    rw [List.length_map] at hi hi'
    rw [List.getElem_map, lookup_zip header row h.symm, lookup_header hi, List.getElem_map,
      Option.map_some, List.getD_eq_getElem _ _ hi']

section Written
variable {str : V → Text} {scenarios : List (Loaded V)} {tsv : Text}

theorem writeLoadedTsv_eq (str : V → Text) (scenarios : List (Loaded V)) :
    writeLoadedTsv str scenarios = writeTable (scenarios.map (Loaded.row str)) := by
  simp only [writeLoadedTsv, writeTable, List.any_map, List.map_cons, List.map_map,
    Function.comp_def]

theorem length_loadedRow : ∀ r ∈ scenarios.map (Loaded.row str), r.length = header.length := by
  intro r hr
  obtain ⟨s, -, rfl⟩ := List.mem_map.mp hr
  rfl

/-- The C++ runner reads every file back. -/
theorem cppFields_loaded (h : writeLoadedTsv str scenarios = some tsv) :
    cppFields tsv = some (scenarios.map fun s => (s.row str).map some) := by
  rw [writeLoadedTsv_eq] at h
  rw [cppFields, readTsvRows_writeTable h length_loadedRow]
  simp only [List.map_map, Option.some.injEq]
  exact List.map_congr_left fun s _ => map_lookup_header rfl

theorem javaFields_loaded (h : writeLoadedTsv str scenarios = some tsv)
    (hcr : ∀ s ∈ scenarios, ∀ t ∈ s.row str, '\r' ∉ t) :
    javaFields tsv = some (scenarios.map (Loaded.row str)) := by
  rw [writeLoadedTsv_eq] at h
  rw [javaFields, readTsv_writeTable h length_loadedRow (List.forall_mem_map.mpr hcr)]
  simp only [List.map_map, Option.some.injEq]
  exact List.map_congr_left fun s _ => map_get_header rfl

theorem cr_notMem_get {r : List Text} (hr : r ∈ readTsv tsv) (col : List (Text × ℕ)) (name : String) :
    '\r' ∉ get r col name := by
  rw [get]
  cases col.lookup name.toList with
  | none => simp
  | some i =>
    change '\r' ∉ r.getD i []
    by_cases hi : i < r.length
    · rw [List.getD_eq_getElem _ _ hi]
      exact cr_notMem_readTsv hr (List.getElem_mem hi)
    · rw [List.getD_eq_default _ _ (by omega)]
      simp

theorem cr_notMem_of_javaFields {rows : List (List Text)} (h : javaFields tsv = some rows) :
    ∀ r ∈ rows, ∀ t ∈ r, '\r' ∉ t := by
  rw [javaFields] at h
  cases htsv : readTsv tsv with
  | nil => simp [htsv] at h
  | cons first rest =>
    rw [htsv] at h
    obtain rfl := Option.some.inj h
    intro r hr t ht
    obtain ⟨row, hrow, rfl⟩ := List.mem_map.mp hr
    obtain ⟨name, -, rfl⟩ := List.mem_map.mp ht
    have hmem : row ∈ readTsv tsv := by
      rw [htsv]
      exact List.mem_cons_of_mem _ hrow
    exact cr_notMem_get hmem _ name

/-- What was written is read back by both runners exactly when no field has a carriage return. -/
theorem scenarios_roundTrip_iff (h : writeLoadedTsv str scenarios = some tsv) :
    RoundTrips str scenarios tsv ↔ ∀ s ∈ scenarios, ∀ t ∈ s.row str, '\r' ∉ t := by
  constructor
  · rintro ⟨hjava, -⟩ s hs
    exact cr_notMem_of_javaFields hjava _ (List.mem_map_of_mem hs)
  · exact fun hcr => ⟨javaFields_loaded h hcr, cppFields_loaded h⟩

end Written

/-- The ten canonical scenarios come back, field by field. -/
theorem canonicalScenarios_roundTrip : ∃ tsv,
    writeLoadedTsv Field.str (canonicalScenarios.map Scenario.loaded) = some tsv ∧
      RoundTrips Field.str (canonicalScenarios.map Scenario.loaded) tsv := by
  obtain ⟨tsv, htsv⟩ := exists_tsv_of_portable canonicalScenarios_portable
  rw [← writeLoadedTsv_loaded] at htsv
  refine ⟨tsv, htsv, (scenarios_roundTrip_iff htsv).mpr (List.forall_mem_map.mpr fun s hs t ht => ?_)⟩
  rw [Scenario.row_loaded] at ht
  rcases mem_row ht with ⟨a, rfl⟩ | hcut
  · exact fun hc =>
      (isCut_eq_false.mp (field_of_portable (canonicalScenarios_portable s hs) a _ hc)).2.2 rfl
  · exact fun hc => (isCut_eq_false.mp (hcut _ hc)).2.2 rfl

/-- A scenario with nothing but an identifier. -/
def identifierOnly (id : Text) : Loaded Text where
  self
    | "id" => some id
    | _ => none
  subject := fun _ => none
  resource := fun _ => none
  environment := fun _ => none

/-- The writer accepts a carriage return in an identifier, and the Java runner reads two rows. -/
theorem carriageReturn_splits_row : ∃ tsv, writeLoadedTsv id [identifierOnly ['a', '\r', 'b']] = some tsv ∧
    (readTsv tsv).length = 3 ∧ ¬ RoundTrips id [identifierOnly ['a', '\r', 'b']] tsv := by
  refine ⟨_, rfl, by decide +kernel, ?_⟩
  rintro ⟨hjava, -⟩
  have hcr := cr_notMem_of_javaFields hjava _ (List.mem_map_of_mem (List.mem_singleton.mpr rfl))
    ['a', '\r', 'b'] List.mem_cons_self
  exact hcr (by decide)

end AbacMiddleLayer.Corpus
