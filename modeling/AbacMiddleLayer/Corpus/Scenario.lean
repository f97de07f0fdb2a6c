import AbacMiddleLayer.Corpus.Attributes
import AbacMiddleLayer.Decimal
import AbacMiddleLayer.Tsv
import AbacMiddleLayer.Xml.References

/-! # Scenarios and their table

A scenario that is valid under `scenario.schema.json`, as `json.load` gives it to
`generate-corpus.py`, the table `scenarios.tsv` written from a list of them, and the rows
that the Java and the C++ runner read back from it.
-/
namespace AbacMiddleLayer.Corpus
open Decimal Tsv

/-- The text of a Python `float`: there is a point, an exponent, or `inf` or `nan` in it. -/
structure FloatText where
  text : Text
  chars : ∀ c ∈ text, c.isDigit = true ∨ c ∈ ['-', '+', '.', 'e', 'i', 'n', 'f', 'a']
  shown : ∃ c ∈ text, c = '.' ∨ c = 'e' ∨ c = 'n'

inductive Number where
  | int (n : ℤ)
  | float (x : FloatText)

def Number.str : Number → Text
  | .int n => decimal n
  | .float x => x.text

def Field.str : Field Number → Text
  | .text s => s
  | .number n => n.str

inductive Expected where
  | permit
  | deny
  | notApplicable
  | indeterminate
deriving DecidableEq, Repr

def Expected.str : Expected → String
  | .permit => "Permit"
  | .deny => "Deny"
  | .notApplicable => "NotApplicable"
  | .indeterminate => "Indeterminate"

/-- The pattern `^[a-z0-9][a-z0-9-]*$` of identifiers. -/
def isScenarioId : Text → Bool
  | [] => false
  | c :: cs => (c.isLower || c.isDigit) && cs.all fun d => d.isLower || d.isDigit || d = '-'

/-- A scenario with what the schema demands of it. -/
structure Scenario where
  id : Text
  subjectId : Text
  subjectRole : Option Text
  subjectDepartment : Option Text
  subjectClearance : Option Number
  resourceId : Text
  resourceOwner : Option Text
  resourceDepartment : Option Text
  resourceClassification : Option Number
  action : Text
  envNetwork : Option Text
  envHour : Option Number
  expected : Expected
  idPattern : isScenarioId id = true
  actionLength : action ≠ []
  hourRange : ∀ n, envHour = some (.int n) → 0 ≤ n ∧ n ≤ 23

/-- What `d.get(key)` finds for each of the canonical attributes. -/
def Scenario.arguments (s : Scenario) : Arguments Number where
  subjectId := some s.subjectId
  subjectRole := s.subjectRole
  subjectDepartment := s.subjectDepartment
  subjectClearance := s.subjectClearance
  resourceId := some s.resourceId
  resourceOwner := s.resourceOwner
  resourceDepartment := s.resourceDepartment
  resourceClassification := s.resourceClassification
  action := some s.action
  envNetwork := s.envNetwork
  envHour := s.envHour

def Scenario.get (s : Scenario) (a : Attribute) : Option (Field Number) := s.arguments.get a

def field : Option (Field Number) → Text
  | none => []
  | some v => v.str

def columns : List String :=
  ["id", "subject_id", "subject_role", "subject_department", "subject_clearance",
    "resource_id", "resource_owner", "resource_department", "resource_classification",
    "action", "env_network", "env_hour", "expected"]

def Scenario.row (s : Scenario) : List Text :=
  [s.id, field (s.get .subjectId), field (s.get .subjectRole),
    field (s.get .subjectDepartment), field (s.get .subjectClearance),
    field (s.get .resourceId), field (s.get .resourceOwner),
    field (s.get .resourceDepartment), field (s.get .resourceClassification),
    field (s.get .action), field (s.get .envNetwork), field (s.get .envHour),
    s.expected.str.toList]

def header : List Text := columns.map String.toList

theorem header_nodup : header.Nodup := by
  have h : columns.Nodup := by decide
  exact h.map fun _ _ he => String.toList_inj.mp he

theorem lookup_header {i : ℕ} (hi : i < columns.length) :
    (indexHeader header).lookup (columns[i]).toList = some i := by
  have h := lookup_indexHeader header_nodup (i := i) (by rwa [header, List.length_map])
  simp only [header, List.getElem_map] at h ⊢
  exact h

/-- The text of the table; `none` is the `ValueError` for a tab or newline in a field. -/
def writeScenariosTsv (scenarios : List Scenario) : Option Text :=
  if scenarios.any fun s => s.row.any fun c => decide ('\t' ∈ c ∨ '\n' ∈ c) then none
  else some (unlines (join '\t' header :: scenarios.map fun s => join '\t' s.row))

/-- The rows of `CasbinCorpusRunner`: lines end at a line feed. -/
def readTsvRows (tsv : Text) : List (List Text) := (lines tsv).map (split '\t')

/-- The rows of `MiddleLayerCorpusRunner`: a carriage return ends a line as well. -/
def readTsv (tsv : Text) : List (List Text) :=
  (lines (Xml.normalizeLineEnds tsv)).map (split '\t')

/-- The characters that end a cell or a line when the table is read. -/
def isCut (c : Char) : Bool := c = '\t' || c = '\n' || c = '\r'

theorem isCut_eq_false {c : Char} : isCut c = false ↔ c ≠ '\t' ∧ c ≠ '\n' ∧ c ≠ '\r' := by
  simp [isCut, and_assoc]

theorem header_notCut : ∀ c ∈ header, ∀ d ∈ c, isCut d = false := by
  simp only [header, columns, List.map_cons, List.map_nil, List.mem_cons, List.not_mem_nil, or_false,
    forall_eq_or_imp, forall_eq]
  refine ⟨?_, ?_, ?_, ?_, ?_, ?_, ?_, ?_, ?_, ?_, ?_, ?_, ?_⟩ <;> exact forall_toList (by decide)

/-- The text of a table with the given rows, under the check of `write_scenarios_tsv`. -/
def writeTable (rows : List (List Text)) : Option Text :=
  if rows.any fun r => r.any fun c => decide ('\t' ∈ c ∨ '\n' ∈ c) then none
  else some (unlines ((header :: rows).map (join '\t')))

section Table
variable {rows : List (List Text)} {tsv : Text}

/-- A table is written exactly when no cell has a tab or a line feed in it. -/
theorem writeTable_eq_some_iff :
    writeTable rows = some tsv ↔
      (∀ r ∈ rows, ∀ t ∈ r, '\t' ∉ t ∧ '\n' ∉ t) ∧
        unlines ((header :: rows).map (join '\t')) = tsv := by
  have hcells : (rows.any fun r => r.any fun c => decide ('\t' ∈ c ∨ '\n' ∈ c)) = false ↔
      ∀ r ∈ rows, ∀ t ∈ r, '\t' ∉ t ∧ '\n' ∉ t := by
    simp only [List.any_eq_false, decide_eq_true_eq, not_or, Bool.not_eq_true]
  rw [← hcells, writeTable]
  cases rows.any fun r => r.any fun c => decide ('\t' ∈ c ∨ '\n' ∈ c) with
  | true => simp
  | false => simp

theorem table_cells {p : Char → Prop} (hcut : ∀ c, isCut c = false → p c)
    (h : ∀ r ∈ rows, ∀ t ∈ r, ∀ c ∈ t, p c) : ∀ r ∈ header :: rows, ∀ t ∈ r, ∀ c ∈ t, p c := by
  intro r hr t ht c hc
  rcases List.mem_cons.mp hr with rfl | hr
  · exact hcut c (header_notCut t ht c hc)
  · exact h r hr t ht c hc

/-- The C++ runner reads every table back. -/
theorem readTsvRows_writeTable (h : writeTable rows = some tsv)
    (hlength : ∀ r ∈ rows, r.length = header.length) : readTsvRows tsv = header :: rows := by
  obtain ⟨hfields, rfl⟩ := writeTable_eq_some_iff.mp h
  have hcells : ∀ r ∈ header :: rows, ∀ t ∈ r, ∀ c ∈ t, c ≠ '\t' ∧ c ≠ '\n' := by
    apply table_cells
    · exact fun c hc => ⟨(isCut_eq_false.mp hc).1, (isCut_eq_false.mp hc).2.1⟩
    · exact fun r hr t ht c hc => ⟨fun he => (hfields r hr t ht).1 (he ▸ hc),
        fun he => (hfields r hr t ht).2 (he ▸ hc)⟩
  have hne : ∀ r ∈ header :: rows, join '\t' r ≠ [] := by
    intro r hr
    apply join_ne_nil
    rcases List.mem_cons.mp hr with rfl | hr
    · decide
    · rw [hlength r hr]
      decide
  exact split_lines_unlines hne fun r hr t ht =>
    ⟨fun hmem => (hcells r hr t ht _ hmem).1 rfl, fun hmem => (hcells r hr t ht _ hmem).2 rfl⟩

/-- The Java runner reads a table back that has no carriage returns in it. -/
theorem readTsv_writeTable (h : writeTable rows = some tsv)
    (hlength : ∀ r ∈ rows, r.length = header.length) (hcr : ∀ r ∈ rows, ∀ t ∈ r, '\r' ∉ t) :
    readTsv tsv = header :: rows := by
  have hrows := readTsvRows_writeTable h hlength
  obtain ⟨-, rfl⟩ := writeTable_eq_some_iff.mp h
  have hcells : ∀ r ∈ header :: rows, ∀ t ∈ r, ∀ c ∈ t, c ≠ '\r' := by
    apply table_cells
    · exact fun c hc => (isCut_eq_false.mp hc).2.2
    · exact fun r hr t ht c hc he => hcr r hr t ht (he ▸ hc)
  have hnone : '\r' ∉ unlines ((header :: rows).map (join '\t')) := by
    intro hmem
    obtain ⟨l, hl, hmem⟩ := List.mem_flatMap.mp hmem
    obtain ⟨r, hr, rfl⟩ := List.mem_map.mp hl
    rcases List.mem_append.mp hmem with hmem | hmem
    · rcases mem_join hmem with hc | ⟨t, ht, hmem⟩
      · exact absurd hc (by decide)
      · exact hcells r hr t ht _ hmem rfl
    · simp at hmem
  rw [readTsv, Xml.normalizeLineEnds_eq_self hnone]
  exact hrows

/-- No cell that the Java runner reads has a carriage return in it. -/
theorem cr_notMem_readTsv {r : List Text} (hr : r ∈ readTsv tsv) {t : Text} (ht : t ∈ r) :
    '\r' ∉ t := by
  intro hmem
  obtain ⟨l, hl, rfl⟩ := List.mem_map.mp hr
  have hline := (List.mem_filter.mp hl).1
  exact Xml.cr_not_mem_normalizeLineEnds tsv (mem_of_mem_split hline (mem_of_mem_split ht hmem))

end Table

theorem isScenarioId_chars {s : Text} (h : isScenarioId s = true) :
    ∀ c ∈ s, c.isLower = true ∨ c.isDigit = true ∨ c = '-' := by
  cases s with
  | nil => cases h
  | cons c cs =>
    rw [isScenarioId, Bool.and_eq_true, List.all_eq_true] at h
    intro d hd
    rcases List.mem_cons.mp hd with rfl | hd
    · have hc := h.1
      rw [Bool.or_eq_true] at hc
      exact hc.imp_right .inl
    · have hc := h.2 d hd
      simpa only [Bool.or_eq_true, decide_eq_true_eq, or_assoc] using hc

theorem isScenarioId_notCut {s : Text} (h : isScenarioId s = true) : ∀ c ∈ s, isCut c = false := by
  intro c hc
  have hchar := isScenarioId_chars h c hc
  rw [Bool.eq_false_iff]
  intro hcut
  simp only [isCut, Bool.or_eq_true, decide_eq_true_eq] at hcut
  rcases hcut with (rfl | rfl) | rfl <;> revert hchar <;> decide

theorem expected_notCut (e : Expected) : ∀ c ∈ e.str.toList, isCut c = false := by
  cases e <;> exact forall_toList (by decide)

/-- The cells of a row are the fields of the scenario, its identifier and what is expected. -/
theorem mem_row {s : Scenario} {c : Text} (h : c ∈ s.row) :
    (∃ a, c = field (s.get a)) ∨ ∀ d ∈ c, isCut d = false := by
  simp only [Scenario.row, List.mem_cons, List.not_mem_nil, or_false] at h
  rcases h with rfl | h | h | h | h | h | h | h | h | h | h | h | rfl
  · exact .inr (isScenarioId_notCut s.idPattern)
  all_goals first
    | exact .inl ⟨_, h⟩
    | exact .inr (expected_notCut s.expected)

theorem field_mem_row (s : Scenario) (a : Attribute) : field (s.get a) ∈ s.row := by
  cases a <;> simp [Scenario.row]

/-- The rows of the table, the header first. -/
def table (scenarios : List Scenario) : List (List Text) := header :: scenarios.map Scenario.row

theorem writeScenariosTsv_eq (ss : List Scenario) :
    writeScenariosTsv ss = writeTable (ss.map Scenario.row) := by
  simp only [writeScenariosTsv, writeTable, List.any_map, List.map_cons, List.map_map,
    Function.comp_def]

theorem length_row {ss : List Scenario} : ∀ r ∈ ss.map Scenario.row, r.length = header.length := by
  intro r hr
  obtain ⟨s, -, rfl⟩ := List.mem_map.mp hr
  rfl

/-- The table is written exactly when no field has a tab or a line feed in it. -/
theorem writeScenariosTsv_eq_some_iff {ss : List Scenario} {tsv : Text} :
    writeScenariosTsv ss = some tsv ↔
      (∀ s ∈ ss, ∀ a, '\t' ∉ field (s.get a) ∧ '\n' ∉ field (s.get a)) ∧
        unlines ((table ss).map (join '\t')) = tsv := by
  rw [writeScenariosTsv_eq, writeTable_eq_some_iff, List.forall_mem_map]
  apply and_congr_left
  intro
  apply forall₂_congr
  intro s _
  constructor
  · exact fun h a => h _ (field_mem_row s a)
  · intro h t ht
    rcases mem_row ht with ⟨a, rfl⟩ | hcut
    · exact h a
    · exact ⟨fun hmem => (isCut_eq_false.mp (hcut _ hmem)).1 rfl,
        fun hmem => (isCut_eq_false.mp (hcut _ hmem)).2.1 rfl⟩

theorem readTsvRows_write {ss : List Scenario} {tsv : Text} (h : writeScenariosTsv ss = some tsv) :
    readTsvRows tsv = table ss :=
  readTsvRows_writeTable (writeScenariosTsv_eq ss ▸ h) length_row

theorem readTsv_write {ss : List Scenario} {tsv : Text} (h : writeScenariosTsv ss = some tsv)
    (hcr : ∀ s ∈ ss, ∀ a, '\r' ∉ field (s.get a)) : readTsv tsv = table ss := by
  apply readTsv_writeTable (writeScenariosTsv_eq ss ▸ h) length_row
  rw [List.forall_mem_map]
  intro s hs t ht
  rcases mem_row ht with ⟨a, rfl⟩ | hcut
  · exact hcr s hs a
  · exact fun hmem => (isCut_eq_false.mp (hcut _ hmem)).2.2 rfl

theorem hourRange_none (n : ℤ) (h : (none : Option Number) = some (.int n)) : 0 ≤ n ∧ n ≤ 23 :=
  nomatch h

theorem isScenarioId_singleton : isScenarioId ['a'] = true := rfl

/-- A scenario without optional attributes. -/
def minimalScenario : Scenario where
  id := ['a']
  subjectId := ['u']
  subjectRole := none
  subjectDepartment := none
  subjectClearance := none
  resourceId := ['r']
  resourceOwner := none
  resourceDepartment := none
  resourceClassification := none
  action := ['S']
  envNetwork := none
  envHour := none
  expected := .deny
  idPattern := isScenarioId_singleton
  actionLength := List.cons_ne_nil _ _
  hourRange := hourRange_none

end AbacMiddleLayer.Corpus
