import AbacMiddleLayer.Corpus.RequestFiles
import AbacMiddleLayer.MiddleLayer.CanonicalRequest

/-! # The four adapters

How a scenario reaches each engine. The Middle Layer and Casbin read it back from
`scenarios.tsv`; AuthzForce and SunXACML read the request file written for it. In the
table a missing attribute and an empty one are the same empty cell, in a request file
they differ.
-/
namespace AbacMiddleLayer.Corpus
open Xml Context Decimal Tsv MiddleLayer

/-- The replacements of `escapeXml` and of `_xml_escape`, one after the other, write every
character by itself, and can be undone. -/
theorem escapers_charwise_invertible : Escapes escapeXml ∧ Escapes xmlEscape :=
  ⟨escapes_of_eq escapeXml_eq, escapes_of_eq xmlEscape_eq⟩

example : escapeXml ['a', '&', '<', '\''] = "a&amp;&lt;&apos;".toList := by decide

/-- The cell of a column, empty when there is none. -/
def get (row : List Text) (col : List (Text × ℕ)) (name : String) : Text :=
  match col.lookup name.toList with
  | none => []
  | some idx => row.getD idx []

def emptyToNull (s : Text) : Option Text := if s = [] then none else some s

/-- The outer `none` is the exception of `Integer.valueOf`, the inner one is `null`. -/
def parseIntOrNull (s : Text) : Option (Option ℤ) :=
  if s = [] then some none else (valueOf s).map some

/-- The arguments that `evaluateRow` passes to `Evaluate_ABAC_Decision`. -/
def evaluateRow (row : List Text) (col : List (Text × ℕ)) : Option (Arguments ℤ) := do
  let subjectClearance ← parseIntOrNull (get row col "subject_clearance")
  let resourceClassification ← parseIntOrNull (get row col "resource_classification")
  let envHour ← parseIntOrNull (get row col "env_hour")
  some {
    subjectId := some (get row col "subject_id")
    subjectRole := emptyToNull (get row col "subject_role")
    subjectDepartment := emptyToNull (get row col "subject_department")
    subjectClearance := subjectClearance
    resourceId := some (get row col "resource_id")
    resourceOwner := emptyToNull (get row col "resource_owner")
    resourceDepartment := emptyToNull (get row col "resource_department")
    resourceClassification := resourceClassification
    action := some (get row col "action")
    envNetwork := emptyToNull (get row col "env_network")
    envHour := envHour }

/-- The members of `r.sub`, `r.obj` and `r.env`, and the string `r.act`. -/
structure DataMap where
  sub : List (String × Value)
  obj : List (String × Value)
  act : Text
  env : List (String × Value)

/-- A string member, left out when the cell is empty; `none` is the exception of `f.at`. -/
def stringMember (f : List (Text × Text)) (key column : String) : Option (List (String × Value)) :=
  (f.lookup column.toList).map fun s => if s = [] then [] else [(key, .text s)]

def integerMember (f : List (Text × Text)) (key column : String) : Option (List (String × Value)) :=
  (f.lookup column.toList).bind fun s =>
    if s = [] then some [] else (stoi s).map fun n => [(key, .number n)]

def buildDataMap (f : List (Text × Text)) : Option DataMap := do
  let subjectId ← f.lookup "subject_id".toList
  let role ← stringMember f "role" "subject_role"
  let subjectDepartment ← stringMember f "department" "subject_department"
  let clearance ← integerMember f "clearance" "subject_clearance"
  let resourceId ← f.lookup "resource_id".toList
  let owner ← stringMember f "owner" "resource_owner"
  let resourceDepartment ← stringMember f "department" "resource_department"
  let classification ← integerMember f "classification" "resource_classification"
  let network ← stringMember f "network" "env_network"
  let hour ← integerMember f "hour" "env_hour"
  let action ← f.lookup "action".toList
  some {
    sub := ("id", .text subjectId) :: (role ++ subjectDepartment ++ clearance)
    obj := ("id", .text resourceId) :: (owner ++ resourceDepartment ++ classification)
    act := action
    env := network ++ hour }

/-- The canonical attribute that a member of the request stands for. -/
def Category.member : Category → String → Option Attribute
  | .subject, "id" => some .subjectId
  | .subject, "role" => some .subjectRole
  | .subject, "department" => some .subjectDepartment
  | .subject, "clearance" => some .subjectClearance
  | .resource, "id" => some .resourceId
  | .resource, "owner" => some .resourceOwner
  | .resource, "department" => some .resourceDepartment
  | .resource, "classification" => some .resourceClassification
  | .environment, "network" => some .envNetwork
  | .environment, "hour" => some .envHour
  | _, _ => none

def Category.triples (c : Category) (members : List (String × Value)) : List Triple :=
  members.filterMap fun m => (c.member m.1).map fun a => a.triple m.2

def DataMap.triples (d : DataMap) : List Triple :=
  Category.subject.triples d.sub ++ Category.resource.triples d.obj ++
    [Attribute.action.triple (.text d.act)] ++ Category.environment.triples d.env

/-- What reaches Balana for the scenario with the given index. -/
def middleLayer (scenarios : List Scenario) (i : ℕ) : Option (List Triple) := do
  let tsv ← writeScenariosTsv scenarios
  let header ← (readTsv tsv)[0]?
  let row ← (readTsv tsv)[i + 1]?
  let arguments ← evaluateRow row (indexHeader header)
  deliver xacml3 (createCanonicalXACMLRequest arguments)

/-- What reaches Casbin; of two columns with one name the last stays in the map. -/
def casbin (scenarios : List Scenario) (i : ℕ) : Option (List Triple) := do
  let tsv ← writeScenariosTsv scenarios
  let header ← (readTsvRows tsv)[0]?
  let row ← (readTsvRows tsv)[i + 1]?
  (buildDataMap (header.zip row).reverse).map DataMap.triples

def authzForce (s : Scenario) : Option (List Triple) :=
  deliver xacml3 (buildXacml3Request s.arguments)

def sunXacml (s : Scenario) : Option (List Triple) :=
  deliver xacml2 (buildXacml2Request s.arguments)

/-- All four engines get a request, and its triples are the same. -/
def SameRequest (scenarios : List Scenario) (i : ℕ) (s : Scenario) : Prop :=
  ∃ r : Finset Triple,
    (middleLayer scenarios i).map List.toFinset = some r ∧
    (authzForce s).map List.toFinset = some r ∧
    (sunXacml s).map List.toFinset = some r ∧
    (casbin scenarios i).map List.toFinset = some r

def Attribute.column : Attribute → String
  | subjectId => "subject_id"
  | subjectRole => "subject_role"
  | subjectDepartment => "subject_department"
  | subjectClearance => "subject_clearance"
  | resourceId => "resource_id"
  | resourceOwner => "resource_owner"
  | resourceDepartment => "resource_department"
  | resourceClassification => "resource_classification"
  | action => "action"
  | envNetwork => "env_network"
  | envHour => "env_hour"

/-- The attributes that the schema demands; both runners pass them on when they are empty. -/
def Attribute.required : Attribute → Bool
  | subjectId | resourceId | action => true
  | _ => false

/-- What a runner makes of a cell, with its own way to read numbers. -/
def Attribute.cell (a : Attribute) (num : Text → Option ℤ) (s : Text) : Option Value :=
  if s = [] ∧ a.required = false then none
  else match a.dataType with
    | .string => some (.text s)
    | .integer => (num s).map .number

def Attribute.columnIndex : Attribute → ℕ
  | subjectId => 1
  | subjectRole => 2
  | subjectDepartment => 3
  | subjectClearance => 4
  | resourceId => 5
  | resourceOwner => 6
  | resourceDepartment => 7
  | resourceClassification => 8
  | action => 9
  | envNetwork => 10
  | envHour => 11

theorem lookup_column (a : Attribute) :
    (indexHeader header).lookup a.column.toList = some a.columnIndex := by
  have hi : a.columnIndex < columns.length := by cases a <;> decide
  have hcolumn : columns[a.columnIndex] = a.column := by cases a <;> rfl
  rw [← hcolumn]
  exact lookup_header hi

theorem row_columnIndex (s : Scenario) (a : Attribute) :
    s.row.getD a.columnIndex [] = field (s.get a) := by
  cases a <;> rfl

theorem get_row (s : Scenario) (a : Attribute) :
    get s.row (indexHeader header) a.column = field (s.get a) := by
  rw [get, lookup_column]
  exact row_columnIndex s a

theorem lookup_row (s : Scenario) (a : Attribute) :
    (header.zip s.row).reverse.lookup a.column.toList = some (field (s.get a)) := by
  rw [lookup_zip header s.row rfl, lookup_column, Option.map_some, row_columnIndex]

theorem cell_required {a : Attribute} (hreq : a.required = true) (htype : a.dataType = .string)
    (num : Text → Option ℤ) (s : Text) : a.cell num s = some (.text s) := by
  simp [Attribute.cell, hreq, htype]

theorem cell_string {a : Attribute} (hreq : a.required = false) (htype : a.dataType = .string)
    (num : Text → Option ℤ) (s : Text) : a.cell num s = (emptyToNull s).map .text := by
  simp only [Attribute.cell, hreq, htype, emptyToNull, and_true]
  split_ifs <;> rfl

theorem cell_integer {a : Attribute} (htype : a.dataType = .integer) (num : Text → Option ℤ)
    (s : Text) : a.cell num s = (if s = [] then none else num s).map .number := by
  have hreq : a.required = false := by cases a <;> first | rfl | cases htype
  simp only [Attribute.cell, hreq, htype, and_true]
  split_ifs <;> rfl

theorem parseIntOrNull_eq {s : Text} (h : s ≠ [] → (valueOf s).isSome) :
    parseIntOrNull s = some (if s = [] then none else valueOf s) := by
  rw [parseIntOrNull]
  split_ifs with hs
  · rfl
  · obtain ⟨n, hn⟩ := Option.isSome_iff_exists.mp (h hs)
    rw [hn, Option.map_some]

/-- Each argument of the Middle Layer is what its cell stands for. -/
theorem evaluateRow_eq_some (row : List Text) (col : List (Text × ℕ))
    (h : ∀ a : Attribute, a.dataType = .integer → get row col a.column ≠ [] →
      (valueOf (get row col a.column)).isSome) :
    ∃ x, evaluateRow row col = some x ∧ ∀ a, x.get a = a.cell valueOf (get row col a.column) := by
  have hclearance := parseIntOrNull_eq (h .subjectClearance rfl)
  have hclassification := parseIntOrNull_eq (h .resourceClassification rfl)
  have hhour := parseIntOrNull_eq (h .envHour rfl)
  simp only [Attribute.column] at hclearance hclassification hhour
  rw [evaluateRow, hclearance, hclassification, hhour]
  refine ⟨_, rfl, fun a => ?_⟩
  cases a <;> first
    | exact (cell_required rfl rfl valueOf _).symm
    | exact (cell_string rfl rfl valueOf _).symm
    | exact (cell_integer rfl valueOf _).symm

section Casbin

variable {f : List (Text × Text)} {cells : Attribute → Text}
  (hf : ∀ a : Attribute, f.lookup a.column.toList = some (cells a))

include hf

theorem stringMember_eq {a : Attribute} (hreq : a.required = false) (htype : a.dataType = .string)
    (key : String) : stringMember f key a.column =
      some ((a.cell stoi (cells a)).map fun v => (key, v)).toList := by
  rw [stringMember, hf, cell_string hreq htype, emptyToNull, Option.map_some]
  split_ifs <;> rfl

theorem integerMember_eq {a : Attribute} (htype : a.dataType = .integer)
    (h : cells a ≠ [] → (stoi (cells a)).isSome) (key : String) : integerMember f key a.column =
      some ((a.cell stoi (cells a)).map fun v => (key, v)).toList := by
  rw [integerMember, hf, cell_integer htype, Option.bind_some]
  split_ifs with hs
  · rfl
  · obtain ⟨n, hn⟩ := Option.isSome_iff_exists.mp (h hs)
    rw [hn]
    rfl

theorem stoi_isSome {a : Attribute} {key : String} {members : List (String × Value)}
    (h : integerMember f key a.column = some members) (hne : cells a ≠ []) :
    (stoi (cells a)).isSome := by
  rw [integerMember, hf, Option.bind_some, if_neg hne] at h
  obtain ⟨n, hn, -⟩ := Option.map_eq_some_iff.mp h
  rw [hn]
  rfl

omit hf in
theorem triples_append (c : Category) (l m : List (String × Value)) :
    c.triples (l ++ m) = c.triples l ++ c.triples m :=
  List.filterMap_append

omit hf in
theorem triples_cons (c : Category) (key : String) {a : Attribute} (h : c.member key = some a)
    (v : Value) (l : List (String × Value)) :
    c.triples ((key, v) :: l) = a.triple v :: c.triples l := by
  simp [Category.triples, h]

omit hf in
theorem triples_toList (c : Category) (key : String) {a : Attribute} (h : c.member key = some a)
    (o : Option Value) : c.triples (o.map fun v => (key, v)).toList = (o.map a.triple).toList := by
  cases o <;> simp [Category.triples, h]

omit hf in
theorem present_eq_flatMap (order : List Category) (p : Attribute → Option Value) :
    present order p = order.flatMap fun c => c.attributes.flatMap fun a => ((p a).map a.triple).toList := by
  rw [present, List.filterMap_eq_flatMap_toList, List.flatMap_assoc]

/-- The triples of a request of Casbin are what the cells stand for. -/
theorem buildDataMap_eq_some (h : ∀ a : Attribute, a.dataType = .integer → cells a ≠ [] →
      (stoi (cells a)).isSome) :
    (buildDataMap f).map DataMap.triples =
      some (present fileOrder fun a => a.cell stoi (cells a)) := by
  have hid := hf .subjectId
  have hrole := stringMember_eq hf (a := .subjectRole) rfl rfl "role"
  have hdepartment := stringMember_eq hf (a := .subjectDepartment) rfl rfl "department"
  have hclearance := integerMember_eq hf (a := .subjectClearance) rfl (h _ rfl) "clearance"
  have hresource := hf .resourceId
  have howner := stringMember_eq hf (a := .resourceOwner) rfl rfl "owner"
  have hunit := stringMember_eq hf (a := .resourceDepartment) rfl rfl "department"
  have hclassification :=
    integerMember_eq hf (a := .resourceClassification) rfl (h _ rfl) "classification"
  have hnetwork := stringMember_eq hf (a := .envNetwork) rfl rfl "network"
  have hhour := integerMember_eq hf (a := .envHour) rfl (h _ rfl) "hour"
  have haction := hf .action
  simp only [Attribute.column] at *
  rw [buildDataMap, hid, hrole, hdepartment, hclearance, hresource, howner, hunit, hclassification,
    hnetwork, hhour, haction, present_eq_flatMap]
  simp only [fileOrder, Category.attributes, List.flatMap_cons, List.flatMap_nil,
    cell_required (a := .subjectId) rfl rfl, cell_required (a := .resourceId) rfl rfl,
    cell_required (a := .action) rfl rfl, Option.map_some, Option.bind_eq_bind, Option.bind_some,
    DataMap.triples, triples_append]
  simp only [triples_append, triples_cons .subject "id" rfl, triples_toList .subject "role" rfl,
    triples_toList .subject "department" rfl, triples_toList .subject "clearance" rfl,
    triples_cons .resource "id" rfl, triples_toList .resource "owner" rfl,
    triples_toList .resource "department" rfl, triples_toList .resource "classification" rfl,
    triples_toList .environment "network" rfl, triples_toList .environment "hour" rfl,
    Option.toList_some, List.append_assoc,
    List.cons_append, List.nil_append, List.append_nil]

/-- Numbers are all that can go wrong. -/
theorem stoi_isSome_of_buildDataMap {d : DataMap} (h : buildDataMap f = some d) {a : Attribute}
    (ha : a.dataType = .integer) : cells a ≠ [] → (stoi (cells a)).isSome := by
  obtain ⟨_, -, h⟩ := Option.bind_eq_some_iff.mp h
  obtain ⟨_, -, h⟩ := Option.bind_eq_some_iff.mp h
  obtain ⟨_, -, h⟩ := Option.bind_eq_some_iff.mp h
  obtain ⟨_, hclearance, h⟩ := Option.bind_eq_some_iff.mp h
  obtain ⟨_, -, h⟩ := Option.bind_eq_some_iff.mp h
  obtain ⟨_, -, h⟩ := Option.bind_eq_some_iff.mp h
  obtain ⟨_, -, h⟩ := Option.bind_eq_some_iff.mp h
  obtain ⟨_, hclassification, h⟩ := Option.bind_eq_some_iff.mp h
  obtain ⟨_, -, h⟩ := Option.bind_eq_some_iff.mp h
  obtain ⟨_, hhour, -⟩ := Option.bind_eq_some_iff.mp h
  cases a with
  | subjectClearance => exact stoi_isSome hf (a := .subjectClearance) hclearance
  | resourceClassification => exact stoi_isSome hf (a := .resourceClassification) hclassification
  | envHour => exact stoi_isSome hf (a := .envHour) hhour
  | _ => cases ha

theorem buildDataMap_eq_some_iff {ts : List Triple} :
    (buildDataMap f).map DataMap.triples = some ts ↔
      (∀ a : Attribute, a.dataType = .integer → cells a ≠ [] → (stoi (cells a)).isSome) ∧
        present fileOrder (fun a => a.cell stoi (cells a)) = ts := by
  constructor
  · intro h
    obtain ⟨d, hd, -⟩ := Option.map_eq_some_iff.mp h
    have hnum (a : Attribute) (ha : a.dataType = .integer) := stoi_isSome_of_buildDataMap hf hd ha
    rw [buildDataMap_eq_some hf hnum, Option.some.injEq] at h
    exact ⟨hnum, h⟩
  · rintro ⟨hnum, rfl⟩
    exact buildDataMap_eq_some hf hnum

end Casbin

theorem fileOrder_complete (c : Category) : c ∈ fileOrder := by cases c <;> decide

theorem authzForce_eq_some_iff {s : Scenario} {ts : List Triple} :
    authzForce s = some ts ↔
      (∀ a t, s.get a = some (.text t) → ∀ c ∈ t, isXmlChar c = true) ∧
      (∀ a n, s.get a = some (.number n) → (integerValue n.str).isSome) ∧
        present fileOrder (delivered Number.str s.arguments) = ts :=
  deliver_eq_some_iff pythonLayout3 grouping3 reads_number fileOrder_complete
    (by decide) (buildXacml3Request_body s.arguments)

theorem sunXacml_eq_some_iff {s : Scenario} {ts : List Triple} :
    sunXacml s = some ts ↔
      (∀ a t, s.get a = some (.text t) → ∀ c ∈ t, isXmlChar c = true) ∧
      (∀ a n, s.get a = some (.number n) → (integerValue n.str).isSome) ∧
        present fileOrder (delivered Number.str s.arguments) = ts :=
  deliver_eq_some_iff pythonLayout2 grouping2 reads_number fileOrder_complete
    (by decide) (buildXacml2Request_body s.arguments)

theorem table_header (ss : List Scenario) : (table ss)[0]? = some header := rfl

theorem table_row {ss : List Scenario} {i : ℕ} {s : Scenario} (hs : ss[i]? = some s) :
    (table ss)[i + 1]? = some s.row := by
  rw [table, List.getElem?_cons_succ, List.getElem?_map, hs, Option.map_some]

/-- Casbin needs a table and numbers that `std::stoi` reads. -/
theorem casbin_eq_some_iff {ss : List Scenario} {i : ℕ} {s : Scenario} (hs : ss[i]? = some s)
    {ts : List Triple} :
    casbin ss i = some ts ↔ (∃ tsv, writeScenariosTsv ss = some tsv) ∧
      (∀ a : Attribute, a.dataType = .integer → field (s.get a) ≠ [] →
        (stoi (field (s.get a))).isSome) ∧
      present fileOrder (fun a => a.cell stoi (field (s.get a))) = ts := by
  cases hw : writeScenariosTsv ss with
  | none => simp [casbin, hw]
  | some tsv =>
    simp only [casbin, hw, Option.bind_eq_bind, Option.bind_some, readTsvRows_write hw, table_header,
      table_row hs]
    rw [buildDataMap_eq_some_iff (lookup_row s)]
    exact (and_iff_right ⟨tsv, rfl⟩).symm

theorem middleLayer_eq {ss : List Scenario} {i : ℕ} {s : Scenario} (hs : ss[i]? = some s) {tsv : Text}
    (hw : writeScenariosTsv ss = some tsv) (hcr : ∀ u ∈ ss, ∀ a, '\r' ∉ field (u.get a)) :
    middleLayer ss i = (evaluateRow s.row (indexHeader header)).bind fun x =>
      deliver xacml3 (createCanonicalXACMLRequest x) := by
  simp only [middleLayer, hw, Option.bind_eq_bind, Option.bind_some, readTsv_write hw hcr,
    table_header, table_row hs]

/-- A value that every format can express: integers of 32 bits, and strings of XML characters
without tabs and line ends, not empty unless the attribute is always passed on. -/
def Attribute.Portable (a : Attribute) : Field Number → Prop
  | .text t => (∀ c ∈ t, isXmlChar c = true ∧ isCut c = false) ∧ (t = [] → a.required = true)
  | .number n => ∃ m, n = .int m ∧ Int32 m

def Scenario.Portable (s : Scenario) : Prop := ∀ a v, s.get a = some v → a.Portable v

def Field.value : Field Number → Option Value
  | .text t => some (.text t)
  | .number (.int n) => some (.number n)
  | .number (.float _) => none

/-- The value of an attribute as the scenario has it. -/
def Scenario.value (s : Scenario) (a : Attribute) : Option Value := (s.get a).bind Field.value

theorem get_required (s : Scenario) {a : Attribute} (h : a.required = true) : s.get a ≠ none := by
  cases a <;> first | exact Option.some_ne_none _ | cases h

theorem cell_of_portable {s : Scenario} (h : s.Portable) {num : Text → Option ℤ}
    (hnum : ∀ n, Int32 n → num (decimal n) = some n) (a : Attribute) :
    a.cell num (field (s.get a)) = s.value a := by
  rw [Scenario.value]
  cases hget : s.get a with
  | none =>
    have hreq : a.required = false := Bool.eq_false_iff.mpr fun hreq => get_required s hreq hget
    rw [Attribute.cell, if_pos ⟨rfl, hreq⟩]
    rfl
  | some v =>
    have hv := h a v hget
    cases v with
    | text t =>
      have hne : ¬(t = [] ∧ a.required = false) := fun he => by simp [hv.2 he.1] at he
      rw [field, Field.str, Attribute.cell, if_neg hne, dataType_of_text hget]
      rfl
    | number n =>
      obtain ⟨m, rfl, hm⟩ := hv
      rw [field, Field.str, Number.str, cell_integer (dataType_of_number hget),
        if_neg (decimal_ne_nil m), hnum m hm]
      rfl

/-- A reader of numbers takes every number of a portable scenario. -/
theorem number_of_portable {s : Scenario} (h : s.Portable) {num : Text → Option ℤ}
    (hnum : ∀ n, Int32 n → num (decimal n) = some n) {a : Attribute} (ha : a.dataType = .integer)
    (hne : field (s.get a) ≠ []) : (num (field (s.get a))).isSome := by
  cases hget : s.get a with
  | none => exact absurd (by rw [hget]; rfl) hne
  | some v =>
    have hv := h a v hget
    cases v with
    | text t => cases ha.symm.trans (dataType_of_text hget)
    | number n =>
      obtain ⟨m, rfl, hm⟩ := hv
      rw [field, Field.str, Number.str, hnum m hm]
      rfl

theorem field_of_portable {s : Scenario} (h : s.Portable) (a : Attribute) :
    ∀ c ∈ field (s.get a), isCut c = false := by
  intro c hc
  cases hget : s.get a with
  | none =>
    rw [hget] at hc
    cases hc
  | some v =>
    have hv := h a v hget
    rw [hget] at hc
    cases v with
    | text t => exact (hv.1 c hc).2
    | number n =>
      obtain ⟨m, rfl, -⟩ := hv
      rw [isCut_eq_false]
      rcases mem_decimal hc with hdigit | rfl
      · refine ⟨?_, ?_, ?_⟩ <;> rintro rfl <;> exact absurd hdigit (by decide)
      · decide

theorem delivered_of_portable {s : Scenario} (h : s.Portable) :
    delivered Number.str s.arguments = s.value := by
  funext a
  rw [Scenario.value]
  cases hget : s.get a with
  | none => rw [delivered, show s.arguments.get a = none from hget]; rfl
  | some v =>
    have hv := h a v hget
    cases v with
    | text t =>
      have hcr : '\r' ∉ t := fun hmem => (isCut_eq_false.mp (hv.1 _ hmem).2).2.2 rfl
      rw [delivered_text Number.str hget, normalizeLineEnds_eq_self hcr]
      rfl
    | number n =>
      obtain ⟨m, rfl, -⟩ := hv
      rw [delivered_number Number.str hget, Number.str, integerValue_decimal]
      rfl

theorem toFinset_present {o o' : List Category} (ho : ∀ c, c ∈ o) (ho' : ∀ c, c ∈ o')
    {p q : Attribute → Option Value} :
    (present o p).toFinset = (present o' q).toFinset ↔ p = q := by
  rw [← present_same_iff ho ho', Finset.ext_iff]
  simp only [List.mem_toFinset]

theorem exists_tsv_of_portable {ss : List Scenario} (h : ∀ s ∈ ss, s.Portable) :
    ∃ tsv, writeScenariosTsv ss = some tsv := by
  refine ⟨_, writeScenariosTsv_eq_some_iff.mpr ⟨fun s hs a => ⟨fun hc => ?_, fun hc => ?_⟩, rfl⟩⟩
  · exact (isCut_eq_false.mp (field_of_portable (h s hs) a _ hc)).1 rfl
  · exact (isCut_eq_false.mp (field_of_portable (h s hs) a _ hc)).2.1 rfl

theorem value_text {s : Scenario} {a : Attribute} {t : Text} (h : s.value a = some (.text t)) :
    s.get a = some (.text t) := by
  obtain ⟨v, hget, hv⟩ := Option.bind_eq_some_iff.mp h
  rw [hget]
  cases v with
  | text u => cases hv; rfl
  | number n => cases n <;> cases hv

/-- The Middle Layer gets a portable scenario as it is. -/
theorem middleLayer_of_portable {ss : List Scenario} (h : ∀ s ∈ ss, s.Portable) {i : ℕ} {s : Scenario}
    (hs : ss[i]? = some s) : middleLayer ss i = some (present canonicalOrder s.value) := by
  have hsp := h s (List.mem_of_getElem? hs)
  obtain ⟨tsv, hw⟩ := exists_tsv_of_portable h
  have hcr (u : Scenario) (hu : u ∈ ss) (a : Attribute) : '\r' ∉ field (u.get a) := fun hc =>
    (isCut_eq_false.mp (field_of_portable (h u hu) a _ hc)).2.2 rfl
  obtain ⟨x, hx, hget⟩ := evaluateRow_eq_some s.row (indexHeader header) fun a ha hne => by
    rw [get_row] at hne ⊢
    exact number_of_portable hsp (fun n hn => valueOf_decimal hn) ha hne
  have hvalue (a : Attribute) : x.get a = s.value a := by
    rw [hget, get_row, cell_of_portable hsp fun n hn => valueOf_decimal hn]
  have htext (a : Attribute) (t : Text) (ht : x.get a = some (.text t)) :
      ∀ c ∈ t, isXmlChar c = true ∧ isCut c = false :=
    (hsp a _ (value_text ((hvalue a).symm.trans ht))).1
  have hdelivered : delivered decimal x = s.value := by
    funext a
    rw [← hvalue]
    cases hxa : x.get a with
    | none => rw [delivered, hxa]; rfl
    | some v =>
      cases v with
      | text t =>
        have hnot : '\r' ∉ t := fun hmem => (isCut_eq_false.mp (htext a t hxa _ hmem).2).2.2 rfl
        rw [delivered_text decimal hxa, normalizeLineEnds_eq_self hnot]
      | number n => rw [delivered_number decimal hxa, integerValue_decimal, Option.map_some]
  rw [middleLayer_eq hs hw hcr, hx, Option.bind_some,
    deliver_createCanonicalXACMLRequest fun a t ht c hc => (htext a t ht c hc).1, hdelivered]

theorem sameRequest_of_portable {ss : List Scenario} (h : ∀ s ∈ ss, s.Portable) {i : ℕ} {s : Scenario}
    (hs : ss[i]? = some s) : SameRequest ss i s := by
  have hsp := h s (List.mem_of_getElem? hs)
  have hchars (a : Attribute) (t : Text) (hget : s.get a = some (.text t)) (c : Char) (hc : c ∈ t) :
      isXmlChar c = true := ((hsp a _ hget).1 c hc).1
  have hints (a : Attribute) (n : Number) (hget : s.get a = some (.number n)) :
      (integerValue n.str).isSome := by
    obtain ⟨m, rfl, -⟩ := hsp a _ hget
    rw [Number.str, integerValue_decimal]
    rfl
  have hdelivered := delivered_of_portable hsp
  have hauthz : authzForce s = some (present fileOrder s.value) :=
    authzForce_eq_some_iff.mpr ⟨hchars, hints, by rw [hdelivered]⟩
  have hsun : sunXacml s = some (present fileOrder s.value) :=
    sunXacml_eq_some_iff.mpr ⟨hchars, hints, by rw [hdelivered]⟩
  have hstoi (n : ℤ) (hn : Int32 n) : stoi (decimal n) = some n := by rw [stoi_decimal, if_pos hn]
  have hcasbin : casbin ss i = some (present fileOrder s.value) :=
    (casbin_eq_some_iff hs).mpr ⟨exists_tsv_of_portable h,
      fun a ha => number_of_portable hsp hstoi ha,
      congrArg (present fileOrder) (funext (cell_of_portable hsp hstoi))⟩
  refine ⟨(present fileOrder s.value).toFinset, ?_, ?_, ?_, ?_⟩
  · rw [middleLayer_of_portable h hs, Option.map_some,
      (toFinset_present canonicalOrder_complete fileOrder_complete).mpr rfl]
  · rw [hauthz, Option.map_some]
  · rw [hsun, Option.map_some]
  · rw [hcasbin, Option.map_some]

/-- AuthzForce and Casbin alone already need a portable scenario to agree. -/
theorem portable_of_sameRequest {ss : List Scenario} {i : ℕ} {s : Scenario} (hs : ss[i]? = some s)
    (h : SameRequest ss i s) : s.Portable := by
  obtain ⟨r, -, hauthz, -, hcasbin⟩ := h
  obtain ⟨ts, hts, rfl⟩ := Option.map_eq_some_iff.mp hauthz
  obtain ⟨us, hus, hsame⟩ := Option.map_eq_some_iff.mp hcasbin
  obtain ⟨hchars, hints, rfl⟩ := authzForce_eq_some_iff.mp hts
  obtain ⟨⟨tsv, hw⟩, hstoi, rfl⟩ := (casbin_eq_some_iff hs).mp hus
  have hfields := (writeScenariosTsv_eq_some_iff.mp hw).1 s (List.mem_of_getElem? hs)
  have hvalue := (toFinset_present fileOrder_complete fileOrder_complete).mp hsame
  intro a v hget
  have hcell : a.cell stoi (field (s.get a)) = delivered Number.str s.arguments a := congrFun hvalue a
  cases v with
  | text t =>
    rw [delivered_text Number.str hget, hget, field, Field.str, Attribute.cell,
      dataType_of_text hget] at hcell
    split_ifs at hcell with hempty
    have heq : t = normalizeLineEnds t := by simpa using hcell
    have hlines := hfields a
    rw [hget] at hlines
    refine ⟨fun c hc => ⟨hchars a t hget c hc, isCut_eq_false.mpr ⟨?_, ?_, ?_⟩⟩, fun he => ?_⟩
    · rintro rfl
      exact hlines.1 hc
    · rintro rfl
      exact hlines.2 hc
    · rintro rfl
      exact cr_not_mem_normalizeLineEnds t (heq ▸ hc)
    · exact Bool.not_eq_false _ ▸ fun hreq => hempty ⟨he, hreq⟩
  | number n =>
    cases n with
    | int m =>
      have hsome := hstoi a (dataType_of_number hget)
      rw [hget, field, Field.str, Number.str, stoi_decimal] at hsome
      refine ⟨m, rfl, ?_⟩
      by_contra hm
      simpa [hm] using hsome (decimal_ne_nil m)
    | float x =>
      obtain ⟨k, hk⟩ := Option.isSome_iff_exists.mp (hints a _ hget)
      obtain ⟨c, hc, hshown⟩ := x.shown
      have hdigit := mem_of_integerValue hk hc
      rcases hshown with rfl | rfl | rfl <;> exact absurd hdigit (by decide)

/-- All four engines get the same request for every scenario of a corpus exactly when every
scenario is portable. -/
theorem adapters_agree_iff (scenarios : List Scenario) :
    (∀ i s, scenarios[i]? = some s → SameRequest scenarios i s) ↔
      ∀ s ∈ scenarios, s.Portable := by
  constructor
  · intro h s hs
    obtain ⟨i, hi⟩ := List.mem_iff_getElem?.mp hs
    exact portable_of_sameRequest hi (h i s hi)
  · intro h i s hs
    exact sameRequest_of_portable h hs

/-- A scenario whose subject has the empty string for a role; most attributes are missing. -/
def emptyRoleScenario : Scenario where
  id := "abac-011".toList
  subjectId := "alice".toList
  subjectRole := some []
  subjectDepartment := none
  subjectClearance := none
  resourceId := "score-1".toList
  resourceOwner := none
  resourceDepartment := none
  resourceClassification := none
  action := "SELECT".toList
  envNetwork := none
  envHour := none
  expected := .deny
  idPattern := by decide +kernel
  actionLength := by decide
  hourRange := nofun

/-- AuthzForce gets the empty role, Casbin gets no role. -/
theorem emptyRoleScenario_differs :
    (∃ ts, authzForce emptyRoleScenario = some ts ∧
      Attribute.subjectRole.triple (.text []) ∈ ts) ∧
    (∃ ts, casbin [emptyRoleScenario] 0 = some ts ∧
      ∀ v, Attribute.subjectRole.triple v ∉ ts) ∧
    ¬SameRequest [emptyRoleScenario] 0 emptyRoleScenario := by
  refine ⟨⟨_, authzForce_eq_some_iff.mpr ⟨?_, ?_, rfl⟩, ?_⟩,
    ⟨_, (casbin_eq_some_iff rfl).mpr ⟨⟨_, writeScenariosTsv_eq_some_iff.mpr ⟨?_, rfl⟩⟩, ?_, rfl⟩, ?_⟩,
    fun h => ?_⟩
  · intro a t h
    cases a <;> cases h <;> first
      | exact forall_toList (by decide)
      | exact List.forall_mem_nil _
  · intro a n h
    cases a <;> cases h
  · have hrole : emptyRoleScenario.arguments.get .subjectRole = some (.text []) := rfl
    rw [triple_mem_present fileOrder_complete, delivered_text Number.str hrole, normalizeLineEnds]
  · intro s hs a
    obtain rfl := List.mem_singleton.mp hs
    cases a <;> decide +kernel
  · intro a ha hne
    cases a <;> first | exact absurd rfl hne | cases ha
  · intro v hv
    cases (triple_mem_present fileOrder_complete).mp hv
  · have hrole := portable_of_sameRequest rfl h .subjectRole (.text []) rfl
    cases hrole.2 rfl

end AbacMiddleLayer.Corpus
