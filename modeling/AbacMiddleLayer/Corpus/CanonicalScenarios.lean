import AbacMiddleLayer.Corpus.Adapters
import AbacMiddleLayer.Corpus.Agreement

/-! # Scenarios with all attributes

A complete request with an identifier and an expected decision is a scenario that every format can
express, as long as its strings are not empty and have no tabs, line ends or control characters in
them. The ten scenarios of `corpus/canonical/scenarios.json` are of this kind.
-/
namespace AbacMiddleLayer.Corpus
open Xacml Xml Decimal

structure CompleteScenario where
  id : String
  request : CompleteRequest
  expected : Expected
  idPattern : isScenarioId id.toList = true
  actionLength : request.action.toList ≠ []
  hourRange : 0 ≤ request.envHour ∧ request.envHour ≤ 23

def CompleteScenario.toScenario (c : CompleteScenario) : Scenario where
  id := c.id.toList
  subjectId := c.request.subjectId.toList
  subjectRole := some c.request.subjectRole.toList
  subjectDepartment := some c.request.subjectDepartment.toList
  subjectClearance := some (.int c.request.subjectClearance)
  resourceId := c.request.resourceId.toList
  resourceOwner := some c.request.resourceOwner.toList
  resourceDepartment := some c.request.resourceDepartment.toList
  resourceClassification := some (.int c.request.resourceClassification)
  action := c.request.action.toList
  envNetwork := some c.request.envNetwork.toList
  envHour := some (.int c.request.envHour)
  expected := c.expected
  idPattern := c.idPattern
  actionLength := c.actionLength
  hourRange := by
    rintro n ⟨⟩
    exact c.hourRange

def CompleteRequest.strings (q : CompleteRequest) : List String :=
  [q.subjectId, q.subjectRole, q.subjectDepartment, q.resourceId, q.resourceOwner,
    q.resourceDepartment, q.action, q.envNetwork]

def CompleteRequest.integers (q : CompleteRequest) : List ℤ :=
  [q.subjectClearance, q.resourceClassification, q.envHour]

/-- A string that every format can express. -/
def PortableString (s : String) : Prop :=
  s.toList ≠ [] ∧ ∀ c ∈ s.toList, isXmlChar c = true ∧ isCut c = false

theorem CompleteScenario.portable {c : CompleteScenario}
    (hstrings : ∀ s ∈ c.request.strings, PortableString s)
    (hintegers : ∀ n ∈ c.request.integers, Int32 n) : c.toScenario.Portable := by
  have htext {a : Attribute} {s : String} (hs : s ∈ c.request.strings) :
      a.Portable (.text s.toList) :=
    ⟨(hstrings s hs).2, fun hnil => absurd hnil (hstrings s hs).1⟩
  have hnumber {a : Attribute} {n : ℤ} (hn : n ∈ c.request.integers) :
      a.Portable (.number (.int n)) := ⟨n, rfl, hintegers n hn⟩
  intro a v hv
  cases a <;> cases hv <;>
    first
    | exact htext (by simp [CompleteRequest.strings])
    | exact hnumber (by simp [CompleteRequest.integers])

/-- A request for the score that all canonical scenarios are about. -/
def scoreRequest (subjectId role department : String) (clearance : ℤ) (action network : String)
    (hour : ℤ) : CompleteRequest where
  subjectId := subjectId
  subjectRole := role
  subjectDepartment := department
  subjectClearance := clearance
  resourceId := "COMPSCI101_SCORE"
  resourceOwner := "alice"
  resourceDepartment := "ComputerScience"
  resourceClassification := 2
  action := action
  envNetwork := network
  envHour := hour

theorem isScenarioId_toList {l : List Char} (h : isScenarioId l = true) :
    isScenarioId (String.ofList l).toList = true := of_toList (P := fun t => isScenarioId t = true) h

theorem toList_ne_nil {c : Char} {cs : List Char} : (String.ofList (c :: cs)).toList ≠ [] :=
  of_toList (P := (· ≠ [])) (List.cons_ne_nil c cs)

/-- The file `corpus/canonical/scenarios.json`. -/
def scenariosJson : List CompleteScenario :=
  [⟨"abac-001", scoreRequest "admin_jones" "admin" "Registry" 5 "SELECT" "campus" 10, .permit,
      isScenarioId_toList rfl, toList_ne_nil, by decide⟩,
    ⟨"abac-002", scoreRequest "alice" "student" "ComputerScience" 1 "SELECT" "campus" 10, .permit,
      isScenarioId_toList rfl, toList_ne_nil, by decide⟩,
    ⟨"abac-003", scoreRequest "prof_smith" "lecturer" "ComputerScience" 3 "UPDATE" "campus" 10,
      .permit, isScenarioId_toList rfl, toList_ne_nil, by decide⟩,
    ⟨"abac-004", scoreRequest "prof_taylor" "lecturer" "Engineering" 3 "SELECT" "campus" 10, .deny,
      isScenarioId_toList rfl, toList_ne_nil, by decide⟩,
    ⟨"abac-005", scoreRequest "prof_lee" "lecturer" "ComputerScience" 1 "SELECT" "campus" 10, .deny,
      isScenarioId_toList rfl, toList_ne_nil, by decide⟩,
    ⟨"abac-006", scoreRequest "bob" "student" "ComputerScience" 1 "SELECT" "campus" 10, .deny,
      isScenarioId_toList rfl, toList_ne_nil, by decide⟩,
    ⟨"abac-007", scoreRequest "alice" "student" "ComputerScience" 1 "SELECT" "external" 10, .deny,
      isScenarioId_toList rfl, toList_ne_nil, by decide⟩,
    ⟨"abac-008", scoreRequest "alice" "student" "ComputerScience" 1 "SELECT" "campus" 22, .deny,
      isScenarioId_toList rfl, toList_ne_nil, by decide⟩,
    ⟨"abac-009", scoreRequest "alice" "student" "ComputerScience" 1 "DELETE" "campus" 10, .deny,
      isScenarioId_toList rfl, toList_ne_nil, by decide⟩,
    ⟨"abac-010", scoreRequest "alice" "student" "ComputerScience" 1 "TRUNCATE" "campus" 10,
      .notApplicable, isScenarioId_toList rfl, toList_ne_nil, by decide⟩]

def canonicalScenarios : List Scenario := scenariosJson.map CompleteScenario.toScenario

/-- The strings in the file. -/
def canonicalStrings : List String :=
  ["admin_jones", "alice", "prof_smith", "prof_taylor", "prof_lee", "bob", "admin", "student",
    "lecturer", "Registry", "ComputerScience", "Engineering", "COMPSCI101_SCORE", "SELECT", "UPDATE",
    "DELETE", "TRUNCATE", "campus", "external"]

theorem portable_canonicalStrings : ∀ s ∈ canonicalStrings, PortableString s := by
  have hportable {c : Char} {cs : List Char}
      (h : (c :: cs).all (fun c => decide (isXmlChar c = true ∧ isCut c = false)) = true) :
      PortableString (String.ofList (c :: cs)) := ⟨toList_ne_nil, forall_toList h⟩
  intro s hs
  simp only [canonicalStrings, List.mem_cons, List.not_mem_nil, or_false] at hs
  repeat' rcases hs with rfl | hs
  all_goals exact hportable (by decide)

theorem canonicalScenarios_portable : ∀ s ∈ canonicalScenarios, s.Portable := by
  have hstrings : ∀ c ∈ scenariosJson, ∀ s ∈ c.request.strings, s ∈ canonicalStrings := by decide +kernel
  have hintegers : ∀ c ∈ scenariosJson, ∀ n ∈ c.request.integers, Int32 n := by decide
  rw [canonicalScenarios, List.forall_mem_map]
  exact fun c hc => c.portable (fun s hs => portable_canonicalStrings s (hstrings c hc s hs))
    (hintegers c hc)

theorem canonicalScenarios_ids : (canonicalScenarios.map Scenario.id).Nodup := by
  have hnodup : (scenariosJson.map CompleteScenario.id).Nodup := by decide +kernel
  have hids : canonicalScenarios.map Scenario.id =
      (scenariosJson.map CompleteScenario.id).map String.toList := by
    rw [canonicalScenarios, List.map_map, List.map_map]
    rfl
  rw [hids]
  exact hnodup.map fun _ _ he => String.toList_inj.mp he

end AbacMiddleLayer.Corpus
