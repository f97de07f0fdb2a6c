import AbacMiddleLayer.Corpus.Adapters
import AbacMiddleLayer.Corpus.CanonicalScenarios
import AbacMiddleLayer.Corpus.ScenarioTable
import AbacMiddleLayer.Harness.AuthzForceRecords
import AbacMiddleLayer.MiddleLayer.CanonicalDecision

/-! # The trials of a corpus

`generate-corpus.py` writes the scenarios for each engine in the engine's own format, and the runners
read them and ask their engines. Scenarios that every format can express reach each engine as they
are. The policies are given as they were loaded, and so is Casbin's enforcer, whose code is not part
of the repository.
-/
namespace AbacMiddleLayer.Harness
open Context Corpus MiddleLayer Xacml Xml Json Tsv

section Runners
-- an exception of a scenario says what `error` has for its id
variable (m : OnError) (P : Policy (Target Attribute) Attribute)
  (Q : Policy (Target2 Attribute) Attribute) (enforcer : Request Attribute → Option Bool)
  (error : Text → String)

/-- The decision of an engine with a policy of version 3.0, under permit-overrides. -/
def decision3 (r : Request Attribute) : String :=
  decisionToString (P.eval3 permitOverrides3 m r).report

def decision2 (r : Request Attribute) : String :=
  decisionToString (Q.eval2 permitOverrides m r)

/-- A turn of the loop of `runCorrectness`. The Middle Layer answers Indeterminate to a request that
it cannot read; an exception comes from a cell that is no number. -/
def MiddleLayerCorpusRunner.trial (col : List (Text × ℕ)) (row : List Text) : Trial String where
  id := String.ofList (get row col "id")
  expected := String.ofList (get row col "expected")
  outcome := match evaluateRow row col with
    | none => .caught (error (get row col "id"))
    | some x => .returned (match deliver xacml3 (createCanonicalXACMLRequest x) with
      | none => "Indeterminate"
      | some ts => decision3 m P (requestOf ts))

/-- The trials of a table; a header and a first scenario without exception are needed. -/
def MiddleLayerCorpusRunner.trials (scenariosTsv : Text) : Option (List (Trial String)) :=
  match readTsv scenariosTsv with
  | first :: row :: rows =>
    (evaluateRow row (indexHeader first)).map fun _ =>
      (row :: rows).map (trial m P error (indexHeader first))
  | _ => none

/-- The request files by the ids of their scenarios; of two with one id the last one stays. -/
def requestFiles (build : Arguments Number → Text) (scenarios : List Scenario) (id : Text) :
    Option Text :=
  (scenarios.map fun s => (s.id, build s.arguments)).reverse.lookup id

/-- What the decision point makes of a request file; it fails on one that it cannot read. -/
def evaluateFile (F : Format) (decision : Request Attribute → String)
    (files : Text → Option Text) (id : Text) : Outcome String :=
  match (files id).bind (deliver F) with
  | none => .caught (error id)
  | some ts => .returned (decision (requestOf ts))

/-- The loop of `main` in `run-authzforce-correctness.py`. -/
def RunAuthzforceCorrectness.trials (scenarios : List Scenario) : List (Trial String) :=
  scenarios.map fun s =>
    { id := String.ofList s.id
      expected := s.expected.str
      outcome := evaluateFile error xacml3 (decision3 m P)
        (requestFiles buildXacml3Request scenarios) s.id }

/-- The loop of `runCorrectness`; a row without a second cell ends it with an exception. -/
def SunXacmlCorpusRunner.trials (files : Text → Option Text) (manifest : Text) :
    Option (List (Trial String)) :=
  ((readTsv manifest).drop 1).mapM fun row => do
    let id ← row[0]?
    let expected ← row[1]?
    pure
      { id := String.ofList id
        expected := String.ofList expected
        outcome := evaluateFile error xacml2 (decision2 m Q) files id }

/-- A turn of the loop of `runCorrectness`, with `Enforce` of an enforcer that is given; `none` is an
exception. `f["id"]` and `f["expected"]` are empty without the columns. -/
def CasbinCorpusRunner.trial (first row : List Text) : Trial Bool :=
  let f := (first.zip row).reverse
  let id := (f.lookup "id".toList).getD []
  { id := String.ofList id
    expected := String.ofList ((f.lookup "expected".toList).getD [])
    outcome := match (buildDataMap f).bind fun d => enforcer (requestOf d.triples) with
      | none => .caught (error id)
      | some result => .returned result }

def CasbinCorpusRunner.trials (scenariosTsv : Text) : Option (List (Trial Bool)) :=
  match readTsvRows scenariosTsv with
  | [] => none
  | first :: rows => some (rows.map (trial enforcer error first))

end Runners

/-- The attributes as the scenario has them. -/
def scenarioRequest (s : Scenario) : Request Attribute := fun d a => (s.value a).bind (carrier? d)

/-- A complete scenario is the request that it was made of. -/
theorem scenarioRequest_toScenario (c : CompleteScenario) :
    scenarioRequest c.toScenario = c.request.toRequest := by
  have htext (s : String) : some (String.ofList s.toList) = some s :=
    congrArg some String.ofList_toList
  funext d a
  cases d <;> cases a <;> first | rfl | exact htext _

theorem requestOf_fileOrder (s : Scenario) :
    requestOf (present fileOrder s.value) = scenarioRequest s :=
  requestOf_order (by decide) fileOrder_complete s.value

/-- Scenarios that every format can express, under ids of their own. -/
structure Publishable (ss : List Scenario) : Prop where
  ne_nil : ss ≠ []
  portable : ∀ s ∈ ss, s.Portable
  ids : (ss.map Scenario.id).Nodup

/-- The trial of a scenario with what the engine returns for it. -/
def trialOf {α : Type} (s : Scenario) (outcome : Outcome α) : Trial α where
  id := String.ofList s.id
  expected := s.expected.str
  outcome := outcome

theorem lookup_id : (indexHeader header).lookup "id".toList = some 0 :=
  lookup_header (i := 0) (by decide)

theorem lookup_expected : (indexHeader header).lookup "expected".toList = some 12 :=
  lookup_header (i := 12) (by decide)

/-- What Casbin answers, or its exception. -/
def casbinOutcome (enforcer : Request Attribute → Option Bool) (error : Text → String)
    (s : Scenario) : Outcome Bool :=
  match enforcer (scenarioRequest s) with
  | none => .caught (error s.id)
  | some result => .returned result

section Publishable
variable {ss : List Scenario} (h : Publishable ss) (m : OnError)
  (P : Policy (Target Attribute) Attribute) (Q : Policy (Target2 Attribute) Attribute)
  (enforcer : Request Attribute → Option Bool) (error : Text → String)
include h

theorem Publishable.noCr : ∀ s ∈ ss, ∀ a, '\r' ∉ field (s.get a) := fun s hs a hc =>
  (isCut_eq_false.mp (field_of_portable (h.portable s hs) a _ hc)).2.2 rfl

theorem casbin_trials {tsv : Text} (hw : writeScenariosTsv ss = some tsv) :
    CasbinCorpusRunner.trials enforcer error tsv =
      some (ss.map fun s => trialOf s (casbinOutcome enforcer error s)) := by
  rw [CasbinCorpusRunner.trials, readTsvRows_write hw, table]
  simp only [List.map_map, Option.some.injEq]
  apply List.map_congr_left
  intro s hs
  have hid : (header.zip s.row).reverse.lookup "id".toList = some s.id := by
    rw [lookup_zip header s.row rfl, lookup_id]
    rfl
  have hexpected : (header.zip s.row).reverse.lookup "expected".toList =
      some s.expected.str.toList := by
    rw [lookup_zip header s.row rfl, lookup_expected]
    rfl
  have hstoi (n : ℤ) (hn : Decimal.Int32 n) : Decimal.stoi (Decimal.decimal n) = some n := by
    rw [Decimal.stoi_decimal, if_pos hn]
  have hsp := h.portable s hs
  have hmap : (buildDataMap (header.zip s.row).reverse).map DataMap.triples =
      some (present fileOrder s.value) :=
    (buildDataMap_eq_some_iff (lookup_row s)).mpr ⟨fun a ha => number_of_portable hsp hstoi ha,
      congrArg (present fileOrder) (funext (cell_of_portable hsp hstoi))⟩
  obtain ⟨d, hd, htriples⟩ := Option.map_eq_some_iff.mp hmap
  rw [Function.comp_apply, CasbinCorpusRunner.trial, hid, hexpected, hd]
  simp only [Option.getD_some, Option.bind_some, htriples, requestOf_fileOrder, String.ofList_toList]
  rfl

end Publishable

end AbacMiddleLayer.Harness
