import AbacMiddleLayer.Harness.ResultLines
import AbacMiddleLayer.Json.Dumps

/-! # The records of the AuthzForce runner

`run-authzforce-correctness.py` writes the records of the other runners, with every string through
`json.dumps`. Error texts hold what the decision point printed, so that they have line ends and
characters of all kinds.
-/
namespace AbacMiddleLayer.Harness
open Json Decimal Tsv

namespace RunAuthzforceCorrectness

def jsonStr : Option String → Text
  | none => null
  | some s => dumps s.toList

def notes : String :=
  "total_ns is whole-process wall time (JVM startup + policy load + eval); " ++
    "this CLI has no batch mode so they cannot be separated, see semantic-mapping.md"

def toJsonLine (runId hostname corpusCommit adapterCommit scenarioId expected : String)
    (actual : Option String) (correct : Bool) (error : Option String) (totalNs : ℤ) : Text :=
  recordLine [jsonStr runId, quoted "authzforce".toList, quoted "21.2.1-SNAPSHOT".toList,
    jsonStr hostname, jsonStr corpusCommit, jsonStr adapterCommit, jsonStr scenarioId,
    jsonStr expected, jsonStr actual, "true".toList, boolText correct, null, null, null,
    decimal totalNs, jsonStr error, quoted notes.toList]

/-- The lines that the loop of `main` writes. -/
def file (run : Run String) : Text :=
  unlines (run.trials.map fun t =>
    toJsonLine run.runId run.hostname run.corpusCommit run.adapterCommit t.1.id t.1.expected
      t.1.outcome.actual (decide (t.1.outcome.actual = some t.1.expected)) t.1.outcome.error t.2)

def Survives (U : Unicode) (run : Run String) : Prop :=
  Harness.Survives U (file run)
    (run.scenarios.map fun t =>
      originals "authzforce" "21.2.1-SNAPSHOT" run t t.outcome.actual (some notes))
    (countTrials countEvery {} run.scenarios)

section Fields
variable (engine engineVersion note : String)

def fields (run : Run String) (t : Trial String × ℤ) : List Field :=
  [optionField run.runId, .raw engine.toList, .raw engineVersion.toList,
    optionField run.hostname, optionField run.corpusCommit, optionField run.adapterCommit,
    optionField t.1.id, optionField t.1.expected, optionField t.1.outcome.actual,
    .word (.ofBool true), .word (.ofBool (decide (t.1.outcome.actual = some t.1.expected))),
    .word .null, .word .null, .word .null, .word (.integer t.2), optionField t.1.outcome.error,
    .raw note.toList]

variable {engine engineVersion note} {run : Run String} (hengine : Plain engine.toList)
  (hversion : Plain engineVersion.toList) (hnote : Plain note.toList)

include hnote in
theorem wellFormed_fields (t : Trial String × ℤ) :
    WellFormed (record (fields engine engineVersion note run t)) := by
  apply wellFormed_record rfl
  intro f hf
  cases hf
  exact hnote

include hengine hversion hnote in
theorem rawPlain_fields (t : Trial String × ℤ) :
    RawPlain (record (fields engine engineVersion note run t)) := by
  intro k s hs
  have hmem := List.mem_map_of_mem (f := Prod.snd) hs
  rw [map_snd_record rfl] at hmem
  simp only [fields, List.mem_cons, List.not_mem_nil, or_false, optionField_ne_raw, false_or,
    reduceCtorEq, Field.raw.injEq] at hmem
  rcases hmem with rfl | rfl | rfl
  · exact hengine
  · exact hversion
  · exact hnote

include hnote in
theorem carries_fields (t : Trial String × ℤ) :
    Carries (meant (record (fields engine engineVersion note run t)))
      (originals engine engineVersion run t.1 t.1.outcome.actual (some note)) := by
  have hfs : WellFormed (record (fields engine engineVersion note run t)) :=
    wellFormed_fields hnote t
  have hoption {i : ℕ} {k : String} {o : Option String} (hk : recordKeys[i]? = some k)
      (hf : (fields engine engineVersion note run t)[i]? = some (optionField o)) :
      (meant (record (fields engine engineVersion note run t))).field k.toList =
        some (.scalar (optionScalar o)) := by
    rw [field_record hfs hk hf, scalar_optionField]
  simp only [Carries, originals, List.forall_mem_cons]
  refine ⟨hoption (i := 0) rfl rfl, field_record hfs (i := 1) rfl rfl,
    field_record hfs (i := 2) rfl rfl, hoption (i := 3) rfl rfl, hoption (i := 4) rfl rfl,
    hoption (i := 5) rfl rfl, hoption (i := 6) rfl rfl, hoption (i := 7) rfl rfl,
    hoption (i := 8) rfl rfl, hoption (i := 15) rfl rfl, field_record hfs (i := 16) rfl rfl,
    List.forall_mem_nil _⟩

include hnote in
theorem table_fields :
    regenerateCorrectnessTable
        (run.trials.map fun t => meant (record (fields engine engineVersion note run t))) =
      (countTrials countEvery {} run.scenarios).map Tally.counts := by
  have hcorrect : ∀ t ∈ run.trials,
      ((meant (record (fields engine engineVersion note run t))).field "correct".toList).map isTrue =
        some (decide (t.1.outcome.actual = some t.1.expected)) := by
    intro t _
    rw [field_record (wellFormed_fields hnote t) (i := 10) rfl rfl]
    rfl
  have hsupported : ∀ t ∈ run.trials,
      ((meant (record (fields engine engineVersion note run t))).field "supported".toList).map
        truthy = some true := by
    intro t _
    rw [field_record (wellFormed_fields hnote t) (i := 9) rfl rfl]
    rfl
  rw [regenerateCorrectnessTable_meant hcorrect hsupported, run.countTrials_eq_some, Option.map_some,
    Tally.counts, countEvery_total, countEvery_supportedCount, countEvery_correct, Run.scenarios,
    List.countP_map, List.length_map, List.countP_true]
  rfl

end Fields

theorem jsonStr_eq (o : Option String) : jsonStr o = (optionField o).dumped := by
  cases o <;> rfl

theorem file_eq (run : Run String) :
    file run =
      unlines ((run.trials.map fun t =>
        record (fields "authzforce" "21.2.1-SNAPSHOT" notes run t)).map fun fs =>
          object (dumpedTexts fs)) := by
  rw [file, List.map_map]
  refine congrArg unlines (List.map_congr_left fun t _ => ?_)
  have htexts (fs : List Field) : dumpedTexts (record fs) =
      (recordKeys.map String.toList).zip (fs.map Field.dumped) := by
    rw [dumpedTexts, record, List.zip_map_right]
    rfl
  simp only [Function.comp_apply, htexts, toJsonLine, recordLine, jsonStr_eq]
  rfl

theorem plain_append {s t : String} (hs : Plain s.toList) (ht : Plain t.toList) :
    Plain (s ++ t).toList := by
  rw [String.toList_append]
  intro c hc
  rcases List.mem_append.mp hc with hc | hc
  · exact hs c hc
  · exact ht c hc

theorem plain_notes : Plain notes.toList := by
  unfold notes
  exact plain_append (forall_toList (by decide)) (forall_toList (by decide))

theorem loadJsonl_file (U : Unicode) (run : Run String) :
    loadJsonl U (file run) = some (run.trials.map fun t =>
      meant (record (fields "authzforce" "21.2.1-SNAPSHOT" notes run t))) := by
  have hengine : Plain "authzforce".toList := forall_toList (by decide)
  have hversion : Plain "21.2.1-SNAPSHOT".toList := forall_toList (by decide)
  obtain ⟨hleft, hright⟩ := pythonSpace_brace U
  rw [loadJsonl, file_eq, loadLines_dumped hleft hright, List.map_map]
  · rfl
  · exact List.forall_mem_map.mpr fun t _ => wellFormed_fields plain_notes t
  · exact List.forall_mem_map.mpr fun t _ => rawPlain_fields hengine hversion plain_notes t

/-- Every run survives: whatever is in the strings, the file is loaded with a record a scenario, and
the table has the counts that the runner printed. -/
theorem every_run_survives (U : Unicode) (run : Run String) : Survives U run := by
  refine ⟨_, loadJsonl_file U run, ?_, table_fields plain_notes⟩
  rw [Run.scenarios, List.map_map, List.forall₂_map_left_iff, List.forall₂_map_right_iff,
    List.forall₂_same]
  exact fun t _ => carries_fields plain_notes t

end RunAuthzforceCorrectness
end AbacMiddleLayer.Harness
