import AbacMiddleLayer.Harness.Correctness
import AbacMiddleLayer.Harness.Manifest
import AbacMiddleLayer.Json.Lines
import AbacMiddleLayer.Xml.Escaping

/-! # The result lines of the correctness runners

The Java and C++ runners write an object a scenario by concatenation; `load_jsonl` of
`regenerate-tables.py` reads the file and `regenerate_correctness_table` counts. The Java
runners escape every string, with a replacement of the two characters that would end it
only; the C++ runner writes the commits, the scenario id and the expected value as they are.
-/
namespace AbacMiddleLayer.Harness
open Decimal Json Tsv

/-- What a correctness run reads and measures. A run that an exception ends prints no counts. -/
structure Run (α : Type) where
  hostname : String
  corpusCommit : String
  adapterCommit : String
  runIdMs : ℤ
  policyLoadNs : ℤ
  trials : List (Trial α × ℤ)
  finished : ∀ t ∈ trials, t.1.outcome ≠ .uncaught

/-- A run of MiddleLayerCorpusRunner. Before it opens the file it evaluates the first scenario once,
outside of any handler; there is one, and that evaluation returns. -/
structure MiddleLayerRun extends Run String where
  warmUp : Outcome String
  warm : ∃ decision, warmUp = .returned decision
  nonempty : trials ≠ []

def Run.runId {α : Type} (run : Run α) : String := String.ofList ("run-".toList ++ decimal run.runIdMs)

/-- The keys of a record, which the three runners write in the same order. -/
def recordKeys : List String :=
  ["run_id", "engine", "engine_version", "hostname", "corpus_commit", "adapter_commit",
    "scenario_id", "expected", "actual", "supported", "correct", "policy_load_ns",
    "translation_ns", "evaluation_ns", "total_ns", "error", "notes"]

def recordLine (values : List Text) : Text := object ((recordKeys.map String.toList).zip values)

def null : Text := "null".toList

def boolText (b : Bool) : Text := if b then "true".toList else "false".toList

/-- `none` is Java's `null`. -/
def jsonString : Option String → Text
  | none => null
  | some s => quoted (Xml.replace '"' "\\\"".toList (Xml.replace '\\' "\\\\".toList s.toList))

/-- `toJsonLine` with the engine and its version. -/
def jsonLine (engine engineVersion runId hostname corpusCommit adapterCommit scenarioId
    expected : String) (actual : Option String) (correct : Bool) (error : Option String)
    (policyLoadNs evalNs : ℤ) : Text :=
  recordLine [jsonString runId, quoted engine.toList, quoted engineVersion.toList,
    jsonString hostname, jsonString corpusCommit, jsonString adapterCommit,
    jsonString scenarioId, jsonString expected, jsonString actual, "true".toList,
    boolText correct, decimal policyLoadNs, null, decimal evalNs, decimal evalNs,
    jsonString error, null]

def MiddleLayerCorpusRunner.toJsonLine := jsonLine "middle-layer" "balana-1.1.12"

def SunXacmlCorpusRunner.toJsonLine := jsonLine "sunxacml" "2.0-M1"

/-- The lines that the loop of `runCorrectness` prints with a `toJsonLine`. -/
def javaFile (toJsonLine : String → String → String → String → String → String →
    Option String → Bool → Option String → ℤ → ℤ → Text) (run : Run String) : Text :=
  unlines (run.trials.map fun t =>
    toJsonLine run.runId run.hostname run.corpusCommit run.adapterCommit t.1.id t.1.expected
      t.1.outcome.actual (decide (t.1.outcome.actual = some t.1.expected)) t.1.outcome.error
      run.policyLoadNs t.2)

def jsonEscape (s : Text) : Text :=
  s.flatMap fun c => if c = '"' ∨ c = '\\' then ['\\', c] else [c]

/-- The error text is the empty string without an exception. -/
def casbinError : Outcome Bool → String
  | .caught error => error
  | _ => ""

def nullIfEmpty (s : String) : Text := if s = "" then null else quoted (jsonEscape s.toList)

def unsupportedNote : String :=
  "Casbin has no NotApplicable/Indeterminate concept; Enforce() is strictly boolean"

def CasbinCorpusRunner.recordLine (run : Run Bool) (t : Trial Bool × ℤ) : Text :=
  let supported := casbinSupported t.1
  Harness.recordLine [quoted run.runId.toList, quoted "casbin-cpp".toList,
    quoted "ce8c55ed1".toList, quoted (jsonEscape run.hostname.toList),
    quoted run.corpusCommit.toList, quoted run.adapterCommit.toList, quoted t.1.id.toList,
    quoted t.1.expected.toList, nullIfEmpty (casbinActual t.1.outcome), boolText supported,
    if supported then boolText (casbinCorrect t.1) else null, decimal run.policyLoadNs, null,
    decimal t.2, decimal t.2, nullIfEmpty (casbinError t.1.outcome),
    if supported then null else quoted unsupportedNote.toList]

def casbinFile (run : Run Bool) : Text :=
  unlines (run.trials.map (CasbinCorpusRunner.recordLine run))

def loadJsonl (U : Unicode) : Text → Option (List Value) := loadLines U.pythonSpace

/-- Python's truth value. -/
def truthy : Value → Bool
  | .scalar .null => false
  | .scalar (.bool b) => b
  | .scalar (.number w) =>
    (w.takeWhile fun c => c ≠ 'e' && c ≠ 'E').any fun c => c.isDigit && c ≠ '0' || c.isUpper
  | .scalar (.str s) => !s.isEmpty
  | .array vs => !vs.isEmpty
  | .object ps => !ps.isEmpty

def isTrue : Value → Bool
  | .scalar (.bool b) => b
  | _ => false

def isDictionary : Value → Bool
  | .object _ => true
  | _ => false

structure Counts where
  correct : ℕ
  supported : ℕ
  total : ℕ
deriving DecidableEq, Repr

/-- The counts of `regenerate_correctness_table`; a record that is no dictionary has no `get`. -/
def regenerateCorrectnessTable (rows : List Value) : Option Counts :=
  if rows.all isDictionary then
    some
      { correct := rows.countP fun r => ((r.field "correct".toList).map isTrue).getD false
        supported := rows.countP fun r => ((r.field "supported".toList).map truthy).getD false
        total := rows.length }
  else none

def Tally.counts (tally : Tally) : Counts := ⟨tally.correct, tally.supportedCount, tally.total⟩

def optionScalar : Option String → Scalar
  | none => .null
  | some s => .str (codes s.toList)

/-- The strings of a record as the runner has them. -/
def originals {α : Type} (engine engineVersion : String) (run : Run α) (t : Trial α)
    (actual notes : Option String) : List (String × Option String) :=
  [("run_id", run.runId), ("engine", engine), ("engine_version", engineVersion),
    ("hostname", run.hostname), ("corpus_commit", run.corpusCommit),
    ("adapter_commit", run.adapterCommit), ("scenario_id", t.id), ("expected", t.expected),
    ("actual", actual), ("error", t.outcome.error), ("notes", notes)]

def Carries (r : Value) (strings : List (String × Option String)) : Prop :=
  ∀ f ∈ strings, r.field f.1.toList = some (.scalar (optionScalar f.2))

/-- The file is loaded with one record a scenario, in order, with its strings, and the table
has the counts that the runner printed. -/
def Survives (U : Unicode) (file : Text) (strings : List (List (String × Option String)))
    (printed : Option Tally) : Prop :=
  ∃ rows, loadJsonl U file = some rows ∧ List.Forall₂ Carries rows strings ∧
    regenerateCorrectnessTable rows = printed.map Tally.counts

def Run.scenarios {α : Type} (run : Run α) : List (Trial α) := run.trials.map Prod.fst

def javaOriginals (engine engineVersion : String) (run : Run String) (t : Trial String) :
    List (String × Option String) :=
  originals engine engineVersion run t t.outcome.actual none

def MiddleLayerCorpusRunner.Survives (U : Unicode) (run : MiddleLayerRun) : Prop :=
  Harness.Survives U (javaFile MiddleLayerCorpusRunner.toJsonLine run.toRun)
    (run.scenarios.map (javaOriginals "middle-layer" "balana-1.1.12" run.toRun))
    (countTrials countEvery {} run.scenarios)

def SunXacmlCorpusRunner.Survives (U : Unicode) (run : Run String) : Prop :=
  Harness.Survives U (javaFile SunXacmlCorpusRunner.toJsonLine run)
    (run.scenarios.map (javaOriginals "sunxacml" "2.0-M1" run))
    (countTrials countEvery {} run.scenarios)

def casbinNotes (t : Trial Bool) : Option String :=
  if casbinSupported t then none else some unsupportedNote

def casbinOriginals (run : Run Bool) (t : Trial Bool) : List (String × Option String) :=
  originals "casbin-cpp" "ce8c55ed1" run t (casbinDecision t) (casbinNotes t)

def CasbinCorpusRunner.Survives (U : Unicode) (run : Run Bool) : Prop :=
  Harness.Survives U (casbinFile run) (run.scenarios.map (casbinOriginals run))
    (countTrials countSupported {} run.scenarios)

theorem Run.countTrials_eq_some {α : Type} (run : Run α) (count : Tally → Trial α → Tally) :
    countTrials count {} run.scenarios = some (run.scenarios.foldl count {}) := by
  have huncaught : ¬ (run.scenarios.any fun t => t.outcome.isUncaught) = true := by
    simpa [Run.scenarios] using run.finished
  rw [countTrials_eq, if_neg huncaught]

/-- The fields of a record under their keys. -/
def record (fields : List Field) : List (Text × Field) := (recordKeys.map String.toList).zip fields

theorem recordLine_text (fields : List Field) :
    recordLine (fields.map Field.text) = object (texts (record fields)) := by
  rw [recordLine, List.zip_map_right]
  rfl

theorem nodup_recordKeys : (recordKeys.map String.toList).Nodup :=
  (List.nodup_map_iff fun _ _ => String.toList_injective).mpr (by decide)

theorem isName_of_mem {k : Text} (h : k ∈ recordKeys.map String.toList) : IsName k := by
  have hkeys : recordKeys.all (fun s => !s.toList.isEmpty && (s.toList.all fun c =>
      isWordChar c && 32 ≤ c.toNat && c ≠ '"' && c ≠ '\\') && (readWord s.toList).isNone) = true := by
    decide
  obtain ⟨s, hs, rfl⟩ := List.mem_map.mp h
  have hk := List.all_eq_true.mp hkeys s hs
  simp only [Bool.and_eq_true, List.all_eq_true, decide_eq_true_eq, Option.isNone_iff_eq_none,
    Bool.not_eq_true', List.isEmpty_eq_false_iff] at hk
  exact ⟨hk.1.1, fun c hc => (hk.1.2 c hc).1.1.1,
    fun c hc => ⟨(hk.1.2 c hc).1.1.2, (hk.1.2 c hc).1.2, (hk.1.2 c hc).2⟩, hk.2⟩

theorem map_fst_record {fields : List Field} (h : fields.length = 17) :
    (record fields).map Prod.fst = recordKeys.map String.toList :=
  List.map_fst_zip (by simp [h, recordKeys])

theorem map_snd_record {fields : List Field} (h : fields.length = 17) :
    (record fields).map Prod.snd = fields :=
  List.map_snd_zip (by simp [h, recordKeys])

theorem wellFormed_record {fields : List Field} (h : fields.length = 17)
    (hlast : ∀ f, fields.getLast? = some f → f.Clean) : WellFormed (record fields) where
  ne_nil := by
    intro hnil
    have hlength := congrArg List.length (map_snd_record h)
    simp [hnil, h] at hlength
  names := fun f hf =>
    isName_of_mem (map_fst_record h ▸ List.mem_map_of_mem hf)
  nodup := map_fst_record h ▸ nodup_recordKeys
  last := fun f hf => by
    apply hlast
    rw [← map_snd_record h, List.getLast?_map, hf]
    rfl

theorem clean_record_iff {fields : List Field} (h : fields.length = 17) :
    (∀ f ∈ record fields, f.2.Clean) ↔ ∀ f ∈ fields, f.Clean := by
  conv_rhs => rw [← map_snd_record h, List.forall_mem_map]

theorem field_record {fields : List Field} (hfs : WellFormed (record fields)) {i : ℕ} {k : String}
    {f : Field} (hk : recordKeys[i]? = some k) (hf : fields[i]? = some f) :
    (meant (record fields)).field k.toList = some (.scalar f.scalar) := by
  apply field_of_mem hfs
  apply List.mem_of_getElem? (i := i)
  rw [record, List.getElem?_zip_eq_some, List.getElem?_map, hk]
  exact ⟨rfl, hf⟩

section Survival
variable {τ : Type} {l : List τ} {F : τ → List (Text × Field)}
  {G : τ → List (String × Option String)} {U : Unicode} {printed : Option Tally}

theorem pythonSpace_brace (U : Unicode) :
    U.pythonSpace '\x7b' = false ∧ U.pythonSpace '\x7d' = false := by
  rw [U.pythonSpace_ascii _ (by decide), U.pythonSpace_ascii _ (by decide)]
  decide

/-- A file survives when its fields are clean, are meant for the strings, and give the counts. -/
theorem survives_iff (hF : ∀ t ∈ l, WellFormed (F t))
    (hraw : ∀ t ∈ l, ∀ k s, (k, Field.raw s) ∈ F t →
      ∃ f ∈ G t, f.1.toList = k ∧ optionScalar f.2 = .str (codes s)) :
    Survives U (writeLines (l.map F)) (l.map G) printed ↔
      (∀ t ∈ l, (∀ f ∈ F t, f.2.Clean) ∧ Carries (meant (F t)) (G t)) ∧
        regenerateCorrectnessTable (l.map fun t => meant (F t)) = printed.map Tally.counts := by
  obtain ⟨hleft, hright⟩ := pythonSpace_brace U
  have hwritten : ∀ fs ∈ l.map F, WellFormed fs := List.forall_mem_map.mpr hF
  constructor
  · rintro ⟨rows, hload, hcarries, htable⟩
    rw [List.forall₂_map_right_iff] at hcarries
    have hclean : ∀ fs ∈ l.map F, ∀ f ∈ fs, f.2.Clean := by
      apply clean_of_loadLines hleft hright hwritten hload
      rw [List.forall₂_map_right_iff, List.forall₂_iff_get]
      refine ⟨hcarries.length_eq, fun i hi hi' k s hs => ?_⟩
      obtain ⟨f, hf, rfl, hscalar⟩ := hraw _ (List.get_mem l ⟨i, hi'⟩) k s hs
      rw [← hscalar]
      exact hcarries.get hi hi' f hf
    rw [loadJsonl, loadLines_of_clean hleft hright hwritten hclean, Option.some.injEq,
      List.map_map] at hload
    subst hload
    rw [List.forall₂_map_left_iff, List.forall₂_same] at hcarries
    exact ⟨fun t ht => ⟨hclean _ (List.mem_map_of_mem ht), hcarries t ht⟩, htable⟩
  · rintro ⟨h, htable⟩
    have hclean : ∀ fs ∈ l.map F, ∀ f ∈ fs, f.2.Clean :=
      List.forall_mem_map.mpr fun t ht => (h t ht).1
    refine ⟨l.map fun t => meant (F t), ?_, ?_, htable⟩
    · rw [loadJsonl, loadLines_of_clean hleft hright hwritten hclean, List.map_map]
      rfl
    · rw [List.forall₂_map_left_iff, List.forall₂_map_right_iff, List.forall₂_same]
      exact fun t ht => (h t ht).2

/-- The table counts the flags that the records were written for. -/
theorem regenerateCorrectnessTable_meant {correct supported : τ → Bool}
    (hcorrect : ∀ t ∈ l,
      ((meant (F t)).field "correct".toList).map isTrue = some (correct t))
    (hsupported : ∀ t ∈ l,
      ((meant (F t)).field "supported".toList).map truthy = some (supported t)) :
    regenerateCorrectnessTable (l.map fun t => meant (F t)) =
      some ⟨l.countP correct, l.countP supported, l.length⟩ := by
  have hall : (l.map fun t => meant (F t)).all isDictionary = true := by
    simp [isDictionary, meant]
  have hcorrect' : (l.map fun t => meant (F t)).countP (fun r =>
      ((r.field "correct".toList).map isTrue).getD false) = l.countP correct := by
    rw [List.countP_map]
    apply List.countP_congr
    intro t ht
    rw [Function.comp_apply, hcorrect t ht, Option.getD_some]
  have hsupported' : (l.map fun t => meant (F t)).countP (fun r =>
      ((r.field "supported".toList).map truthy).getD false) = l.countP supported := by
    rw [List.countP_map]
    apply List.countP_congr
    intro t ht
    rw [Function.comp_apply, hsupported t ht, Option.getD_some]
  rw [regenerateCorrectnessTable, if_pos hall, hcorrect', hsupported', List.length_map]

end Survival

def optionField : Option String → Field
  | none => .word .null
  | some s => .escaped s.toList

theorem scalar_optionField (o : Option String) : (optionField o).scalar = optionScalar o := by
  cases o <;> rfl

theorem clean_optionField_iff {o : Option String} :
    (optionField o).Clean ↔ ∀ s, o = some s → NoControl s.toList := by
  cases o <;> simp [optionField, Field.Clean]

theorem optionField_ne_raw {o : Option String} {s : Text} : Field.raw s ≠ optionField o := by
  cases o <;> simp [optionField]

/-- The two replacements put a backslash in front of both characters. -/
theorem replace_eq_escape (s : Text) :
    Xml.replace '"' "\\\"".toList (Xml.replace '\\' "\\\\".toList s) = escape s := by
  rw [Xml.replace, Xml.replace, List.flatMap_assoc, escape]
  congr 1
  funext c
  by_cases hbackslash : c = '\\'
  · subst hbackslash
    rfl
  · by_cases hquote : c = '"'
    · subst hquote
      rfl
    · simp [hbackslash, hquote]

theorem jsonString_eq (o : Option String) : jsonString o = (optionField o).text := by
  cases o with
  | none => rfl
  | some s => rw [jsonString, replace_eq_escape, optionField, Field.text]

def javaFields (engine engineVersion : String) (run : Run String) (t : Trial String × ℤ) :
    List Field :=
  [optionField run.runId, .raw engine.toList, .raw engineVersion.toList,
    optionField run.hostname, optionField run.corpusCommit, optionField run.adapterCommit,
    optionField t.1.id, optionField t.1.expected, optionField t.1.outcome.actual,
    .word (.ofBool true), .word (.ofBool (decide (t.1.outcome.actual = some t.1.expected))),
    .word (.integer run.policyLoadNs), .word .null, .word (.integer t.2), .word (.integer t.2),
    optionField t.1.outcome.error, .word .null]

theorem javaFile_eq (engine engineVersion : String) (run : Run String) :
    javaFile (jsonLine engine engineVersion) run =
      writeLines (run.trials.map fun t => record (javaFields engine engineVersion run t)) := by
  rw [javaFile, writeLines, List.map_map]
  refine congrArg unlines (List.map_congr_left fun t _ => ?_)
  simp only [Function.comp_apply, ← recordLine_text, jsonLine, jsonString_eq]
  rfl

/-- No string of the record has a control character. -/
def PrintableRecord (run : Run String) (t : Trial String) : Prop :=
  NoControl run.hostname.toList ∧ NoControl run.corpusCommit.toList ∧
    NoControl run.adapterCommit.toList ∧ NoControl t.id.toList ∧ NoControl t.expected.toList ∧
    (∀ decision, t.outcome = .returned decision → NoControl decision.toList) ∧
    ∀ error, t.outcome = .caught error → NoControl error.toList

theorem plain_runId {α : Type} (run : Run α) : Plain run.runId.toList := by
  have hrun : Plain "run-".toList := forall_toList (by decide)
  have hrunId : run.runId.toList = "run-".toList ++ decimal run.runIdMs := String.toList_ofList
  intro c hc
  rw [hrunId, List.mem_append] at hc
  rcases hc with hc | hc
  · exact hrun c hc
  · rcases mem_decimal hc with hdigit | rfl
    · have hrange : 48 ≤ c.toNat ∧ c.toNat ≤ 57 := Char.isDigit_iff_toNat.mp hdigit
      refine ⟨by omega, ?_, ?_⟩
      · rintro rfl
        exact absurd hrange (by decide)
      · rintro rfl
        exact absurd hrange (by decide)
    · decide

section Java
variable {engine engineVersion : String} {run : Run String}

theorem length_javaFields (t : Trial String × ℤ) :
    (javaFields engine engineVersion run t).length = 17 := rfl

theorem wellFormed_java (t : Trial String × ℤ) :
    WellFormed (record (javaFields engine engineVersion run t)) := by
  apply wellFormed_record (length_javaFields t)
  intro f hf
  cases hf
  trivial

theorem carries_java (t : Trial String × ℤ) :
    Carries (meant (record (javaFields engine engineVersion run t)))
      (javaOriginals engine engineVersion run t.1) := by
  have hfs : WellFormed (record (javaFields engine engineVersion run t)) := wellFormed_java t
  have hoption {i : ℕ} {k : String} {o : Option String} (hk : recordKeys[i]? = some k)
      (hf : (javaFields engine engineVersion run t)[i]? = some (optionField o)) :
      (meant (record (javaFields engine engineVersion run t))).field k.toList =
        some (.scalar (optionScalar o)) := by
    rw [field_record hfs hk hf, scalar_optionField]
  simp only [Carries, javaOriginals, originals, List.forall_mem_cons]
  refine ⟨hoption (i := 0) rfl rfl, field_record hfs (i := 1) rfl rfl,
    field_record hfs (i := 2) rfl rfl, hoption (i := 3) rfl rfl, hoption (i := 4) rfl rfl,
    hoption (i := 5) rfl rfl, hoption (i := 6) rfl rfl, hoption (i := 7) rfl rfl,
    hoption (i := 8) rfl rfl, hoption (i := 15) rfl rfl, field_record hfs (i := 16) rfl rfl,
    List.forall_mem_nil _⟩

theorem Outcome.error_eq_some_iff {α : Type} {x : Outcome α} {error : String} :
    x.error = some error ↔ x = .caught error := by
  cases x <;> simp [Outcome.error]

theorem clean_java_iff (hengine : Plain engine.toList) (hversion : Plain engineVersion.toList)
    (t : Trial String × ℤ) :
    (∀ f ∈ record (javaFields engine engineVersion run t), f.2.Clean) ↔
      PrintableRecord run t.1 := by
  have hword (w : Word) : (Field.word w).Clean := trivial
  have hraw {s : Text} (hs : Plain s) : (Field.raw s).Clean := hs
  have hrunId := (plain_runId run).noControl
  rw [clean_record_iff (length_javaFields t)]
  simp [javaFields, clean_optionField_iff, hword, hraw hengine, hraw hversion, hrunId,
    PrintableRecord, Outcome.actual_eq_some_iff, Outcome.error_eq_some_iff]

theorem table_java :
    regenerateCorrectnessTable
        (run.trials.map fun t => meant (record (javaFields engine engineVersion run t))) =
      (countTrials countEvery {} run.scenarios).map Tally.counts := by
  have hcorrect : ∀ t ∈ run.trials,
      ((meant (record (javaFields engine engineVersion run t))).field "correct".toList).map isTrue =
        some (decide (t.1.outcome.actual = some t.1.expected)) := by
    intro t _
    rw [field_record (wellFormed_java t) (i := 10) rfl rfl]
    rfl
  have hsupported : ∀ t ∈ run.trials,
      ((meant (record (javaFields engine engineVersion run t))).field "supported".toList).map
        truthy = some true := by
    intro t _
    rw [field_record (wellFormed_java t) (i := 9) rfl rfl]
    rfl
  rw [regenerateCorrectnessTable_meant hcorrect hsupported, run.countTrials_eq_some, Option.map_some,
    Tally.counts, countEvery_total, countEvery_supportedCount, countEvery_correct, Run.scenarios,
    List.countP_map, List.length_map, List.countP_true]
  rfl

theorem raw_java (t : Trial String × ℤ) {k s : Text}
    (hs : (k, Field.raw s) ∈ record (javaFields engine engineVersion run t)) :
    ∃ f ∈ javaOriginals engine engineVersion run t.1,
      f.1.toList = k ∧ optionScalar f.2 = .str (codes s) := by
  simp only [record, javaFields, recordKeys, List.map_cons, List.map_nil, List.zip_cons_cons,
    List.zip_nil_right, List.mem_cons, Prod.mk.injEq, optionField_ne_raw, and_false, false_or,
    reduceCtorEq, Field.raw.injEq, List.not_mem_nil, or_false] at hs
  rcases hs with ⟨rfl, rfl⟩ | ⟨rfl, rfl⟩
  · exact ⟨("engine", some engine), List.mem_of_getElem? (i := 1) rfl, rfl, rfl⟩
  · exact ⟨("engine_version", some engineVersion), List.mem_of_getElem? (i := 2) rfl, rfl, rfl⟩

theorem survives_java_iff (hengine : Plain engine.toList) (hversion : Plain engineVersion.toList)
    (U : Unicode) :
    Survives U (javaFile (jsonLine engine engineVersion) run)
        (run.scenarios.map (javaOriginals engine engineVersion run))
        (countTrials countEvery {} run.scenarios) ↔ ∀ t ∈ run.scenarios, PrintableRecord run t := by
  rw [javaFile_eq, Run.scenarios, List.map_map, List.forall_mem_map]
  refine (survives_iff (fun t _ => wellFormed_java t)
    fun t _ _ _ hs => raw_java t hs).trans ⟨?_, ?_⟩
  · exact fun h t ht => (clean_java_iff hengine hversion t).mp (h.1 t ht).1
  · exact fun h => ⟨fun t ht => ⟨(clean_java_iff hengine hversion t).mpr (h t ht), carries_java t⟩,
      table_java⟩

end Java

section Casbin
variable {run : Run Bool}

def casbinFields (run : Run Bool) (t : Trial Bool × ℤ) : List Field :=
  [.raw run.runId.toList, .raw "casbin-cpp".toList, .raw "ce8c55ed1".toList,
    .escaped run.hostname.toList, .raw run.corpusCommit.toList, .raw run.adapterCommit.toList,
    .raw t.1.id.toList, .raw t.1.expected.toList, optionField (casbinDecision t.1),
    .word (.ofBool (casbinSupported t.1)),
    .word (if casbinSupported t.1 then .ofBool (casbinCorrect t.1) else .null),
    .word (.integer run.policyLoadNs), .word .null, .word (.integer t.2), .word (.integer t.2),
    optionField (if casbinError t.1.outcome = "" then none else some (casbinError t.1.outcome)),
    if casbinSupported t.1 then .word .null else .raw unsupportedNote.toList]

theorem nullIfEmpty_eq (s : String) :
    nullIfEmpty s = (optionField (if s = "" then none else some s)).text := by
  rw [nullIfEmpty]
  split_ifs <;> rfl

theorem nullIfEmpty_casbinActual (t : Trial Bool) :
    nullIfEmpty (casbinActual t.outcome) = (optionField (casbinDecision t)).text := by
  rw [nullIfEmpty_eq, casbinDecision]
  cases t.outcome with
  | returned result => cases result <;> rfl
  | caught error => rfl
  | uncaught => rfl

theorem casbinFile_eq (run : Run Bool) :
    casbinFile run = writeLines (run.trials.map fun t => record (casbinFields run t)) := by
  rw [casbinFile, writeLines, List.map_map]
  refine congrArg unlines (List.map_congr_left fun t _ => ?_)
  simp only [Function.comp_apply, ← recordLine_text, CasbinCorpusRunner.recordLine,
    nullIfEmpty_casbinActual]
  rw [nullIfEmpty_eq, casbinFields]
  cases casbinSupported t.1 <;> rfl

theorem length_casbinFields (t : Trial Bool × ℤ) : (casbinFields run t).length = 17 := rfl

theorem plain_unsupportedNote : Plain unsupportedNote.toList := forall_toList (by decide)

theorem clean_casbinNotes (t : Trial Bool) :
    (if casbinSupported t then Field.word .null else .raw unsupportedNote.toList).Clean := by
  split_ifs
  · trivial
  · exact plain_unsupportedNote

theorem wellFormed_casbin (t : Trial Bool × ℤ) : WellFormed (record (casbinFields run t)) := by
  apply wellFormed_record (length_casbinFields t)
  intro f hf
  cases hf
  exact clean_casbinNotes t.1

/-- A record carries its strings unless its error text is empty. -/
theorem carries_casbin_iff (t : Trial Bool × ℤ) :
    Carries (meant (record (casbinFields run t))) (casbinOriginals run t.1) ↔
      ∀ error, t.1.outcome = .caught error → error ≠ "" := by
  have hfs : WellFormed (record (casbinFields run t)) := wellFormed_casbin t
  have herror := field_record hfs (i := 15) rfl rfl
  rw [scalar_optionField] at herror
  constructor
  · rintro h error hcaught rfl
    have hfield := h ("error", t.1.outcome.error) (List.mem_of_getElem? (i := 9) rfl)
    rw [herror, hcaught] at hfield
    cases hfield
  · intro h
    have hactual := field_record hfs (i := 8) rfl rfl
    have hnotes := field_record hfs (i := 16) rfl rfl
    rw [scalar_optionField] at hactual
    simp only [Carries, casbinOriginals, originals, List.forall_mem_cons]
    refine ⟨field_record hfs (i := 0) rfl rfl, field_record hfs (i := 1) rfl rfl,
      field_record hfs (i := 2) rfl rfl, field_record hfs (i := 3) rfl rfl,
      field_record hfs (i := 4) rfl rfl, field_record hfs (i := 5) rfl rfl,
      field_record hfs (i := 6) rfl rfl, field_record hfs (i := 7) rfl rfl, hactual, ?_, ?_,
      List.forall_mem_nil _⟩
    · rw [herror]
      cases hout : t.1.outcome with
      | caught error => rw [casbinError, if_neg (h error hout), Outcome.error]
      | returned result => rfl
      | uncaught => rfl
    · rw [hnotes, casbinNotes]
      cases casbinSupported t.1 <;> rfl

/-- The commits, the id and the expected value need no escape, the other strings have no control
character, and no error text is empty. -/
def PlainRecord (run : Run Bool) (t : Trial Bool) : Prop :=
  NoControl run.hostname.toList ∧ Plain run.corpusCommit.toList ∧
    Plain run.adapterCommit.toList ∧ Plain t.id.toList ∧ Plain t.expected.toList ∧
    ∀ error, t.outcome = .caught error → NoControl error.toList ∧ error ≠ ""

theorem clean_casbinDecision (t : Trial Bool) : (optionField (casbinDecision t)).Clean := by
  rw [clean_optionField_iff, casbinDecision]
  intro s hs
  split at hs
  · next result _ =>
    cases hs
    cases result
    · exact forall_toList (by decide)
    · exact forall_toList (by decide)
  · cases hs

theorem clean_casbinError_iff (x : Outcome Bool) :
    (optionField (if casbinError x = "" then none else some (casbinError x))).Clean ↔
      ∀ error, x = .caught error → NoControl error.toList := by
  rw [clean_optionField_iff]
  cases x with
  | returned result => simp [casbinError]
  | uncaught => simp [casbinError]
  | caught error =>
    rw [casbinError]
    split_ifs with hempty
    · simp [hempty, NoControl]
    · simp

theorem clean_casbin_iff (t : Trial Bool × ℤ) :
    (∀ f ∈ record (casbinFields run t), f.2.Clean) ∧
        Carries (meant (record (casbinFields run t))) (casbinOriginals run t.1) ↔
      PlainRecord run t.1 := by
  have hengine : Plain "casbin-cpp".toList := forall_toList (by decide)
  have hversion : Plain "ce8c55ed1".toList := forall_toList (by decide)
  rw [carries_casbin_iff, clean_record_iff (length_casbinFields t)]
  simp only [casbinFields, List.forall_mem_cons, clean_casbinError_iff]
  constructor
  · rintro ⟨⟨-, -, -, hhostname, hcorpus, hadapter, hid, hexpected, -, -, -, -, -, -, -, herror, -⟩,
      hempty⟩
    exact ⟨hhostname, hcorpus, hadapter, hid, hexpected,
      fun error hout => ⟨herror error hout, hempty error hout⟩⟩
  · rintro ⟨hhostname, hcorpus, hadapter, hid, hexpected, herror⟩
    exact ⟨⟨plain_runId run, hengine, hversion, hhostname, hcorpus, hadapter, hid, hexpected,
      clean_casbinDecision t.1, trivial, trivial, trivial, trivial, trivial, trivial,
      fun error hout => (herror error hout).1, clean_casbinNotes t.1, List.forall_mem_nil _⟩,
      fun error hout => (herror error hout).2⟩

theorem table_casbin :
    regenerateCorrectnessTable (run.trials.map fun t => meant (record (casbinFields run t))) =
      (countTrials countSupported {} run.scenarios).map Tally.counts := by
  have hcorrect : ∀ t ∈ run.trials,
      ((meant (record (casbinFields run t))).field "correct".toList).map isTrue =
        some (casbinCorrect t.1) := by
    intro t _
    rw [field_record (wellFormed_casbin t) (i := 10) rfl rfl, casbinCorrect]
    cases casbinSupported t.1 <;> rfl
  have hsupported : ∀ t ∈ run.trials,
      ((meant (record (casbinFields run t))).field "supported".toList).map truthy =
        some (casbinSupported t.1) := by
    intro t _
    rw [field_record (wellFormed_casbin t) (i := 9) rfl rfl]
    rfl
  rw [regenerateCorrectnessTable_meant hcorrect hsupported, run.countTrials_eq_some, Option.map_some,
    Tally.counts, countSupported_total, countSupported_supportedCount, countSupported_correct,
    Run.scenarios, List.countP_map, List.countP_map, List.length_map]
  rfl

theorem raw_casbin (t : Trial Bool × ℤ) {k s : Text}
    (hs : (k, Field.raw s) ∈ record (casbinFields run t)) :
    ∃ f ∈ casbinOriginals run t.1, f.1.toList = k ∧ optionScalar f.2 = .str (codes s) := by
  simp only [record, casbinFields, recordKeys, List.map_cons, List.map_nil, List.zip_cons_cons,
    List.zip_nil_right, List.mem_cons, Prod.mk.injEq, optionField_ne_raw, and_false, false_or,
    reduceCtorEq, Field.raw.injEq, List.not_mem_nil, or_false] at hs
  rcases hs with ⟨rfl, rfl⟩ | ⟨rfl, rfl⟩ | ⟨rfl, rfl⟩ | ⟨rfl, rfl⟩ | ⟨rfl, rfl⟩ | ⟨rfl, rfl⟩ |
    ⟨rfl, rfl⟩ | ⟨rfl, hs⟩
  · exact ⟨_, List.mem_of_getElem? (i := 0) rfl, rfl, rfl⟩
  · exact ⟨_, List.mem_of_getElem? (i := 1) rfl, rfl, rfl⟩
  · exact ⟨_, List.mem_of_getElem? (i := 2) rfl, rfl, rfl⟩
  · exact ⟨_, List.mem_of_getElem? (i := 4) rfl, rfl, rfl⟩
  · exact ⟨_, List.mem_of_getElem? (i := 5) rfl, rfl, rfl⟩
  · exact ⟨_, List.mem_of_getElem? (i := 6) rfl, rfl, rfl⟩
  · exact ⟨_, List.mem_of_getElem? (i := 7) rfl, rfl, rfl⟩
  · refine ⟨_, List.mem_of_getElem? (i := 10) rfl, rfl, ?_⟩
    rw [casbinNotes]
    cases hsupported : casbinSupported t.1 with
    | true =>
      rw [hsupported] at hs
      cases hs
    | false =>
      rw [hsupported] at hs
      cases hs
      rfl

theorem survives_casbin_iff (U : Unicode) :
    CasbinCorpusRunner.Survives U run ↔ ∀ t ∈ run.scenarios, PlainRecord run t := by
  rw [CasbinCorpusRunner.Survives, casbinFile_eq, Run.scenarios, List.map_map, List.forall_mem_map]
  refine (survives_iff (fun t _ => wellFormed_casbin t)
    fun t _ _ _ hs => raw_casbin t hs).trans ⟨?_, ?_⟩
  · exact fun h t ht => (clean_casbin_iff t).mp (h.1 t ht)
  · exact fun h => ⟨fun t ht => (clean_casbin_iff t).mpr (h t ht), table_casbin⟩

end Casbin

/-- The records of the Java runners survive exactly when no string has a control character; those
of the C++ runner when, besides, its unescaped strings need no escape and no error is empty. -/
theorem records_survive_iff (U : Unicode) (middleLayer : MiddleLayerRun) (sunXacml : Run String)
    (casbin : Run Bool) :
    (MiddleLayerCorpusRunner.Survives U middleLayer ∧ SunXacmlCorpusRunner.Survives U sunXacml ∧
      CasbinCorpusRunner.Survives U casbin) ↔
      (∀ t ∈ middleLayer.scenarios, PrintableRecord middleLayer.toRun t) ∧
        (∀ t ∈ sunXacml.scenarios, PrintableRecord sunXacml t) ∧
        ∀ t ∈ casbin.scenarios, PlainRecord casbin t := by
  have hmiddle : MiddleLayerCorpusRunner.Survives U middleLayer ↔
      ∀ t ∈ middleLayer.scenarios, PrintableRecord middleLayer.toRun t :=
    survives_java_iff (forall_toList (by decide)) (forall_toList (by decide)) U
  have hsun : SunXacmlCorpusRunner.Survives U sunXacml ↔
      ∀ t ∈ sunXacml.scenarios, PrintableRecord sunXacml t :=
    survives_java_iff (forall_toList (by decide)) (forall_toList (by decide)) U
  rw [hmiddle, hsun, survives_casbin_iff]

/-- A run of two scenarios. The first is permitted as expected, for the second the engine raises an
exception with a text of two lines. -/
def twoLineError : MiddleLayerRun where
  hostname := "bench"
  corpusCommit := "c0"
  adapterCommit := "a0"
  runIdMs := 1
  policyLoadNs := 2
  trials := [(⟨"scn-001", "Permit", .returned "Permit"⟩, 3),
    (⟨"scn-002", "Deny", .caught "Invalid request\nat line 2"⟩, 4)]
  finished := by simp
  warmUp := .returned "Permit"
  warm := ⟨"Permit", rfl⟩
  nonempty := List.cons_ne_nil _ _

/-- A run of one scenario that is permitted as expected, with a quote in its id. -/
def quoteInId : Run Bool where
  hostname := "bench"
  corpusCommit := "c0"
  adapterCommit := "a0"
  runIdMs := 1
  policyLoadNs := 2
  trials := [(⟨"scn-\"1\"", "Permit", .returned true⟩, 3)]
  finished := by simp

/-- Neither file can be loaded. -/
theorem line_feed_or_quote_breaks_record :
    (loadJsonl asciiOnly
        (javaFile MiddleLayerCorpusRunner.toJsonLine twoLineError.toRun)).isNone = true ∧
      ¬ MiddleLayerCorpusRunner.Survives asciiOnly twoLineError ∧
      (loadJsonl asciiOnly (casbinFile quoteInId)).isNone = true ∧
      ¬ CasbinCorpusRunner.Survives asciiOnly quoteInId := by
  have hjava : (loadJsonl asciiOnly
      (javaFile MiddleLayerCorpusRunner.toJsonLine twoLineError.toRun)).isNone = true := by
    decide +kernel
  have hcasbin : (loadJsonl asciiOnly (casbinFile quoteInId)).isNone = true := by
    decide +kernel
  refine ⟨hjava, ?_, hcasbin, ?_⟩
  · rintro ⟨rows, hrows, -⟩
    rw [hrows] at hjava
    cases hjava
  · rintro ⟨rows, hrows, -⟩
    rw [hrows] at hcasbin
    cases hcasbin

end AbacMiddleLayer.Harness
