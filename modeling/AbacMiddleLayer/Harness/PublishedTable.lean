import AbacMiddleLayer.Corpus.GeneratedCorpus
import AbacMiddleLayer.Harness.CorrectnessTrials

/-! # The correctness table, from the scenarios on

The runners write what their engines say of the scenarios into records, and `regenerate-tables.py`
counts the records. With the policies of the generated files in the engines, the row of an engine in
the table counts the scenarios on which the reference policy decides as expected.
-/
namespace AbacMiddleLayer.Harness
open Context Corpus MiddleLayer Xacml Xml Json Tsv

/-- The row of an engine in the table. -/
def published (U : Unicode) (file : Text) : Option Counts :=
  (loadJsonl U file).bind regenerateCorrectnessTable

theorem published_of_survives {U : Unicode} {file : Text}
    {strings : List (List (String × Option String))} {printed : Option Tally}
    (h : Survives U file strings printed) : published U file = printed.map Tally.counts := by
  obtain ⟨rows, hload, -, htable⟩ := h
  rw [published, hload, Option.bind_some, htable]

theorem plain_scenarioId {s : Text} (h : isScenarioId s = true) : Plain s := by
  intro c hmem
  have hc := isScenarioId_chars h c hmem
  refine ⟨?_, ?_, ?_⟩
  · rcases hc with hlower | hdigit | rfl
    · have hrange : (c.val ≥ 'a'.val && c.val ≤ 'z'.val) = true := hlower
      rw [Bool.and_eq_true, decide_eq_true_eq] at hrange
      have hle : 97 ≤ c.toNat := hrange.1
      omega
    · have hrange : 48 ≤ c.toNat ∧ c.toNat ≤ 57 := Char.isDigit_iff_toNat.mp hdigit
      omega
    · decide
  · rintro rfl
    revert hc
    decide
  · rintro rfl
    revert hc
    decide

/-- The decision of the reference policy, without decoys, on the scenario itself. -/
def reference (m : OnError) (s : Scenario) : Decision :=
  (courseScorePolicy3.eval3 permitOverrides3 m (scenarioRequest s)).report

section Counts
variable {ss : List Scenario} {run : Run String} {decision : Scenario → Decision}
  (hrun : run.scenarios = ss.map fun s => trialOf s (.returned (decisionToString (decision s))))
include hrun

end Counts

theorem plain_expected (e : Expected) : Plain e.str.toList := by
  cases e <;> exact forall_toList (by decide)

theorem expected_ne_iff (e : Expected) : e.str ≠ "NotApplicable" ↔ e ≠ .notApplicable := by
  cases e <;> decide

section Casbin
variable (enforcer : Request Attribute → Option Bool) (error : Text → String) (s : Scenario)

theorem casbinSupported_trialOf :
    casbinSupported (trialOf s (casbinOutcome enforcer error s)) =
      decide (s.expected ≠ .notApplicable ∧ (enforcer (scenarioRequest s)).isSome) := by
  rw [casbinSupported, trialOf, casbinOutcome]
  cases enforcer (scenarioRequest s) with
  | none => simp
  | some result => simp [expected_ne_iff]

theorem casbinCorrect_trialOf :
    casbinCorrect (trialOf s (casbinOutcome enforcer error s)) =
      decide (s.expected ≠ .notApplicable ∧
        (enforcer (scenarioRequest s)).map enforceActual = some s.expected.str) := by
  rw [casbinCorrect, casbinSupported_trialOf, trialOf, casbinOutcome]
  cases enforcer (scenarioRequest s) with
  | none => simp
  | some result =>
    rw [Bool.eq_iff_iff]
    simp only [casbinActual, Option.isSome_some, and_true, Option.map_some, Option.some.injEq,
      Bool.and_eq_true, decide_eq_true_iff]
    exact and_congr_right fun _ => decide_eq_true_iff

end Casbin

/-- The scenarios that Casbin can answer, and those on which an enforcer answers as expected. -/
def casbinCounts (enforcer : Request Attribute → Option Bool) (ss : List Scenario) : Counts where
  correct := ss.countP fun s => s.expected ≠ .notApplicable ∧
    (enforcer (scenarioRequest s)).map enforceActual = some s.expected.str
  supported := ss.countP fun s => s.expected ≠ .notApplicable ∧ (enforcer (scenarioRequest s)).isSome
  total := ss.length

/-- What the matcher says of a request by itself, with nothing but the base row. -/
def matcherAnswer (m : OnError) (r : Request Attribute) : Option Bool :=
  enforce m courseScoreMatcher r [baseRow]

theorem casbinCounts_congr {e e' : Request Attribute → Option Bool} {ss : List Scenario}
    (h : ∀ s ∈ ss, e (scenarioRequest s) = e' (scenarioRequest s)) :
    casbinCounts e ss = casbinCounts e' ss := by
  rw [casbinCounts, casbinCounts]
  congr 1
  · exact List.countP_congr fun s hs => by rw [h s hs]
  · exact List.countP_congr fun s hs => by rw [h s hs]

section Published
variable {ss : List Scenario} (h : Publishable ss) {σ : Type} (R : RandomSource σ) (numDecoys : ℕ)
  (m : OnError) (error : Text → String) (U : Unicode)
include h

/-- Casbin's row. The enforcer is a parameter, since its code is not part of the repository: from
`policy.csv` it makes a function of requests that fails or answers, and on requests with all
attributes it answers as the matcher and the effect say, over the rows of the file. -/
theorem published_casbin {tsv : Text} (hw : writeScenariosTsv ss = some tsv)
    (enforcer : Text → Request Attribute → Option Bool)
    (henforcer : ∀ r, AllPresent r → enforcer (casbinPolicyCsv R numDecoys) r =
      enforce m courseScoreMatcher r (baseRow :: casbinDecoyRows (generateDecoySpecs R numDecoys)))
    {casbin : Run Bool}
    (hcasbin : CasbinCorpusRunner.trials (enforcer (casbinPolicyCsv R numDecoys)) error tsv =
      some casbin.scenarios)
    (hhost : NoControl casbin.hostname.toList) (hcorpus : Plain casbin.corpusCommit.toList)
    (hadapter : Plain casbin.adapterCommit.toList)
    (herror : ∀ id, NoControl (error id).toList ∧ error id ≠ "") :
    published U (casbinFile casbin) =
        some (casbinCounts (enforcer (casbinPolicyCsv R numDecoys)) ss) ∧
      ((∀ s ∈ ss, AllPresent (scenarioRequest s)) →
        published U (casbinFile casbin) = some (casbinCounts (matcherAnswer m) ss)) := by
  rw [casbin_trials h _ error hw, Option.some.injEq] at hcasbin
  have hplain : ∀ t ∈ casbin.scenarios, PlainRecord casbin t := by
    rw [← hcasbin]
    intro t ht
    obtain ⟨s, -, rfl⟩ := List.mem_map.mp ht
    refine ⟨hhost, hcorpus, hadapter, ?_, plain_expected s.expected, ?_⟩
    · rw [trialOf, String.toList_ofList]
      exact plain_scenarioId s.idPattern
    · intro text htext
      have hid : error s.id = text := by
        rw [trialOf, casbinOutcome] at htext
        split at htext
        · exact Outcome.caught.inj htext
        · cases htext
      exact hid ▸ herror s.id
  have hcounts : published U (casbinFile casbin) =
      some (casbinCounts (enforcer (casbinPolicyCsv R numDecoys)) ss) := by
    rw [published_of_survives ((survives_casbin_iff U).mpr hplain), casbin.countTrials_eq_some,
      Option.map_some, Tally.counts, countSupported_total, countSupported_supportedCount,
      countSupported_correct, ← hcasbin, List.countP_map, List.countP_map, List.length_map]
    simp only [Function.comp_def, casbinSupported_trialOf, casbinCorrect_trialOf]
    rfl
  refine ⟨hcounts, fun hcomplete => ?_⟩
  rw [hcounts, casbinCounts_congr fun s hs => ?_]
  rw [henforcer _ (hcomplete s hs), (decoys_change_nothing _ m _).2.2, matcherAnswer]

end Published

theorem canonicalScenarios_publishable : Publishable canonicalScenarios where
  ne_nil := List.cons_ne_nil _ _
  portable := canonicalScenarios_portable
  ids := canonicalScenarios_ids

theorem canonicalScenarios_allPresent : ∀ s ∈ canonicalScenarios, AllPresent (scenarioRequest s) := by
  rw [canonicalScenarios, List.forall_mem_map]
  intro c _
  rw [scenarioRequest_toScenario]
  exact c.request.toRequest_allPresent

/-- A run with the trials that are given. -/
def runOf {α : Type} (ts : List (Trial α)) (h : ∀ t ∈ ts, t.outcome ≠ .uncaught) : Run α where
  hostname := "bench-01"
  corpusCommit := "4f2a91c"
  adapterCommit := "77be0d3"
  runIdMs := 1760000000000
  policyLoadNs := 1200000
  trials := ts.map fun t => (t, 5000)
  finished := List.forall_mem_map.mpr h

theorem scenarios_runOf {α : Type} (ts : List (Trial α)) (h : ∀ t ∈ ts, t.outcome ≠ .uncaught) :
    (runOf ts h).scenarios = ts := by
  rw [Run.scenarios, runOf, List.map_map]
  exact List.map_id ts

/-- The matcher answers nine of the ten scenarios, each as expected. -/
theorem casbinCounts_canonicalScenarios :
    casbinCounts (matcherAnswer .halt) canonicalScenarios = ⟨9, 9, 10⟩ := by
  have hcount (p : Expected → Option Bool → Bool) :
      canonicalScenarios.countP (fun s => p s.expected (matcherAnswer .halt (scenarioRequest s))) =
        scenariosJson.countP fun c => p c.expected (matcherAnswer .halt c.request.toRequest) := by
    rw [canonicalScenarios, List.countP_map]
    refine List.countP_congr fun c _ => ?_
    rw [Function.comp_apply, scenarioRequest_toScenario]
    rfl
  have hcorrect := hcount fun e answer => e ≠ .notApplicable ∧ answer.map enforceActual = some e.str
  have hsupported := hcount fun e answer => e ≠ .notApplicable ∧ answer.isSome
  rw [casbinCounts, hcorrect, hsupported]
  decide +kernel

/-- The ten canonical scenarios with a thousand decoys, under an enforcer that fails where a member
is missing: nine are supported, and all nine are right. -/
theorem published_casbin_canonical :
    ∃ tsv, ∃ casbin : Run Bool, writeScenariosTsv canonicalScenarios = some tsv ∧
      CasbinCorpusRunner.trials (fun r => enforce .halt courseScoreMatcher r
        (baseRow :: casbinDecoyRows (generateDecoySpecs leastSource 1000))) (fun _ => "e") tsv =
          some casbin.scenarios ∧
      published asciiOnly (casbinFile casbin) = some ⟨9, 9, 10⟩ := by
  have h := canonicalScenarios_publishable
  obtain ⟨tsv, hw⟩ := exists_tsv_of_portable h.portable
  have hfinished (enforcer : Request Attribute → Option Bool) :
      ∀ t ∈ canonicalScenarios.map fun s => trialOf s (casbinOutcome enforcer (fun _ => "e") s),
        t.outcome ≠ .uncaught := by
    rw [List.forall_mem_map]
    intro s _
    rw [trialOf, casbinOutcome]
    split
    · intro he
      cases he
    · intro he
      cases he
  have hcasbin := casbin_trials h (fun r => enforce .halt courseScoreMatcher r
    (baseRow :: casbinDecoyRows (generateDecoySpecs leastSource 1000))) (fun _ => "e") hw
  rw [← scenarios_runOf _ (hfinished _)] at hcasbin
  have hpublished := published_casbin h leastSource 1000 .halt (fun _ => "e") asciiOnly hw
    (fun _ r => enforce .halt courseScoreMatcher r
      (baseRow :: casbinDecoyRows (generateDecoySpecs leastSource 1000)))
    (fun _ _ => rfl) hcasbin (forall_toList (by decide)) (forall_toList (by decide))
    (forall_toList (by decide)) fun _ => ⟨forall_toList (by decide), by decide⟩
  refine ⟨tsv, _, hw, hcasbin, ?_⟩
  rw [hpublished.2 canonicalScenarios_allPresent, casbinCounts_canonicalScenarios]

end AbacMiddleLayer.Harness
