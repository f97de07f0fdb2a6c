import Mathlib.Data.List.Basic
import Mathlib.Tactic

/-! # The correctness runners

Each runner evaluates the scenarios one by one, counts, and exits with status 0 when
its counters agree. The Casbin runner counts only scenarios it takes for supported,
and an exception makes a scenario unsupported.
-/
namespace AbacMiddleLayer.Harness

/-- What an engine does with a scenario: it returns, it fails in a way the runner turns into
an error text, or it fails in a way that ends the runner. -/
inductive Outcome (α : Type) where
  | returned (value : α)
  | caught (error : String)
  | uncaught
deriving DecidableEq, Repr

/-- A scenario with the engine's behaviour on it. -/
structure Trial (α : Type) where
  id : String
  expected : String
  outcome : Outcome α
deriving DecidableEq, Repr

/-- The fields of a result line that depend on the scenario. -/
structure Record where
  id : String
  expected : String
  actual : Option String
  supported : Bool
  correct : Option Bool
  error : Option String
deriving DecidableEq, Repr

structure Tally where
  total : ℕ := 0
  correct : ℕ := 0
  supportedCount : ℕ := 0
  records : List Record := []
deriving DecidableEq, Repr

/-- A loop over the trials that an uncaught failure ends. -/
def countTrials {α : Type} (count : Tally → Trial α → Tally) :
    Tally → List (Trial α) → Option Tally
  | tally, [] => some tally
  | tally, t :: ts =>
    match t.outcome with
    | .uncaught => none
    | _ => countTrials count (count tally t) ts

def Outcome.actual : Outcome String → Option String
  | .returned decision => some decision
  | _ => none

def Outcome.error {α : Type} : Outcome α → Option String
  | .caught error => some error
  | _ => none

/-- One turn of the loops of MiddleLayerCorpusRunner, SunXacmlCorpusRunner and
run-authzforce-correctness.py. -/
def countEvery (tally : Tally) (t : Trial String) : Tally :=
  let isCorrect := decide (t.outcome.actual = some t.expected)
  { total := tally.total + 1
    correct := if isCorrect then tally.correct + 1 else tally.correct
    supportedCount := tally.supportedCount + 1
    records := tally.records ++
      [⟨t.id, t.expected, t.outcome.actual, true, some isCorrect, t.outcome.error⟩] }

/-- The exit status of a runner that requires all scenarios to be correct. -/
def exitEvery : Option Tally → ℕ
  | some tally => if tally.correct = tally.total then 0 else 1
  | none => 1

/-- SunXacmlCorpusRunner. -/
def sunXacmlCorrectness (trials : List (Trial String)) : ℕ :=
  exitEvery (countTrials countEvery {} trials)

/-- The main function of run-authzforce-correctness.py; an error text of `run_one` is caught, a
timeout is not. -/
def authzForceCorrectness (trials : List (Trial String)) : ℕ :=
  exitEvery (countTrials countEvery {} trials)

/-- MiddleLayerCorpusRunner: a first evaluation of the first scenario, outside of any handler,
precedes the loop, and without a scenario it fails. -/
def middleLayerCorrectness (warmUp : Outcome String) (trials : List (Trial String)) : ℕ :=
  match trials, warmUp with
  | _ :: _, .returned _ => exitEvery (countTrials countEvery {} trials)
  | _, _ => 1

def enforceActual : Bool → String
  | true => "Permit"
  | false => "Deny"

/-- The actual decision is the empty string after an exception. -/
def casbinActual : Outcome Bool → String
  | .returned result => enforceActual result
  | _ => ""

def casbinSupported (t : Trial Bool) : Bool :=
  match t.outcome with
  | .returned _ => decide (t.expected ≠ "NotApplicable")
  | _ => false

def casbinCorrect (t : Trial Bool) : Bool :=
  casbinSupported t && decide (casbinActual t.outcome = t.expected)

def countSupported (tally : Tally) (t : Trial Bool) : Tally :=
  let actual := casbinActual t.outcome
  { total := tally.total + 1
    correct := if casbinCorrect t then tally.correct + 1 else tally.correct
    supportedCount := if casbinSupported t then tally.supportedCount + 1 else tally.supportedCount
    records := tally.records ++
      [⟨t.id, t.expected, if actual = "" then none else some actual, casbinSupported t,
        if casbinSupported t then some (casbinCorrect t) else none, t.outcome.error⟩] }

def casbinCorrectness (trials : List (Trial Bool)) : ℕ :=
  match countTrials countSupported {} trials with
  | some tally => if tally.correct = tally.supportedCount then 0 else 1
  | none => 1

def Outcome.isUncaught {α : Type} : Outcome α → Bool
  | .uncaught => true
  | _ => false

@[simp] theorem Outcome.isUncaught_eq_false_iff {α : Type} (x : Outcome α) :
    x.isUncaught = false ↔ x ≠ .uncaught := by
  cases x <;> simp [Outcome.isUncaught]

section Loop
variable {α : Type} (count : Tally → Trial α → Tally)

theorem countTrials_eq (tally : Tally) (trials : List (Trial α)) :
    countTrials count tally trials =
      if trials.any fun t => t.outcome.isUncaught then none
      else some (trials.foldl count tally) := by
  induction trials generalizing tally with
  | nil => rfl
  | cons t ts ih =>
    cases ht : t.outcome <;> simp [countTrials, ht, ih, Outcome.isUncaught]

/-- A counter that grows by one exactly at the trials with `p` counts them. -/
theorem foldl_counter (counter : Tally → ℕ) (p : Trial α → Bool)
    (hp : ∀ tally t, counter (count tally t) = counter tally + if p t then 1 else 0)
    (tally : Tally) (trials : List (Trial α)) :
    counter (trials.foldl count tally) = counter tally + trials.countP p := by
  induction trials generalizing tally with
  | nil => simp
  | cons t ts ih =>
    rw [List.foldl_cons, ih, hp, List.countP_cons]
    omega

end Loop

theorem countEvery_total (trials : List (Trial String)) :
    (trials.foldl countEvery {}).total = trials.length := by
  have h := foldl_counter countEvery Tally.total (fun _ => true) (fun _ _ => rfl) {} trials
  simpa using h

theorem countEvery_supportedCount (trials : List (Trial String)) :
    (trials.foldl countEvery {}).supportedCount = trials.length := by
  have h := foldl_counter countEvery Tally.supportedCount (fun _ => true) (fun _ _ => rfl) {} trials
  simpa using h

theorem countEvery_correct (trials : List (Trial String)) :
    (trials.foldl countEvery {}).correct =
      trials.countP fun t => decide (t.outcome.actual = some t.expected) := by
  have h := foldl_counter countEvery Tally.correct
    (fun t => decide (t.outcome.actual = some t.expected)) (fun tally t => by
      by_cases ht : t.outcome.actual = some t.expected <;> simp [countEvery, ht]) {} trials
  simpa using h

theorem countSupported_total (trials : List (Trial Bool)) :
    (trials.foldl countSupported {}).total = trials.length := by
  have h := foldl_counter countSupported Tally.total (fun _ => true) (fun _ _ => rfl) {} trials
  simpa using h

theorem countSupported_supportedCount (trials : List (Trial Bool)) :
    (trials.foldl countSupported {}).supportedCount = trials.countP casbinSupported := by
  have h := foldl_counter countSupported Tally.supportedCount casbinSupported (fun tally t => by
    by_cases ht : casbinSupported t = true <;> simp [countSupported, ht]) {} trials
  simpa using h

theorem countSupported_correct (trials : List (Trial Bool)) :
    (trials.foldl countSupported {}).correct = trials.countP casbinCorrect := by
  have h := foldl_counter countSupported Tally.correct casbinCorrect (fun tally t => by
    by_cases ht : casbinCorrect t = true <;> simp [countSupported, ht]) {} trials
  simpa using h

theorem Outcome.actual_eq_some_iff (x : Outcome String) (decision : String) :
    x.actual = some decision ↔ x = .returned decision := by
  cases x <;> simp [Outcome.actual]

/-- The runners that count every scenario exit with 0 exactly when all are as expected. -/
theorem exitEvery_eq_zero_iff (trials : List (Trial String)) :
    exitEvery (countTrials countEvery {} trials) = 0 ↔
      ∀ t ∈ trials, t.outcome = .returned t.expected := by
  rw [countTrials_eq]
  by_cases hu : (trials.any fun t => t.outcome.isUncaught) = true
  · rw [if_pos hu]
    obtain ⟨t, ht, hout⟩ := List.any_eq_true.mp hu
    simp only [exitEvery, one_ne_zero, false_iff]
    intro h
    simp [h t ht, Outcome.isUncaught] at hout
  · rw [if_neg hu, exitEvery, countEvery_total, countEvery_correct]
    simp [Outcome.actual_eq_some_iff]

/-- All supported scenarios are correct when the two counters agree. -/
theorem countP_casbinCorrect_iff (trials : List (Trial Bool)) :
    trials.countP casbinCorrect = trials.countP casbinSupported ↔
      ∀ t ∈ trials, casbinSupported t = true → casbinActual t.outcome = t.expected := by
  have hcorrect : trials.countP casbinCorrect = (trials.filter casbinSupported).countP
      fun t => decide (casbinActual t.outcome = t.expected) := by
    rw [List.countP_filter]
    congr 1
    funext t
    rw [casbinCorrect, Bool.and_comm]
  rw [hcorrect, List.countP_eq_length_filter (p := casbinSupported), List.countP_eq_length]
  simp only [List.mem_filter, decide_eq_true_eq, and_imp]

theorem casbinCorrectness_eq_zero_iff (trials : List (Trial Bool)) :
    casbinCorrectness trials = 0 ↔
      (∀ t ∈ trials, t.outcome ≠ .uncaught) ∧
        ∀ t ∈ trials, casbinSupported t = true → casbinActual t.outcome = t.expected := by
  rw [casbinCorrectness, countTrials_eq]
  by_cases hu : (trials.any fun t => t.outcome.isUncaught) = true
  · rw [if_pos hu]
    obtain ⟨t, ht, hout⟩ := List.any_eq_true.mp hu
    simp only [one_ne_zero, false_iff, not_and]
    intro h
    have hfalse := (Outcome.isUncaught_eq_false_iff t.outcome).mpr (h t ht)
    simp [hfalse] at hout
  · have hnone : ∀ t ∈ trials, t.outcome ≠ .uncaught := by simpa using hu
    rw [if_neg hu]
    simp only [countSupported_supportedCount, countSupported_correct, countP_casbinCorrect_iff]
    simpa using fun _ => hnone

/-- The scenario's expected decision is Permit or Deny. -/
def Trial.Decided {α : Type} (t : Trial α) : Prop := t.expected = "Permit" ∨ t.expected = "Deny"

/-- Exit status 0 guarantees that each scenario with a decision gave that decision. -/
def Sound {α : Type} (status : ℕ) (decisionOf : Trial α → Option String)
    (trials : List (Trial α)) : Prop :=
  status = 0 → ∀ t ∈ trials, t.Decided → decisionOf t = some t.expected

def casbinDecision (t : Trial Bool) : Option String :=
  match t.outcome with
  | .returned result => some (enforceActual result)
  | _ => none

theorem exitEvery_sound (trials : List (Trial String)) :
    Sound (exitEvery (countTrials countEvery {} trials)) (fun t => t.outcome.actual) trials := by
  intro h t ht _
  rw [Outcome.actual_eq_some_iff]
  exact (exitEvery_eq_zero_iff trials).mp h t ht

theorem middleLayerCorrectness_sound (warmUp : Outcome String) (trials : List (Trial String)) :
    Sound (middleLayerCorrectness warmUp trials) (fun t => t.outcome.actual) trials := by
  cases trials with
  | nil =>
    intro _ t ht
    simp at ht
  | cons t ts =>
    cases warmUp with
    | returned decision => exact exitEvery_sound (t :: ts)
    | caught error =>
      intro h
      simp [middleLayerCorrectness] at h
    | uncaught =>
      intro h
      simp [middleLayerCorrectness] at h

theorem casbinSupported_iff (t : Trial Bool) :
    casbinSupported t = true ↔
      ∃ result, t.outcome = .returned result ∧ t.expected ≠ "NotApplicable" := by
  unfold casbinSupported
  cases t.outcome <;> simp

theorem Trial.Decided.ne_notApplicable {α : Type} {t : Trial α} (h : t.Decided) :
    t.expected ≠ "NotApplicable" := by
  rcases h with h | h <;> rw [h] <;> decide

/-- An exception takes its scenario out of the count, so the Casbin runner is sound when no
scenario with a decision raises one, or when something else makes it fail. -/
theorem casbinCorrectness_sound_iff (trials : List (Trial Bool)) :
    Sound (casbinCorrectness trials) casbinDecision trials ↔
      (∀ t ∈ trials, t.Decided → ∀ error, t.outcome ≠ .caught error) ∨
        (∃ t ∈ trials, t.outcome = .uncaught) ∨
        ∃ t ∈ trials, ∃ result, t.outcome = .returned result ∧ t.expected ≠ "NotApplicable" ∧
          enforceActual result ≠ t.expected := by
  constructor
  · intro hsound
    by_contra hn
    push Not at hn
    obtain ⟨⟨t, ht, hdecided, error, hcaught⟩, huncaught, hreturned⟩ := hn
    have hzero : casbinCorrectness trials = 0 := by
      refine (casbinCorrectness_eq_zero_iff trials).mpr ⟨huncaught, fun u hu hsupported => ?_⟩
      obtain ⟨result, hresult, hexpected⟩ := (casbinSupported_iff u).mp hsupported
      rw [hresult]
      exact hreturned u hu result hresult hexpected
    have hdecision := hsound hzero t ht hdecided
    simp [casbinDecision, hcaught] at hdecision
  · intro h hzero t ht hdecided
    obtain ⟨huncaught, hsupported⟩ := (casbinCorrectness_eq_zero_iff trials).mp hzero
    rcases h with hcaught | ⟨u, hu, hout⟩ | ⟨u, hu, result, hresult, hexpected, hwrong⟩
    · cases hout : t.outcome with
      | returned result =>
        have hactual := hsupported t ht
          ((casbinSupported_iff t).mpr ⟨result, hout, hdecided.ne_notApplicable⟩)
        rw [hout] at hactual
        simpa [casbinDecision, casbinActual, hout] using hactual
      | caught error => exact absurd hout (hcaught t ht hdecided error)
      | uncaught => exact absurd hout (huncaught t ht)
    · exact absurd hout (huncaught u hu)
    · have hactual := hsupported u hu ((casbinSupported_iff u).mpr ⟨result, hresult, hexpected⟩)
      rw [hresult] at hactual
      exact absurd hactual hwrong

/-- Exit status 0 of the four runners is sound on their scenarios exactly when, in the Casbin
run, no scenario expected to be permitted or denied raises an exception, or something ends the
run, or some scenario that returns disagrees with a decision expected of it. -/
theorem runners_sound_iff (warmUp : Outcome String)
    (middleLayer sunXacml authzForce : List (Trial String)) (casbin : List (Trial Bool)) :
    (Sound (middleLayerCorrectness warmUp middleLayer) (fun t => t.outcome.actual) middleLayer ∧
      Sound (sunXacmlCorrectness sunXacml) (fun t => t.outcome.actual) sunXacml ∧
      Sound (authzForceCorrectness authzForce) (fun t => t.outcome.actual) authzForce ∧
      Sound (casbinCorrectness casbin) casbinDecision casbin) ↔
      (∀ t ∈ casbin, t.Decided → ∀ error, t.outcome ≠ .caught error) ∨
        (∃ t ∈ casbin, t.outcome = .uncaught) ∨
        ∃ t ∈ casbin, ∃ result, t.outcome = .returned result ∧ t.expected ≠ "NotApplicable" ∧
          enforceActual result ≠ t.expected := by
  rw [← casbinCorrectness_sound_iff]
  constructor
  · exact fun h => h.2.2.2
  · exact fun h => ⟨middleLayerCorrectness_sound warmUp middleLayer, exitEvery_sound sunXacml,
      exitEvery_sound authzForce, h⟩

/-- The only scenario expects Permit and raises, and the runner exits with 0. -/
theorem casbin_exits_zero_after_exception :
    casbinCorrectness [⟨"scn-1", "Permit", .caught "stoi"⟩] = 0 ∧
      ¬ Sound (casbinCorrectness [⟨"scn-1", "Permit", .caught "stoi"⟩]) casbinDecision
        [⟨"scn-1", "Permit", .caught "stoi"⟩] := by
  refine ⟨by decide, fun h => ?_⟩
  have hdecision := h (by decide) ⟨"scn-1", "Permit", .caught "stoi"⟩ (by simp) (.inl rfl)
  simp [casbinDecision] at hdecision

end AbacMiddleLayer.Harness
