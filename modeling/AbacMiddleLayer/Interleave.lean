import Mathlib.Logic.Function.Basic
import Mathlib.Tactic

/-! # Processes that own their state

A schedule interleaves the actions of processes. An action changes the part of the state that
belongs to its process and no other, so a run of a schedule is one run of each process by
itself, over the actions that the schedule has for it.
-/
namespace AbacMiddleLayer.Interleave

variable {ι κ σ α : Type*}

/-- One process by itself; `none` is an action that it cannot take. -/
def runOne (step : σ → α → Option σ) : σ → List α → Option σ
  | s, [] => some s
  | s, a :: as => (step s a).bind fun t => runOne step t as

variable [DecidableEq ι] [DecidableEq κ]

/-- All processes, in the order of the schedule. -/
def run (step : ι → σ → α → Option σ) : (ι → σ) → List (ι × α) → Option (ι → σ)
  | s, [] => some s
  | s, (i, a) :: as => (step i (s i) a).bind fun t => run step (Function.update s i t) as

/-- The actions that a schedule has for a process. -/
def actions (i : ι) (as : List (ι × α)) : List α :=
  as.filterMap fun a => if a.1 = i then some a.2 else none

theorem actions_cons_self (i : ι) (a : α) (as : List (ι × α)) :
    actions i ((i, a) :: as) = a :: actions i as := by
  simp [actions]

theorem actions_cons_of_ne {i j : ι} (h : i ≠ j) (a : α) (as : List (ι × α)) :
    actions j ((i, a) :: as) = actions j as := by
  simp [actions, h]

/-- A process takes its actions in the order of the schedule. -/
theorem actions_sublist (i : ι) (as : List (ι × α)) :
    (actions i as).Sublist (as.map Prod.snd) := by
  induction as with
  | nil => exact List.Sublist.slnil
  | cons a as ih =>
    obtain ⟨j, a⟩ := a
    by_cases h : j = i
    · subst h
      rw [actions_cons_self, List.map_cons]
      exact ih.cons_cons a
    · rw [actions_cons_of_ne h, List.map_cons]
      exact ih.cons a

/-- Processes under other names have the same actions, unless two names become one. -/
theorem actions_map {f : ι → κ} (hf : Function.Injective f) (i : ι) (as : List (ι × α)) :
    actions (f i) (as.map fun a => (f a.1, a.2)) = actions i as := by
  rw [actions, List.filterMap_map]
  apply List.filterMap_congr
  intro a _
  simp [hf.eq_iff]

/-- A run is a run of every process by itself. -/
theorem run_eq_some_iff {step : ι → σ → α → Option σ} {s t : ι → σ} {as : List (ι × α)} :
    run step s as = some t ↔ ∀ i, runOne (step i) (s i) (actions i as) = some (t i) := by
  induction as generalizing s with
  | nil =>
    simp only [run, actions, List.filterMap_nil, runOne, Option.some.injEq]
    exact funext_iff
  | cons a as ih =>
    obtain ⟨i, a⟩ := a
    constructor
    · intro h j
      obtain ⟨u, hu, hrun⟩ := Option.bind_eq_some_iff.mp h
      have hj := ih.mp hrun j
      by_cases hij : i = j
      · subst hij
        rw [Function.update_self] at hj
        rw [actions_cons_self, runOne, hu, Option.bind_some, hj]
      · rw [Function.update_of_ne (Ne.symm hij)] at hj
        rw [actions_cons_of_ne hij, hj]
    · intro h
      have hi := h i
      rw [actions_cons_self, runOne] at hi
      obtain ⟨u, hu, hone⟩ := Option.bind_eq_some_iff.mp hi
      rw [run, hu, Option.bind_some]
      apply ih.mpr
      intro j
      by_cases hij : i = j
      · subst hij
        rw [Function.update_self]
        exact hone
      · rw [Function.update_of_ne (Ne.symm hij), ← h j, actions_cons_of_ne hij]

end AbacMiddleLayer.Interleave
