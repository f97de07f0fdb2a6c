import Mathlib.Data.List.Basic
import Mathlib.Tactic

/-! # Machines that emit events

A machine reads inputs one by one, changes its state and emits events. What holds of
the events of each step carries over to the events of a run.
-/
namespace AbacMiddleLayer.Machine

variable {S I E : Type*}

/-- The events of a run, oldest first, and the state it ends in. -/
def run (step : S → I → List E × S) (s : S) : List I → List E × S
  | [] => ([], s)
  | i :: is =>
    ((step s i).1 ++ (run step (step s i).2 is).1, (run step (step s i).2 is).2)

/-- `P` holds of each input of a run in the state that reads it. -/
def Along (step : S → I → List E × S) (P : S → I → Prop) : S → List I → Prop
  | _, [] => True
  | s, i :: is => P s i ∧ Along step P (step s i).2 is

variable {step : S → I → List E × S} {P Q : S → I → Prop}

/-- Under an invariant of the machine a property of the steps may be exchanged. -/
theorem along_congr {inv : S → Prop} {ok : I → Prop} (hinv : ∀ s i, inv s → ok i → inv (step s i).2)
    (hPQ : ∀ s i, inv s → ok i → (P s i ↔ Q s i)) {s : S} (hs : inv s) {is : List I}
    (hok : ∀ i ∈ is, ok i) : Along step P s is ↔ Along step Q s is := by
  induction is generalizing s with
  | nil => exact Iff.rfl
  | cons i is ih =>
    have hi : ok i := hok i (by simp)
    exact and_congr (hPQ s i hs hi) (ih (hinv s i hs hi) fun j hj => hok j (by simp [hj]))

/-- A property that does not look at the state holds along a run when it holds of the inputs. -/
theorem along_const (R : I → Prop) (s : S) (is : List I) :
    Along step (fun _ i => R i) s is ↔ ∀ i ∈ is, R i := by
  induction is generalizing s with
  | nil => simp [Along]
  | cons i is ih => simp [Along, ih]

/-- States that look the same stay so when what a step leaves to be seen depends on what was
seen before. -/
theorem run_congr {V : Type*} {view : S → V}
    (hstep : ∀ s t i, view s = view t → view (step s i).2 = view (step t i).2) {s t : S}
    (h : view s = view t) (is : List I) : view (run step s is).2 = view (run step t is).2 := by
  induction is generalizing s t with
  | nil => exact h
  | cons i is ih => exact ih (hstep s t i h)

/-- Each event of a trace has what it needs among the events before it. -/
def Preceded (needs : E → List E → Prop) (trace : List E) : Prop :=
  ∀ before e after, trace = before ++ e :: after → needs e before

/-- Events whose needs are met within their own part, or by the whole part before them. -/
theorem Preceded.append {needs : E → List E → Prop} {t u : List E} (ht : Preceded needs t)
    (hu : Preceded (fun e before => needs e (t ++ before)) u) : Preceded needs (t ++ u) := by
  intro before e after h
  rcases List.append_eq_append_iff.mp h with ⟨as, hbefore, hrest⟩ | ⟨bs, ht', hrest⟩
  · rw [hbefore]
    exact hu as e after hrest
  · cases bs with
    | nil =>
      have h0 := hu [] e after (by simpa using hrest.symm)
      simpa [ht'] using h0
    | cons b bs =>
      simp only [List.cons_append, List.cons.injEq] at hrest
      obtain ⟨rfl, -⟩ := hrest
      exact ht before e bs ht'

section Monotone
variable {needs : E → List E → Prop}
  (hmono : ∀ e xs ys, xs ⊆ ys → needs e xs → needs e ys)
include hmono

theorem Preceded.append_self {t u : List E} (ht : Preceded needs t) (hu : Preceded needs u) :
    Preceded needs (t ++ u) := by
  refine ht.append fun before e after h => ?_
  exact hmono e before _ (List.subset_append_right t before) (hu before e after h)

/-- What the part before it provides is enough for every event behind it. -/
theorem Preceded.append_of_mem {t u : List E} (ht : Preceded needs t) (hu : ∀ e ∈ u, needs e t) :
    Preceded needs (t ++ u) := by
  refine ht.append fun before e after h => ?_
  exact hmono e t _ (List.subset_append_left t before) (hu e (by simp [h]))

/-- A run has what its events need when each of its steps has. -/
theorem preceded_run (hstep : ∀ s i, P s i → Preceded needs (step s i).1) {s : S} {is : List I}
    (h : Along step P s is) : Preceded needs (run step s is).1 := by
  induction is generalizing s with
  | nil =>
    intro before e after hnil
    simp [run] at hnil
  | cons i is ih => exact (hstep s i h.1).append_self hmono (ih h.2)

end Monotone

theorem preceded_of_forall {needs : E → List E → Prop} {t : List E}
    (h : ∀ e ∈ t, ∀ before, needs e before) : Preceded needs t := by
  intro before e after ht
  exact h e (by simp [ht]) before

end AbacMiddleLayer.Machine
