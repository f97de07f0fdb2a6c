import Mathlib.Data.List.Basic
import Mathlib.Tactic

/-! # Three-valued truth of policy expressions

A target or a condition is true, false or Indeterminate. Targets combine their
parts by fixed tables; the functions `and` and `or` are read in two ways in
practice, which differ when an Indeterminate argument precedes a deciding one.
Every result below holds under both readings.
-/
namespace AbacMiddleLayer.Xacml

/-- `none` is Indeterminate. -/
abbrev Truth := Option Bool

/-- What an `and` or `or` does after an Indeterminate argument: give up, or go on
looking for an argument that decides the result. -/
inductive OnError where
  | halt
  | seek
deriving DecidableEq, Repr

def conj (m : OnError) : Truth → Truth → Truth
  | some false, _ => some false
  | some true, y => y
  | none, y => match m with
    | .halt => none
    | .seek => if y = some false then some false else none

def disj (m : OnError) : Truth → Truth → Truth
  | some true, _ => some true
  | some false, y => y
  | none, y => match m with
    | .halt => none
    | .seek => if y = some true then some true else none

@[simp] theorem conj_some (m : OnError) (a b : Bool) :
    conj m (some a) (some b) = some (a && b) := by
  cases a <;> rfl

@[simp] theorem disj_some (m : OnError) (a b : Bool) :
    disj m (some a) (some b) = some (a || b) := by
  cases a <;> rfl

/-- The table of a conjunctive list: no match as soon as one part does not match. -/
def allOf : List Truth → Truth
  | [] => some true
  | t :: ts => conj .seek t (allOf ts)

/-- The table of a disjunctive list: a match as soon as one part matches. -/
def anyOf : List Truth → Truth
  | [] => some false
  | t :: ts => disj .seek t (anyOf ts)

@[simp] theorem conj_eq_true_iff (m : OnError) (x y : Truth) :
    conj m x y = some true ↔ x = some true ∧ y = some true := by
  rcases x with _ | (_ | _) <;> cases m <;> rcases y with _ | (_ | _) <;> simp [conj]

@[simp] theorem disj_seek_eq_true_iff (x y : Truth) :
    disj .seek x y = some true ↔ x = some true ∨ y = some true := by
  rcases x with _ | (_ | _) <;> rcases y with _ | (_ | _) <;> simp [disj]

theorem allOf_eq_true_iff (ts : List Truth) : allOf ts = some true ↔ ∀ t ∈ ts, t = some true := by
  induction ts with
  | nil => simp [allOf]
  | cons t ts ih => simp [allOf, ih]

theorem anyOf_eq_true_iff (ts : List Truth) : anyOf ts = some true ↔ some true ∈ ts := by
  induction ts with
  | nil => simp [anyOf]
  | cons t ts ih =>
    rw [anyOf, disj_seek_eq_true_iff, ih, List.mem_cons]
    exact or_congr_left eq_comm

/-- On determined parts a conjunctive list is determined. -/
theorem allOf_isSome {ts : List Truth} (h : ∀ t ∈ ts, t.isSome) : (allOf ts).isSome := by
  induction ts with
  | nil => rfl
  | cons t ts ih =>
    obtain ⟨b, rfl⟩ := Option.isSome_iff_exists.mp (h t (by simp))
    have hts := ih fun u hu => h u (by simp [hu])
    cases b <;> simp [allOf, conj, hts]

/-- On determined parts a disjunctive list is determined. -/
theorem anyOf_isSome {ts : List Truth} (h : ∀ t ∈ ts, t.isSome) : (anyOf ts).isSome := by
  induction ts with
  | nil => rfl
  | cons t ts ih =>
    obtain ⟨b, rfl⟩ := Option.isSome_iff_exists.mp (h t (by simp))
    have hts := ih fun u hu => h u (by simp [hu])
    cases b <;> simp [anyOf, disj, hts]

theorem conj_isSome (m : OnError) {x y : Truth} (hx : x.isSome) (hy : y.isSome) :
    (conj m x y).isSome := by
  obtain ⟨b, rfl⟩ := Option.isSome_iff_exists.mp hx
  cases b <;> simp [conj, hy]

theorem disj_isSome (m : OnError) {x y : Truth} (hx : x.isSome) (hy : y.isSome) :
    (disj m x y).isSome := by
  obtain ⟨b, rfl⟩ := Option.isSome_iff_exists.mp hx
  cases b <;> simp [disj, hy]

/-- Two determined truths are equal as soon as they are true together. -/
theorem truth_eq_of_true_iff {x y : Truth} (hx : x.isSome) (hy : y.isSome)
    (h : x = some true ↔ y = some true) : x = y := by
  obtain ⟨a, rfl⟩ := Option.isSome_iff_exists.mp hx
  obtain ⟨b, rfl⟩ := Option.isSome_iff_exists.mp hy
  cases a <;> cases b <;> simp_all

/-- `Below x y` says that `y` knows at least what `x` knows: an Indeterminate value
may become anything, a determined one stays. -/
def Below {α : Type*} (x y : Option α) : Prop := ∀ a, x = some a → y = some a

theorem Below.refl {α : Type*} (x : Option α) : Below x x := fun _ h => h

theorem below_none {α : Type*} (y : Option α) : Below none y := fun _ h => by cases h

theorem Below.bind {α β : Type*} {x y : Option α} {f g : α → Option β} (h : Below x y)
    (hf : ∀ a, Below (f a) (g a)) : Below (x.bind f) (y.bind g) := by
  intro b hb
  obtain ⟨a, ha, hfa⟩ := Option.bind_eq_some_iff.mp hb
  rw [h a ha]
  exact hf a b hfa

/-- Both readings of `and` respect the order of information. -/
theorem conj_below (m : OnError) {x x' y y' : Truth} (hx : Below x x') (hy : Below y y') :
    Below (conj m x y) (conj m x' y') := by
  intro b hb
  rcases x with _ | (_ | _)
  · -- an Indeterminate first argument is only survived by a later `false`
    cases m with
    | halt => simp [conj] at hb
    | seek =>
      by_cases hf : y = some false
      · simp only [conj, hf, if_true, Option.some.injEq] at hb
        subst hb
        rw [hy false hf]
        rcases x' with _ | (_ | _) <;> simp [conj]
      · simp [conj, hf] at hb
  · rw [hx false rfl]
    exact hb
  · rw [hx true rfl]
    exact hy b hb

/-- Both readings of `or` respect the order of information. -/
theorem disj_below (m : OnError) {x x' y y' : Truth} (hx : Below x x') (hy : Below y y') :
    Below (disj m x y) (disj m x' y') := by
  intro b hb
  rcases x with _ | (_ | _)
  · -- an Indeterminate first argument is only survived by a later `true`
    cases m with
    | halt => simp [disj] at hb
    | seek =>
      by_cases ht : y = some true
      · simp only [disj, ht, if_true, Option.some.injEq] at hb
        subst hb
        rw [hy true ht]
        rcases x' with _ | (_ | _) <;> simp [disj]
      · simp [disj, ht] at hb
  · rw [hx false rfl]
    exact hy b hb
  · rw [hx true rfl]
    exact hb

end AbacMiddleLayer.Xacml
