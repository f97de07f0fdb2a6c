import Mathlib.Data.List.Sort
import Mathlib.Data.Rat.Floor
import Mathlib.Order.Bounds.Basic
import Mathlib.Tactic

/-! # Nearest-rank quantiles

The quantile of a list at a fraction `p` is its least element with at least that fraction
of the list at or below it. In a sorted list it stands at the index `⌈p * n⌉ - 1`.
-/
namespace AbacMiddleLayer.Quantile

variable {α : Type*} [LinearOrder α] {l : List α} {p q : ℚ}

/-- The elements with at least a fraction `p` of the list at or below them. -/
def reaching (p : ℚ) (l : List α) : Set α :=
  {v | v ∈ l ∧ p * l.length ≤ l.countP fun a => decide (a ≤ v)}

def IsQuantile (p : ℚ) (l : List α) (v : α) : Prop := IsLeast (reaching p l) v

/-- In a sorted list the elements at or below a bound stand in front. -/
theorem lt_countP_iff (h : l.Pairwise (· ≤ ·)) {i : ℕ} (hi : i < l.length) (v : α) :
    (i < l.countP fun a => decide (a ≤ v)) ↔ l[i] ≤ v := by
  induction l generalizing i with
  | nil => simp at hi
  | cons a l ih =>
    obtain ⟨ha, hl⟩ := List.pairwise_cons.mp h
    by_cases hav : a ≤ v
    · cases i with
      | zero => simp [hav]
      | succ i =>
        have hi' : i < l.length := by simpa using hi
        simpa [hav] using ih hl hi'
    · have hnone : ∀ b ∈ a :: l, ¬ b ≤ v := by
        intro b hb hbv
        rcases List.mem_cons.mp hb with rfl | hb
        · exact hav hbv
        · exact hav ((ha b hb).trans hbv)
      have hzero : ((a :: l).countP fun b => decide (b ≤ v)) = 0 :=
        List.countP_eq_zero.mpr fun b hb => by simpa using hnone b hb
      rw [hzero]
      simpa using hnone _ (List.getElem_mem hi)

/-- The rank of a fraction is a position of the list. -/
theorem exists_rank {n : ℕ} (hp : 0 < p) (hp' : p ≤ 1) (hn : 0 < n) :
    ∃ i < n, (i : ℤ) = ⌈p * n⌉ - 1 ∧ (i : ℚ) < p * n ∧ p * n ≤ i + 1 := by
  have hn' : (0 : ℚ) < n := by exact_mod_cast hn
  have hpos : 0 < ⌈p * n⌉ := Int.ceil_pos.mpr (mul_pos hp hn')
  have hle : ⌈p * n⌉ ≤ n := Int.ceil_le.mpr (by simpa using mul_le_of_le_one_left hn'.le hp')
  obtain ⟨i, hi⟩ := Int.eq_ofNat_of_zero_le (by omega : 0 ≤ ⌈p * n⌉ - 1)
  have hceil : ⌈p * n⌉ = i + 1 := by omega
  obtain ⟨hlt, hge⟩ := Int.ceil_eq_iff.mp hceil
  refine ⟨i, by omega, hi.symm, ?_, ?_⟩
  · simpa using hlt
  · simpa using hge

/-- The element at the rank of `p` is the quantile. -/
theorem isQuantile_getElem (h : l.Pairwise (· ≤ ·)) {i : ℕ} (hi : i < l.length)
    (hlt : (i : ℚ) < p * l.length) (hle : p * l.length ≤ i + 1) : IsQuantile p l l[i] := by
  constructor
  · refine ⟨List.getElem_mem hi, hle.trans ?_⟩
    have hcount := (lt_countP_iff h hi l[i]).mpr le_rfl
    exact_mod_cast hcount
  · rintro v ⟨-, hv⟩
    refine (lt_countP_iff h hi v).mp ?_
    exact_mod_cast hlt.trans_le hv

theorem reaching_antitone (h : p ≤ q) : reaching q l ⊆ reaching p l := by
  rintro v ⟨hv, hq⟩
  exact ⟨hv, (mul_le_mul_of_nonneg_right h (Nat.cast_nonneg _)).trans hq⟩

/-- Quantiles grow with the fraction. -/
theorem IsQuantile.mono {v w : α} (hv : IsQuantile p l v) (hw : IsQuantile q l w) (h : p ≤ q) :
    v ≤ w :=
  hv.2 (reaching_antitone h hw.1)

end AbacMiddleLayer.Quantile
