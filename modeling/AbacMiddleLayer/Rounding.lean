import Mathlib.Algebra.Order.Floor.Ring
import Mathlib.Algebra.Order.Floor.Semiring
import Mathlib.Algebra.Ring.Int.Parity
import Mathlib.Tactic

/-! # Rounding to the nearest integer

Three rules that differ only half-way between two integers: up, away from zero, and to
the even one.
-/
namespace AbacMiddleLayer.Rounding

variable {K : Type*} [Field K] [LinearOrder K] [IsStrictOrderedRing K] [FloorRing K]

def up (x : K) : ℤ := ⌊x + 1 / 2⌋

def awayFromZero (x : K) : ℤ := if 0 ≤ x then ⌊x + 1 / 2⌋ else ⌈x - 1 / 2⌉

def toEven (x : K) : ℤ :=
  if Int.fract x < 1 / 2 then ⌊x⌋
  else if 1 / 2 < Int.fract x then ⌊x⌋ + 1
  else if ⌊x⌋ % 2 = 0 then ⌊x⌋ else ⌊x⌋ + 1

section Tie
variable (k : ℤ)

theorem floor_tie : ⌊(k : K) + 1 / 2⌋ = k := by
  rw [Int.floor_eq_iff]
  constructor <;> linarith

theorem up_tie : up ((k : K) + 1 / 2) = k + 1 := by
  have h : (k : K) + 1 / 2 + 1 / 2 = ((k + 1 : ℤ) : K) := by
    push_cast
    ring
  rw [up, h, Int.floor_intCast]

theorem awayFromZero_tie : awayFromZero ((k : K) + 1 / 2) = if 0 ≤ k then k + 1 else k := by
  have hsign : (0 : K) ≤ k + 1 / 2 ↔ 0 ≤ k := by
    constructor
    · intro h
      have hlt : (-1 : K) < k := by linarith
      have hlt' : -1 < k := by exact_mod_cast hlt
      omega
    · intro h
      have hle : (0 : K) ≤ k := by exact_mod_cast h
      linarith
  have hceil : (k : K) + 1 / 2 - 1 / 2 = k := by ring
  have hup : ⌊(k : K) + 1 / 2 + 1 / 2⌋ = k + 1 := up_tie k
  simp only [awayFromZero, hsign, hup, hceil, Int.ceil_intCast]

theorem toEven_tie : toEven ((k : K) + 1 / 2) = if k % 2 = 0 then k else k + 1 := by
  have hfract : Int.fract ((k : K) + 1 / 2) = 1 / 2 := by
    rw [Int.fract, floor_tie]
    ring
  simp only [toEven, hfract, lt_irrefl, if_false, floor_tie]

end Tie

theorem up_eq_of_fract_lt {x : K} (h : Int.fract x < 1 / 2) : up x = ⌊x⌋ := by
  rw [up, Int.floor_eq_iff]
  have hx := Int.floor_add_fract x
  have hnonneg := Int.fract_nonneg x
  constructor <;> linarith

theorem up_eq_of_lt_fract {x : K} (h : 1 / 2 < Int.fract x) : up x = ⌊x⌋ + 1 := by
  rw [up, Int.floor_eq_iff]
  have hx := Int.floor_add_fract x
  have hlt := Int.fract_lt_one x
  push_cast
  constructor <;> linarith

/-- Without a tie all rules round to the nearer integer. -/
theorem eq_up_of_fract_ne {x : K} (h : Int.fract x ≠ 1 / 2) :
    awayFromZero x = up x ∧ toEven x = up x := by
  have hx := Int.floor_add_fract x
  rcases lt_or_gt_of_ne h with hlt | hgt
  · rw [up_eq_of_fract_lt hlt, toEven, if_pos hlt]
    refine ⟨?_, rfl⟩
    rw [awayFromZero]
    split_ifs
    · exact up_eq_of_fract_lt hlt
    · have hnonneg := Int.fract_nonneg x
      rw [Int.ceil_eq_iff]
      constructor <;> linarith
  · rw [up_eq_of_lt_fract hgt, toEven, if_neg hgt.not_gt, if_pos hgt]
    refine ⟨?_, rfl⟩
    rw [awayFromZero]
    split_ifs
    · exact up_eq_of_lt_fract hgt
    · have hlt := Int.fract_lt_one x
      rw [Int.ceil_eq_iff]
      push_cast
      constructor <;> linarith

/-- The three rules agree except half-way, and there above an odd integer that is not negative. -/
theorem agree_iff (x : K) :
    (awayFromZero x = up x ∧ toEven x = up x) ↔ ∀ k : ℤ, x = k + 1 / 2 → 0 ≤ k ∧ k % 2 = 1 := by
  by_cases htie : Int.fract x = 1 / 2
  · obtain ⟨k, rfl⟩ : ∃ k : ℤ, x = k + 1 / 2 := ⟨⌊x⌋, by rw [← htie, Int.floor_add_fract]⟩
    rw [up_tie, awayFromZero_tie, toEven_tie]
    constructor
    · rintro ⟨haway, heven⟩ j hj
      obtain rfl : k = j := by exact_mod_cast add_right_cancel hj
      split_ifs at haway heven <;> omega
    · intro h
      obtain ⟨hnonneg, hodd⟩ := h k rfl
      rw [if_pos hnonneg, if_neg (by omega)]
      exact ⟨rfl, rfl⟩
  · refine ⟨fun _ k hk => absurd ?_ htie, fun _ => eq_up_of_fract_ne htie⟩
    rw [hk, Int.fract, floor_tie]
    ring

end AbacMiddleLayer.Rounding
