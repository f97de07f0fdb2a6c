import Mathlib.Data.List.Basic
import Mathlib.Tactic

/-! # Texts

Texts are lists of characters. What a program writes as literals are strings; the
lemmas here carry facts about a literal over to its list of characters.
-/
namespace AbacMiddleLayer

abbrev Text := List Char

/-- A property of the characters of a literal, from the list of them. -/
theorem forall_toList {l : List Char} {p : Char → Prop} [DecidablePred p]
    (h : l.all (fun c => decide (p c)) = true) : ∀ c ∈ (String.ofList l).toList, p c := by
  rw [String.toList_ofList]
  intro c hc
  exact of_decide_eq_true (List.all_eq_true.mp h c hc)

/-- A property of a literal, from the list of its characters. -/
theorem of_toList {l : List Char} {P : List Char → Prop} (h : P l) : P (String.ofList l).toList := by
  rwa [String.toList_ofList]

/-- Keys that are literals are looked up as strings. -/
theorem lookup_toList {β : Type*} (l : List (String × β)) (k : String) :
    (l.map fun a => (a.1.toList, a.2)).lookup k.toList = l.lookup k := by
  induction l with
  | nil => rfl
  | cons a l ih =>
    obtain ⟨x, y⟩ := a
    have hkey : (k.toList == x.toList) = (k == x) := by
      rw [Bool.eq_iff_iff, beq_iff_eq, beq_iff_eq, String.toList_inj]
    rw [List.map_cons, List.lookup_cons, List.lookup_cons, hkey, ih]

theorem toNat_toUpper (c : Char) :
    c.toUpper.toNat = if 97 ≤ c.toNat ∧ c.toNat ≤ 122 then c.toNat - 32 else c.toNat := by
  have hiff : ('a'.val ≤ c.val ∧ c.val ≤ 'z'.val) ↔ (97 ≤ c.toNat ∧ c.toNat ≤ 122) := by
    rw [UInt32.le_iff_toNat_le, UInt32.le_iff_toNat_le]
    rfl
  unfold Char.toUpper
  split_ifs with h h' h'
  · have hsub : ('A'.val - 'a'.val).toNat = 2 ^ 32 - 32 := rfl
    have hc : c.val.toNat = c.toNat := rfl
    change (c.val + ('A'.val - 'a'.val)).toNat = _
    rw [UInt32.toNat_add, hsub, hc]
    omega
  · exact absurd (hiff.mp h) h'
  · exact absurd (hiff.mpr h') h
  · rfl

theorem toNat_toLower (c : Char) :
    c.toLower.toNat = if 65 ≤ c.toNat ∧ c.toNat ≤ 90 then c.toNat + 32 else c.toNat := by
  have hiff : ('A'.val ≤ c.val ∧ c.val ≤ 'Z'.val) ↔ (65 ≤ c.toNat ∧ c.toNat ≤ 90) := by
    rw [UInt32.le_iff_toNat_le, UInt32.le_iff_toNat_le]
    rfl
  unfold Char.toLower
  split_ifs with h h' h'
  · have hadd : ('a'.val - 'A'.val).toNat = 32 := rfl
    have hc : c.val.toNat = c.toNat := rfl
    change (c.val + ('a'.val - 'A'.val)).toNat = _
    rw [UInt32.toNat_add, hadd, hc]
    omega
  · exact absurd (hiff.mp h) h'
  · exact absurd (hiff.mpr h') h
  · rfl

theorem toLower_toUpper (c : Char) : c.toUpper.toLower = c.toLower := by
  rw [← Char.toNat_inj, toNat_toLower, toNat_toLower, toNat_toUpper]
  split_ifs <;> omega

/-- Nothing but itself becomes a character that is no letter. -/
theorem toUpper_eq_iff {d : Char} (hd : d.toNat < 65 ∨ 122 < d.toNat) (c : Char) :
    c.toUpper = d ↔ c = d := by
  have h := toNat_toUpper c
  rw [← Char.toNat_inj, ← Char.toNat_inj (c := c)]
  split_ifs at h <;> omega

end AbacMiddleLayer
