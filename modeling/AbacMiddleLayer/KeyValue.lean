import Mathlib.Data.List.DropRight
import Mathlib.Data.List.TakeWhile
import Mathlib.Data.List.Basic
import Mathlib.Tactic

/-! # Lines of keys and values

Trimming a line, cutting it at the first separator, and the value that the last
assignment of a key leaves in a map.
-/
namespace AbacMiddleLayer.KeyValue

section Trim
variable {α : Type*} {p : α → Bool} {a b s t : List α} {c : α}

/-- The list without the elements with `p` at its two ends. -/
def trim (p : α → Bool) (s : List α) : List α := (s.dropWhile p).rdropWhile p

theorem rdropWhile_append_of_pos (hb : ∀ c ∈ b, p c = true) :
    (s ++ b).rdropWhile p = s.rdropWhile p := by
  rw [List.rdropWhile, List.reverse_append, List.dropWhile_append_of_pos, List.rdropWhile]
  exact fun c hc => hb c (List.mem_reverse.mp hc)

theorem rdropWhile_append_cons (hc : p c = false) :
    (s ++ c :: t).rdropWhile p = s ++ c :: t.rdropWhile p := by
  induction t using List.reverseRecOn with
  | nil => exact List.rdropWhile_concat_neg p s c (by simp [hc])
  | append_singleton t d ih =>
    have hassoc : s ++ c :: (t ++ [d]) = (s ++ c :: t) ++ [d] := by simp
    by_cases hd : p d = true
    · rw [hassoc, List.rdropWhile_concat_pos p _ d hd, ih, List.rdropWhile_concat_pos p t d hd]
    · rw [hassoc, List.rdropWhile_concat_neg p _ d hd, List.rdropWhile_concat_neg p t d hd, hassoc]

theorem trim_eq_nil (h : ∀ c ∈ s, p c = true) : trim p s = [] := by
  rw [trim, List.dropWhile_eq_nil_iff.mpr h, List.rdropWhile_nil]

theorem trim_append_left (ha : ∀ c ∈ a, p c = true) : trim p (a ++ s) = trim p s := by
  rw [trim, List.dropWhile_append_of_pos ha, trim]

theorem trim_append_right (hb : ∀ c ∈ b, p c = true) : trim p (s ++ b) = trim p s := by
  by_cases hs : ∀ c ∈ s, p c = true
  · rw [trim_eq_nil hs, trim_eq_nil]
    intro c hc
    rcases List.mem_append.mp hc with hc | hc
    · exact hs c hc
    · exact hb c hc
  · have hne : s.dropWhile p ≠ [] := fun h => hs (List.dropWhile_eq_nil_iff.mp h)
    have hdrop : (s ++ b).dropWhile p = s.dropWhile p ++ b := by
      rw [List.dropWhile_append, if_neg (by simpa using hne)]
    rw [trim, hdrop, rdropWhile_append_of_pos hb, trim]

/-- A list is left as it is when neither end has `p`. -/
theorem trim_eq_self (hhead : ∀ c, s.head? = some c → p c = false)
    (hlast : ∀ c, s.getLast? = some c → p c = false) : trim p s = s := by
  cases s with
  | nil => rfl
  | cons c s =>
    have hc : ¬ p c = true := by simp [hhead c rfl]
    rw [trim, List.dropWhile_cons_of_neg hc, List.rdropWhile_eq_self_iff]
    intro hne
    simp [hlast _ (List.getLast?_eq_some_getLast hne)]

theorem exists_trim (p : α → Bool) (s : List α) :
    ∃ a b, s = a ++ trim p s ++ b ∧ (∀ c ∈ a, p c = true) ∧ ∀ c ∈ b, p c = true := by
  refine ⟨s.takeWhile p, (s.dropWhile p).rtakeWhile p, ?_, ?_, ?_⟩
  · rw [trim, List.append_assoc, List.rdropWhile_append_rtakeWhile, List.takeWhile_append_dropWhile]
  · exact fun c hc => List.mem_takeWhile_imp hc
  · exact fun c hc => List.mem_rtakeWhile_imp hc

theorem mem_trim (hmem : c ∈ s) (hc : p c = false) : c ∈ trim p s := by
  obtain ⟨a, b, hs, ha, hb⟩ := exists_trim p s
  rw [hs, List.mem_append, List.mem_append] at hmem
  rcases hmem with (hmem | hmem) | hmem
  · rw [ha c hmem] at hc
    cases hc
  · exact hmem
  · rw [hb c hmem] at hc
    cases hc

theorem head_trim (h : (trim p s).head? = some c) : p c = false := by
  have hprefix : trim p s <+: s.dropWhile p := List.rdropWhile_prefix p _
  have hhead : (s.dropWhile p).head? = some c := by
    obtain ⟨t, ht⟩ := hprefix
    rw [← ht, List.head?_append, h]
    rfl
  have hne : s.dropWhile p ≠ [] := by
    intro he
    simp [he] at hhead
  have hnot := List.head_dropWhile_not p hne
  rwa [List.head_eq_iff_head?_eq_some hne |>.mpr hhead] at hnot

theorem last_trim (h : (trim p s).getLast? = some c) : p c = false := by
  have hne : (s.dropWhile p).rdropWhile p ≠ [] := by
    intro he
    simp [trim, he] at h
  have hnot := List.rdropWhile_last_not p _ hne
  rw [trim, List.getLast?_eq_some_getLast hne, Option.some.injEq] at h
  rwa [h, Bool.not_eq_true] at hnot

theorem trim_trim (p : α → Bool) (s : List α) : trim p (trim p s) = trim p s :=
  trim_eq_self (fun _ => head_trim) fun _ => last_trim

end Trim

section Cut
variable {α : Type*} [DecidableEq α] {sep : α} {s k v : List α}

/-- What stands before and behind the first separator. -/
def cutAt (sep : α) (s : List α) : Option (List α × List α) :=
  if sep ∈ s then
    some (s.takeWhile fun c => decide (c ≠ sep), (s.dropWhile fun c => decide (c ≠ sep)).tail)
  else none

theorem cutAt_append (h : sep ∉ k) : cutAt sep (k ++ sep :: v) = some (k, v) := by
  have hk : ∀ c ∈ k, decide (c ≠ sep) = true := by
    intro c hc
    rw [decide_eq_true_eq]
    rintro rfl
    exact h hc
  rw [cutAt, if_pos (by simp), List.takeWhile_append_of_pos hk, List.dropWhile_append_of_pos hk]
  simp

theorem cutAt_eq_none_iff : cutAt sep s = none ↔ sep ∉ s := by
  rw [cutAt]
  split_ifs with h <;> simp [h]

theorem cutAt_eq_some_iff : cutAt sep s = some (k, v) ↔ s = k ++ sep :: v ∧ sep ∉ k := by
  constructor
  · intro h
    have hmem : sep ∈ s := by
      by_contra hnot
      rw [cutAt_eq_none_iff.mpr hnot] at h
      cases h
    obtain ⟨k', v', rfl, hk'⟩ := List.eq_append_cons_of_mem hmem
    rw [cutAt_append hk', Option.some.injEq, Prod.mk.injEq] at h
    obtain ⟨rfl, rfl⟩ := h
    exact ⟨rfl, hk'⟩
  · rintro ⟨rfl, hk⟩
    exact cutAt_append hk

end Cut

section LastValue
variable {σ κ ν : Type*} [BEq κ] (assignment : σ → Option (κ × ν)) (k : κ)

/-- What a map holds for a key after the assignments of the lines, one after the other. -/
def lastValue (l : List σ) : Option ν := (l.filterMap assignment).reverse.lookup k

variable [LawfulBEq κ] {assignment k} {l : List σ} {s : σ} {v : ν}

theorem lastValue_concat_of_eq (h : assignment s = some (k, v)) :
    lastValue assignment k (l ++ [s]) = some v := by
  simp [lastValue, h]

theorem lastValue_concat_of_ne (h : ∀ w, assignment s ≠ some (k, w)) :
    lastValue assignment k (l ++ [s]) = lastValue assignment k l := by
  cases hs : assignment s with
  | none => simp [lastValue, hs]
  | some a =>
    have hne : (k == a.1) = false := by
      rw [beq_eq_false_iff_ne]
      rintro rfl
      exact h a.2 hs
    obtain ⟨x, y⟩ := a
    simp [lastValue, hs, List.lookup_cons, hne]

/-- A line decides the value when no line behind it has the key. -/
theorem lastValue_eq_some (front rest : List σ) (h : assignment s = some (k, v))
    (hrest : ∀ r ∈ rest, ∀ w, assignment r ≠ some (k, w)) :
    lastValue assignment k (front ++ s :: rest) = some v := by
  induction rest using List.reverseRecOn with
  | nil => exact lastValue_concat_of_eq h
  | append_singleton rest r ih =>
    have hassoc : front ++ s :: (rest ++ [r]) = (front ++ s :: rest) ++ [r] := by simp
    rw [hassoc, lastValue_concat_of_ne (hrest r (by simp))]
    exact ih fun r' hr' => hrest r' (List.mem_append_left _ hr')

/-- Some line decides the value. -/
theorem exists_of_lastValue (h : lastValue assignment k l = some v) :
    ∃ front s rest, l = front ++ s :: rest ∧ assignment s = some (k, v) ∧
      ∀ r ∈ rest, ∀ w, assignment r ≠ some (k, w) := by
  induction l using List.reverseRecOn with
  | nil => simp [lastValue] at h
  | append_singleton l s ih =>
    by_cases hs : ∃ w, assignment s = some (k, w)
    · obtain ⟨w, hw⟩ := hs
      rw [lastValue_concat_of_eq hw, Option.some.injEq] at h
      exact ⟨l, s, [], rfl, h ▸ hw, by simp⟩
    · push Not at hs
      rw [lastValue_concat_of_ne hs] at h
      obtain ⟨front, r, rest, rfl, hr, hrest⟩ := ih h
      refine ⟨front, r, rest ++ [s], by simp, hr, fun r' hr' => ?_⟩
      rcases List.mem_append.mp hr' with hr' | hr'
      · exact hrest r' hr'
      · rw [List.mem_singleton.mp hr']
        exact hs

/-- The value that the last element with one has, by a relation. -/
def LastNamed {μ : Type*} (names : σ → μ → Prop) (l : List σ) (v : μ) : Prop :=
  ∃ front s rest, l = front ++ s :: rest ∧ names s v ∧ ∀ r ∈ rest, ∀ w, ¬ names r w

/-- What is read from the last value, for assignments that a relation describes. -/
theorem bind_lastValue_eq_some_iff {μ β : Type*} {names : σ → μ → Prop} {g : μ → ν}
    {read : ν → Option β} {n : β} (h : ∀ s x, assignment s = some (k, x) ↔ ∃ v, names s v ∧ g v = x) :
    (lastValue assignment k l).bind read = some n ↔
      ∃ v, LastNamed names l v ∧ read (g v) = some n := by
  constructor
  · intro hread
    obtain ⟨x, hx, hn⟩ := Option.bind_eq_some_iff.mp hread
    obtain ⟨front, s, rest, hl, hs, hrest⟩ := exists_of_lastValue hx
    obtain ⟨v, hv, rfl⟩ := (h s x).mp hs
    refine ⟨v, ⟨front, s, rest, hl, hv, fun r hr w hw => ?_⟩, hn⟩
    exact hrest r hr (g w) ((h r (g w)).mpr ⟨w, hw, rfl⟩)
  · rintro ⟨v, ⟨front, s, rest, rfl, hv, hrest⟩, hn⟩
    rw [lastValue_eq_some front rest ((h s (g v)).mpr ⟨v, hv, rfl⟩) fun r hr w hw => ?_,
      Option.bind_some, hn]
    obtain ⟨u, hu, -⟩ := (h r w).mp hw
    exact hrest r hr u hu

end LastValue

end AbacMiddleLayer.KeyValue
