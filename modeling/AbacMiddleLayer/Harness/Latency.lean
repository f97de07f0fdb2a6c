import AbacMiddleLayer.Quantile
import AbacMiddleLayer.Rounding

/-! # Latency summaries

Five programs in three languages summarise the latencies of a benchmark run. The
percentiles are nearest-rank quantiles everywhere. The two Python runners take the median
from `statistics.median`, and each language rounds the mean by its own rule. The
arithmetic is exact.
-/
namespace AbacMiddleLayer.Harness
open Quantile

/-- The element at an index; an index outside of the list is an exception. -/
def element (l : List ℤ) (idx : ℤ) : Option ℤ := if idx < 0 then none else l[idx.toNat]?

/-- The percentile of the Java and C++ runners: the rank, then two checks on it. -/
def checkedPercentile (sorted : List ℤ) (p : ℚ) : Option ℤ :=
  let idx := ⌈p * sorted.length⌉ - 1
  let idx := if idx < 0 then 0 else idx
  let idx := if idx ≥ sorted.length then (sorted.length : ℤ) - 1 else idx
  element sorted idx

/-- The percentile of the Python runners. A negative index is left for the empty list only. -/
def boundedPercentile (sorted : List ℤ) (p : ℚ) : Option ℤ :=
  let idx := max 0 (⌈p * sorted.length⌉ - 1)
  let idx := min idx ((sorted.length : ℤ) - 1)
  element sorted idx

def MiddleLayerCorpusRunner.percentile := checkedPercentile

def SunXacmlCorpusRunner.percentile := checkedPercentile

def CasbinCorpusRunner.percentileNs := checkedPercentile

def RunAuthzforceBenchmark.percentile := boundedPercentile

def RunCasbinBenchmark.percentile := boundedPercentile

def percentiles : List (List ℤ → ℚ → Option ℤ) :=
  [MiddleLayerCorpusRunner.percentile, SunXacmlCorpusRunner.percentile,
    CasbinCorpusRunner.percentileNs, RunAuthzforceBenchmark.percentile, RunCasbinBenchmark.percentile]

theorem element_natCast {l : List ℤ} {i : ℕ} (h : i < l.length) : element l i = some l[i] := by
  rw [element, if_neg (by omega), Int.toNat_natCast, List.getElem?_eq_getElem h]

/-- Inside of the list neither check changes the index. -/
theorem percentile_eq_element {l : List ℤ} {i : ℕ} (hi : i < l.length) {p : ℚ}
    (hrank : (i : ℤ) = ⌈p * l.length⌉ - 1) {f : List ℤ → ℚ → Option ℤ} (hf : f ∈ percentiles) :
    f l p = some l[i] := by
  have hchecked : checkedPercentile l p = some l[i] := by
    simp only [checkedPercentile, ← hrank]
    rw [if_neg (by omega), if_neg (by omega), element_natCast hi]
  have hbounded : boundedPercentile l p = some l[i] := by
    simp only [boundedPercentile, ← hrank]
    rw [max_eq_right (by omega), min_eq_left (by omega), element_natCast hi]
  simp only [percentiles, List.mem_cons, List.not_mem_nil, or_false] at hf
  rcases hf with rfl | rfl | rfl | rfl | rfl
  · exact hchecked
  · exact hchecked
  · exact hchecked
  · exact hbounded
  · exact hbounded

/-- Every percentile is the nearest-rank quantile of a sorted list. -/
theorem exists_percentile {l : List ℤ} (hsorted : l.Pairwise (· ≤ ·)) (hne : l ≠ []) {p : ℚ}
    (hp : 0 < p) (hp' : p ≤ 1) :
    ∃ i, ∃ hi : i < l.length, (i : ℤ) = ⌈p * l.length⌉ - 1 ∧
      (∀ f ∈ percentiles, f l p = some l[i]) ∧ IsQuantile p l l[i] := by
  obtain ⟨i, hi, hrank, hlt, hle⟩ := exists_rank hp hp' (List.length_pos_iff.mpr hne)
  exact ⟨i, hi, hrank, fun f hf => percentile_eq_element hi hrank hf,
    isQuantile_getElem hsorted hi hlt hle⟩

theorem percentile_mono {l : List ℤ} (hsorted : l.Pairwise (· ≤ ·)) (hne : l ≠ []) {p q : ℚ}
    (hp : 0 < p) (hpq : p ≤ q) (hq : q ≤ 1) {f : List ℤ → ℚ → Option ℤ} (hf : f ∈ percentiles) :
    ∃ v w, f l p = some v ∧ f l q = some w ∧ v ≤ w := by
  obtain ⟨i, hi, -, hfi, hquantile⟩ := exists_percentile hsorted hne hp (hpq.trans hq)
  obtain ⟨j, hj, -, hfj, hquantile'⟩ := exists_percentile hsorted hne (hp.trans_le hpq) hq
  exact ⟨l[i], l[j], hfi f hf, hfj f hf, hquantile.mono hquantile' hpq⟩

/-- The first element of a sorted list is the least, the last one the greatest. -/
theorem element_bounds {l : List ℤ} (hsorted : l.Pairwise (· ≤ ·)) {v : ℤ} (hv : v ∈ l) :
    ∃ least greatest, element l 0 = some least ∧ element l ((l.length : ℤ) - 1) = some greatest ∧
      least ≤ v ∧ v ≤ greatest := by
  obtain ⟨i, hi, rfl⟩ := List.getElem_of_mem hv
  have hlast : l.length - 1 < l.length := by omega
  have hcast : ((l.length - 1 : ℕ) : ℤ) = (l.length : ℤ) - 1 := by omega
  have hmono := List.pairwise_iff_getElem.mp hsorted
  refine ⟨l[0], l[l.length - 1], element_natCast (i := 0) (by omega), hcast ▸ element_natCast hlast,
    ?_, ?_⟩
  · rcases Nat.eq_zero_or_pos i with rfl | hpos
    · exact le_rfl
    · exact hmono 0 i (by omega) hi hpos
  · rcases Nat.eq_or_lt_of_le (Nat.le_sub_one_of_lt hi) with heq | hlt
    · simp [heq]
    · exact hmono i (l.length - 1) hi hlast hlt

/-- Each percentile is the least element that a fraction `p` of a sorted list reaches, read at
the rank itself; it grows with `p` and stays between the first and the last element. -/
theorem percentile_isQuantile {l : List ℤ} (hsorted : l.Pairwise (· ≤ ·)) (hne : l ≠ [])
    {f : List ℤ → ℚ → Option ℤ} (hf : f ∈ percentiles) :
    (∀ p : ℚ, 0 < p → p < 1 → ∃ i, ∃ hi : i < l.length,
      (i : ℤ) = ⌈p * l.length⌉ - 1 ∧ f l p = some l[i] ∧ IsQuantile p l l[i]) ∧
    (∀ p q : ℚ, 0 < p → p ≤ q → q < 1 → ∃ v w, f l p = some v ∧ f l q = some w ∧ v ≤ w) ∧
    ∃ least p50 p95 p99 greatest, element l 0 = some least ∧ f l (50 / 100) = some p50 ∧
      f l (95 / 100) = some p95 ∧ f l (99 / 100) = some p99 ∧
      element l ((l.length : ℤ) - 1) = some greatest ∧
      least ≤ p50 ∧ p50 ≤ p95 ∧ p95 ≤ p99 ∧ p99 ≤ greatest := by
  refine ⟨fun p hp hp' => ?_, fun p q hp hpq hq => percentile_mono hsorted hne hp hpq hq.le hf, ?_⟩
  · obtain ⟨i, hi, hrank, hfi, hquantile⟩ := exists_percentile hsorted hne hp hp'.le
    exact ⟨i, hi, hrank, hfi f hf, hquantile⟩
  · have hquantile {p : ℚ} (hp : 0 < p) (hp' : p ≤ 1) :
        ∃ v ∈ l, f l p = some v ∧ IsQuantile p l v := by
      obtain ⟨i, hi, -, hfi, hquantile⟩ := exists_percentile hsorted hne hp hp'
      exact ⟨l[i], List.getElem_mem hi, hfi f hf, hquantile⟩
    obtain ⟨p50, h50, hp50, hq50⟩ := hquantile (p := 50 / 100) (by norm_num) (by norm_num)
    obtain ⟨p95, -, hp95, hq95⟩ := hquantile (p := 95 / 100) (by norm_num) (by norm_num)
    obtain ⟨p99, h99, hp99, hq99⟩ := hquantile (p := 99 / 100) (by norm_num) (by norm_num)
    obtain ⟨least, greatest, hleast, hgreatest, hle, -⟩ := element_bounds hsorted h50
    obtain ⟨_, greatest', -, hgreatest', -, hge⟩ := element_bounds hsorted h99
    obtain rfl : greatest = greatest' := Option.some.inj (hgreatest.symm.trans hgreatest')
    exact ⟨least, p50, p95, p99, greatest, hleast, hp50, hp95, hp99, hgreatest, hle,
      hq50.mono hq95 (by norm_num), hq95.mono hq99 (by norm_num), hge⟩

/-- Of four latencies the second is reached by half of them. -/
theorem percentile_half_of_four :
    MiddleLayerCorpusRunner.percentile [1, 2, 2, 5] (50 / 100) = some 2 ∧
      IsQuantile (50 / 100) [1, 2, 2, 5] (2 : ℤ) := by
  have hvalue : MiddleLayerCorpusRunner.percentile [1, 2, 2, 5] (50 / 100) = some 2 := by
    decide +kernel
  obtain ⟨i, hi, -, hi', hquantile⟩ := (percentile_isQuantile (l := [1, 2, 2, 5]) (by simp) (by simp)
    (f := MiddleLayerCorpusRunner.percentile) (by simp [percentiles])).1 (50 / 100) (by norm_num)
    (by norm_num)
  rw [Option.some.inj (hi'.symm.trans hvalue)] at hquantile
  exact ⟨hvalue, hquantile⟩

/-- The figures that are compared across engines. -/
structure Summary where
  min : ℤ
  median : ℚ
  mean : ℤ
  p95 : ℤ
  p99 : ℤ
  max : ℤ
deriving DecidableEq, Repr

def sort (latencies : List ℤ) : List ℤ := latencies.insertionSort (· ≤ ·)

def mean (latencies : List ℤ) : ℚ := latencies.sum / latencies.length

/-- `writeSummary` of the Java and C++ runners: the median is the percentile at one half. -/
def rankSummary (percentile : List ℤ → ℚ → Option ℤ) (round : ℚ → ℤ) (latencies : List ℤ) :
    Option Summary := do
  let sorted := sort latencies
  let min ← element sorted 0
  let max ← element sorted ((sorted.length : ℤ) - 1)
  let median ← percentile sorted (50 / 100)
  let p95 ← percentile sorted (95 / 100)
  let p99 ← percentile sorted (99 / 100)
  some ⟨min, median, round (mean sorted), p95, p99, max⟩

/-- `statistics.median` of sorted data. -/
def statisticsMedian (data : List ℤ) : Option ℚ :=
  let n := data.length
  if n % 2 = 1 then data[n / 2]?.map fun v => (v : ℚ)
  else do
    let v ← data[n / 2 - 1]?
    let w ← data[n / 2]?
    some ((v + w) / 2)

/-- The summary that `main` of the Python runners writes. -/
def statisticsSummary (percentile : List ℤ → ℚ → Option ℤ) (latencies : List ℤ) :
    Option Summary := do
  let allLatencies := sort latencies
  let min ← element allLatencies 0
  let median ← statisticsMedian allLatencies
  let p95 ← percentile allLatencies (95 / 100)
  let p99 ← percentile allLatencies (99 / 100)
  let max ← element allLatencies ((allLatencies.length : ℤ) - 1)
  some ⟨min, median, Rounding.toEven (mean allLatencies), p95, p99, max⟩

/-- `Math.round` rounds up from one half. -/
def MiddleLayerCorpusRunner.writeSummary := rankSummary MiddleLayerCorpusRunner.percentile Rounding.up

def SunXacmlCorpusRunner.writeSummary := rankSummary SunXacmlCorpusRunner.percentile Rounding.up

/-- `std::round` rounds away from zero. -/
def CasbinCorpusRunner.writeSummary :=
  rankSummary CasbinCorpusRunner.percentileNs Rounding.awayFromZero

def RunAuthzforceBenchmark.summary := statisticsSummary RunAuthzforceBenchmark.percentile

def RunCasbinBenchmark.summary := statisticsSummary RunCasbinBenchmark.percentile

def summaries : List (List ℤ → Option Summary) :=
  [MiddleLayerCorpusRunner.writeSummary, SunXacmlCorpusRunner.writeSummary,
    CasbinCorpusRunner.writeSummary, RunAuthzforceBenchmark.summary, RunCasbinBenchmark.summary]

/-- With an even number of latencies the two in the middle are equal. -/
def MiddleAgrees (latencies : List ℤ) : Prop :=
  ∀ m, latencies.length = 2 * m → (sort latencies)[m - 1]? = (sort latencies)[m]?

/-- A mean half-way between two integers is above an odd one that is not negative. -/
def MeanAgrees (latencies : List ℤ) : Prop :=
  ∀ k : ℤ, 2 * latencies.sum = (2 * k + 1) * latencies.length → 0 ≤ k ∧ k % 2 = 1

theorem sort_pairwise (latencies : List ℤ) : (sort latencies).Pairwise (· ≤ ·) :=
  List.pairwise_insertionSort _ _

theorem sort_perm (latencies : List ℤ) : (sort latencies).Perm latencies :=
  List.perm_insertionSort _ _

theorem length_sort (latencies : List ℤ) : (sort latencies).length = latencies.length :=
  (sort_perm latencies).length_eq

theorem sort_ne_nil {latencies : List ℤ} (h : latencies ≠ []) : sort latencies ≠ [] := by
  rw [← List.length_pos_iff, length_sort]
  exact List.length_pos_iff.mpr h

theorem mean_sort (latencies : List ℤ) : mean (sort latencies) = mean latencies := by
  rw [mean, mean, length_sort, (sort_perm latencies).sum_eq]

theorem mean_eq_iff {latencies : List ℤ} (h : latencies ≠ []) (k : ℤ) :
    mean latencies = k + 1 / 2 ↔ 2 * latencies.sum = (2 * k + 1) * latencies.length := by
  have hlength : (0 : ℚ) < latencies.length := by exact_mod_cast List.length_pos_iff.mpr h
  rw [mean, div_eq_iff hlength.ne']
  constructor
  · intro hsum
    have hdouble : (2 * latencies.sum : ℚ) = (2 * k + 1) * latencies.length := by
      rw [hsum]
      ring
    exact_mod_cast hdouble
  · intro hsum
    have hdouble : (2 * latencies.sum : ℚ) = (2 * k + 1) * latencies.length := by exact_mod_cast hsum
    linarith

theorem meanAgrees_iff {latencies : List ℤ} (h : latencies ≠ []) :
    MeanAgrees latencies ↔
      Rounding.awayFromZero (mean latencies) = Rounding.up (mean latencies) ∧
        Rounding.toEven (mean latencies) = Rounding.up (mean latencies) := by
  simp only [Rounding.agree_iff, mean_eq_iff h, MeanAgrees]

/-- The index of the percentile at one half is in the middle, before it for an even length. -/
theorem half_rank {n i : ℕ} (h : (i : ℤ) = ⌈(50 / 100 : ℚ) * n⌉ - 1) : i = (n + 1) / 2 - 1 := by
  have hceil : ⌈(50 / 100 : ℚ) * n⌉ = ((n + 1) / 2 : ℕ) := by
    rw [Int.ceil_eq_iff]
    obtain ⟨m, rfl | rfl⟩ := Nat.even_or_odd' n
    · have hm : (2 * m + 1) / 2 = m := by omega
      rw [hm]
      push_cast
      constructor <;> linarith
    · have hm : (2 * m + 1 + 1) / 2 = m + 1 := by omega
      rw [hm]
      push_cast
      constructor <;> linarith
  omega

/-- The two medians exist, and are the same exactly when the middle of the list leaves no choice. -/
theorem exists_medians {latencies : List ℤ} (hne : latencies ≠ []) :
    ∃ (v : ℤ) (w : ℚ), (∀ f ∈ percentiles, f (sort latencies) (50 / 100) = some v) ∧
      statisticsMedian (sort latencies) = some w ∧ ((v : ℚ) = w ↔ MiddleAgrees latencies) := by
  obtain ⟨i, hi, hrank, hf, -⟩ := exists_percentile (sort_pairwise latencies) (sort_ne_nil hne)
    (p := 50 / 100) (by norm_num) (by norm_num)
  have hindex := half_rank hrank
  have hpos : 0 < (sort latencies).length := List.length_pos_iff.mpr (sort_ne_nil hne)
  rw [MiddleAgrees, ← length_sort]
  obtain ⟨m, hm | hm⟩ := Nat.even_or_odd' (sort latencies).length
  · obtain rfl : i = m - 1 := by omega
    have hm' : m < (sort latencies).length := by omega
    have hhalf : (sort latencies).length / 2 = m := by omega
    refine ⟨_, ((sort latencies)[m - 1] + (sort latencies)[m]) / 2, hf, ?_, ?_⟩
    · have heven : ¬ (sort latencies).length % 2 = 1 := by omega
      simp only [statisticsMedian, heven, if_false, hhalf, List.getElem?_eq_getElem hi,
        List.getElem?_eq_getElem hm']
      rfl
    · constructor
      · intro heq m' hlength
        obtain rfl : m = m' := by omega
        have hcast : ((sort latencies)[m - 1] : ℚ) = (sort latencies)[m] := by linarith
        rw [List.getElem?_eq_getElem hi, List.getElem?_eq_getElem hm']
        exact congrArg some (by exact_mod_cast hcast)
      · intro hmiddle
        have hsame := hmiddle m hm
        rw [List.getElem?_eq_getElem hi, List.getElem?_eq_getElem hm', Option.some.injEq] at hsame
        rw [hsame]
        ring
  · obtain rfl : i = m := by omega
    refine ⟨_, (sort latencies)[i], hf, ?_, ?_⟩
    · have hodd : (sort latencies).length % 2 = 1 := by omega
      have hhalf : (sort latencies).length / 2 = i := by omega
      simp only [statisticsMedian, hodd, if_true, hhalf, List.getElem?_eq_getElem hi]
      rfl
    · refine iff_of_true rfl fun m' hlength => ?_
      omega

/-- The figures of the summaries: only the median and the mean depend on the program. -/
theorem exists_figures {latencies : List ℤ} (hne : latencies ≠ []) :
    ∃ least v p95 p99 greatest, ∃ w : ℚ,
      (∀ f ∈ percentiles, ∀ round, rankSummary f round latencies =
        some ⟨least, v, round (mean latencies), p95, p99, greatest⟩) ∧
      (∀ f ∈ percentiles, statisticsSummary f latencies =
        some ⟨least, w, Rounding.toEven (mean latencies), p95, p99, greatest⟩) ∧
      ((v : ℚ) = w ↔ MiddleAgrees latencies) := by
  have hsorted := sort_pairwise latencies
  have hne' := sort_ne_nil hne
  obtain ⟨v, w, hv, hw, hmiddle⟩ := exists_medians hne
  obtain ⟨i, hi, -, h95, -⟩ := exists_percentile hsorted hne' (p := 95 / 100) (by norm_num) (by norm_num)
  obtain ⟨j, hj, -, h99, -⟩ := exists_percentile hsorted hne' (p := 99 / 100) (by norm_num) (by norm_num)
  obtain ⟨least, greatest, hleast, hgreatest, -⟩ := element_bounds hsorted (List.getElem_mem hi)
  refine ⟨least, v, (sort latencies)[i], (sort latencies)[j], greatest, w, ?_, ?_, hmiddle⟩
  · intro f hf round
    simp [rankSummary, hleast, hgreatest, hv f hf, h95 f hf, h99 f hf, mean_sort]
  · intro f hf
    simp [statisticsSummary, hleast, hgreatest, hw, h95 f hf, h99 f hf, mean_sort]

/-- The five programs write the same figures exactly when the middle of the list and the
rounding of its mean leave no choice. -/
theorem summaries_agree_iff {latencies : List ℤ} (hne : latencies ≠ []) :
    (∃ s, ∀ f ∈ summaries, f latencies = some s) ↔
      MiddleAgrees latencies ∧ MeanAgrees latencies := by
  obtain ⟨least, v, p95, p99, greatest, w, hrank, hstatistics, hmiddle⟩ := exists_figures hne
  have hjava : MiddleLayerCorpusRunner.writeSummary latencies =
      some ⟨least, v, Rounding.up (mean latencies), p95, p99, greatest⟩ :=
    hrank _ (by simp [percentiles]) _
  have hsun : SunXacmlCorpusRunner.writeSummary latencies =
      some ⟨least, v, Rounding.up (mean latencies), p95, p99, greatest⟩ :=
    hrank _ (by simp [percentiles]) _
  have hcpp : CasbinCorpusRunner.writeSummary latencies =
      some ⟨least, v, Rounding.awayFromZero (mean latencies), p95, p99, greatest⟩ :=
    hrank _ (by simp [percentiles]) _
  have hauthz : RunAuthzforceBenchmark.summary latencies =
      some ⟨least, w, Rounding.toEven (mean latencies), p95, p99, greatest⟩ :=
    hstatistics _ (by simp [percentiles])
  have hcasbin : RunCasbinBenchmark.summary latencies =
      some ⟨least, w, Rounding.toEven (mean latencies), p95, p99, greatest⟩ :=
    hstatistics _ (by simp [percentiles])
  rw [← hmiddle, meanAgrees_iff hne]
  simp only [summaries, List.mem_cons, List.not_mem_nil, or_false, forall_eq_or_imp, forall_eq, hjava,
    hsun, hcpp, hauthz, hcasbin, Option.some.injEq]
  constructor
  · rintro ⟨s, rfl, -, haway, heven, -⟩
    simp only [Summary.mk.injEq] at haway heven
    exact ⟨heven.2.1.symm, haway.2.2.1, heven.2.2.1⟩
  · rintro ⟨rfl, haway, heven⟩
    exact ⟨_, rfl, rfl, by rw [haway], by rw [heven], by rw [heven]⟩

/-- Three latencies have one in the middle and a whole mean. -/
theorem summaries_agree_on_three :
    ([3, 1, 2] : List ℤ) ≠ [] ∧ ∃ s, ∀ f ∈ summaries, f [3, 1, 2] = some s := by
  refine ⟨by simp, (summaries_agree_iff (by simp)).mpr ⟨?_, ?_⟩⟩
  · intro m hm
    simp only [List.length_cons, List.length_nil] at hm
    omega
  · intro k hk
    simp only [List.sum_cons, List.sum_nil, List.length_cons, List.length_nil] at hk
    push_cast at hk
    omega

/-- Of two latencies the compiled runners report the smaller as median, the Python runners the
value between them. -/
theorem medians_of_two_differ :
    MiddleLayerCorpusRunner.writeSummary [2, 1] = some ⟨1, 1, 2, 2, 2, 2⟩ ∧
      RunCasbinBenchmark.summary [2, 1] = some ⟨1, 3 / 2, 2, 2, 2, 2⟩ ∧
      ¬ ∃ s, ∀ f ∈ summaries, f [2, 1] = some s := by
  have hjava : MiddleLayerCorpusRunner.writeSummary [2, 1] = some ⟨1, 1, 2, 2, 2, 2⟩ := by
    decide +kernel
  have hpython : RunCasbinBenchmark.summary [2, 1] = some ⟨1, 3 / 2, 2, 2, 2, 2⟩ := by
    decide +kernel
  refine ⟨hjava, hpython, ?_⟩
  rintro ⟨s, hs⟩
  have hsame := (hs MiddleLayerCorpusRunner.writeSummary (by simp [summaries])).trans
    (hs RunCasbinBenchmark.summary (by simp [summaries])).symm
  rw [hjava, hpython] at hsame
  norm_num at hsame

end AbacMiddleLayer.Harness
