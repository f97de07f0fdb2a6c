import AbacMiddleLayer.Harness.Latency
import AbacMiddleLayer.Interleave
import AbacMiddleLayer.Text
import Mathlib.Data.Int.CardIntervalMod

/-! # The worker pools of the benchmark runners

In `runBenchmark` of the two Java runners and of the C++ runner, and in `main` of
`run-authzforce-benchmark.py`, each of `concurrency` workers calls the engine `measured` times,
round-robin over the scenarios, and reads a clock before and behind each call. A repetition ends
when all workers are done; their rows are then collected worker by worker. The workers share the
clock and the scenarios and write into results of their own.
-/
namespace AbacMiddleLayer.Harness
open Interleave

/-- A reading of the clock before or behind a call of the engine. -/
inductive Tick where
  | start (t : ℤ)
  | stop (t : ℤ)
deriving DecidableEq, Repr

def Tick.time : Tick → ℤ
  | .start t => t
  | .stop t => t

/-- A latency, with the columns of its raw line. -/
structure Row where
  worker : ℕ
  iteration : ℕ
  scenarioId : Text
  latencyNs : ℤ
deriving DecidableEq, Repr

/-- The rows of a worker so far, whose number is the loop counter, and the start of the call that
is under way. -/
structure Worker where
  rows : List Row := []
  start : Option ℤ := none
deriving DecidableEq, Repr

structure Pool where
  scenarioIds : List Text
  concurrency : ℕ
  measured : ℕ

/-- A repetition: the clock around it, and the clock readings of the workers in between. -/
structure Repetition where
  start : ℤ
  schedule : List (ℕ × Tick)
  stop : ℤ

namespace Pool
variable (P : Pool)

/-- The scenario of a turn; without scenarios the remainder is an exception. -/
def scenario? (i : ℕ) : Option Text := P.scenarioIds[i % P.scenarioIds.length]?

/-- Half a turn of the loop of worker `w`. -/
def workerStep (w : ℕ) (s : Worker) : Tick → Option Worker
  | .start t =>
    if w < P.concurrency ∧ s.rows.length < P.measured ∧ s.start = none then
      (P.scenario? s.rows.length).map fun _ => { s with start := some t }
    else none
  | .stop t =>
    s.start.bind fun t₀ => (P.scenario? s.rows.length).map fun sid =>
      { rows := s.rows ++ [⟨w, s.rows.length, sid, t - t₀⟩], start := none }

def Done (s : Worker) : Prop := s.rows.length = P.measured ∧ s.start = none

instance (s : Worker) : Decidable (P.Done s) := inferInstanceAs (Decidable (_ ∧ _))

/-- The rows of a repetition, when the schedule brings every worker to the end of its loop. -/
def repetition (schedule : List (ℕ × Tick)) : Option (List Row) :=
  (run P.workerStep (fun _ => {}) schedule).bind fun s =>
    if ∀ w < P.concurrency, P.Done (s w) then
      some ((List.range P.concurrency).flatMap fun w => (s w).rows)
    else none

/-- The loop over the repetitions: the rows and the total of the wall clock times. -/
def repeatLoop : List Row → ℤ → List Repetition → Option (List Row × ℤ)
  | rows, wall, [] => some (rows, wall)
  | rows, wall, r :: rs =>
    (P.repetition r.schedule).bind fun new => repeatLoop (rows ++ new) (wall + (r.stop - r.start)) rs

/-- The measured part of a run. Without workers there is none: the constructors of the Java runners'
thread pools refuse to have no thread. The C++ runner starts its threads one by one and is modelled
for one or more of them. -/
def runBenchmark (repetitions : List Repetition) : Option (List Row × ℤ) :=
  if P.concurrency = 0 then none else P.repeatLoop [] 0 repetitions

end Pool

/-- Calls per second. -/
def aggregateThroughput (rows : List Row) (wallNs : ℤ) : ℚ := rows.length / (wallNs / 10 ^ 9)

/-- The starts and ends of calls, from the readings of the clock. -/
def calls : List Tick → List (ℤ × ℤ)
  | .start s :: .stop e :: ts => (s, e) :: calls ts
  | _ => []

def ticks (cs : List (ℤ × ℤ)) : List Tick := cs.flatMap fun c => [.start c.1, .stop c.2]

theorem ticks_cons (c : ℤ × ℤ) (cs : List (ℤ × ℤ)) :
    ticks (c :: cs) = .start c.1 :: .stop c.2 :: ticks cs := rfl

@[simp] theorem calls_ticks (cs : List (ℤ × ℤ)) : calls (ticks cs) = cs := by
  induction cs with
  | nil => rfl
  | cons c cs ih => rw [ticks_cons, calls, ih]

namespace Pool
variable (P : Pool)

def scenarioId (i : ℕ) : Text := (P.scenario? i).getD []

/-- The rows of a worker from the turn `i` on. -/
def rowsFrom (w : ℕ) : ℕ → List (ℤ × ℤ) → List Row
  | _, [] => []
  | i, c :: cs => ⟨w, i, P.scenarioId i, c.2 - c.1⟩ :: rowsFrom w (i + 1) cs

/-- Each worker of the pool makes all of its calls, one after the other. -/
structure Complete (schedule : List (ℕ × Tick)) : Prop where
  workers : ∀ a ∈ schedule, a.1 < P.concurrency
  turns : ∀ w < P.concurrency, actions w schedule = ticks (calls (actions w schedule))
  count : ∀ w < P.concurrency, (calls (actions w schedule)).length = P.measured

instance (schedule : List (ℕ × Tick)) : Decidable (P.Complete schedule) :=
  decidable_of_iff
    ((∀ a ∈ schedule, a.1 < P.concurrency) ∧
      (∀ w < P.concurrency, actions w schedule = ticks (calls (actions w schedule))) ∧
        ∀ w < P.concurrency, (calls (actions w schedule)).length = P.measured)
    ⟨fun h => ⟨h.1, h.2.1, h.2.2⟩, fun h => ⟨h.workers, h.turns, h.count⟩⟩

/-- The rows of a repetition, from what each worker did by itself. -/
def collected (schedule : List (ℕ × Tick)) : List Row :=
  (List.range P.concurrency).flatMap fun w => P.rowsFrom w 0 (calls (actions w schedule))

variable {P} {w : ℕ}

theorem scenario?_eq (hids : P.scenarioIds ≠ []) (i : ℕ) : P.scenario? i = some (P.scenarioId i) := by
  have hlt : i % P.scenarioIds.length < P.scenarioIds.length :=
    Nat.mod_lt _ (List.length_pos_iff.mpr hids)
  rw [scenarioId, scenario?, List.getElem?_eq_getElem hlt]
  rfl

theorem length_rowsFrom (w i : ℕ) (cs : List (ℤ × ℤ)) : (P.rowsFrom w i cs).length = cs.length := by
  induction cs generalizing i with
  | nil => rfl
  | cons c cs ih => rw [rowsFrom, List.length_cons, List.length_cons, ih]

section Worker
variable (hids : P.scenarioIds ≠ []) (hw : w < P.concurrency)
include hids hw

/-- A turn of the loop adds a row. -/
theorem runOne_turn (rows : List Row) (hlt : rows.length < P.measured) (c : ℤ × ℤ) (ts : List Tick) :
    runOne (P.workerStep w) ⟨rows, none⟩ (.start c.1 :: .stop c.2 :: ts) =
      runOne (P.workerStep w)
        ⟨rows ++ [⟨w, rows.length, P.scenarioId rows.length, c.2 - c.1⟩], none⟩ ts := by
  have hstart : P.workerStep w ⟨rows, none⟩ (.start c.1) = some ⟨rows, some c.1⟩ := by
    rw [workerStep, if_pos ⟨hw, hlt, rfl⟩, scenario?_eq hids]
    rfl
  rw [runOne, hstart, Option.bind_some, runOne, workerStep, scenario?_eq hids]
  rfl

theorem runOne_ticks (rows : List Row) (cs : List (ℤ × ℤ))
    (hle : rows.length + cs.length ≤ P.measured) :
    runOne (P.workerStep w) ⟨rows, none⟩ (ticks cs) =
      some ⟨rows ++ P.rowsFrom w rows.length cs, none⟩ := by
  induction cs generalizing rows with
  | nil => simp [ticks, runOne, rowsFrom]
  | cons c cs ih =>
    rw [List.length_cons] at hle
    rw [ticks_cons, runOne_turn hids hw rows (by omega), ih]
    · simp [rowsFrom]
    · rw [List.length_append, List.length_singleton]
      omega

/-- A worker that is at no call has gone through whole turns. -/
theorem ticks_of_runOne {rows rows' : List Row} {ts : List Tick}
    (h : runOne (P.workerStep w) ⟨rows, none⟩ ts = some ⟨rows', none⟩) :
    ts = ticks (calls ts) ∧ rows' = rows ++ P.rowsFrom w rows.length (calls ts) := by
  induction ts using List.twoStepInduction generalizing rows with
  | nil =>
    cases h
    simp [ticks, calls, rowsFrom]
  | singleton t =>
    cases t with
    | start t =>
      obtain ⟨s, hs, hend⟩ := Option.bind_eq_some_iff.mp h
      rw [workerStep] at hs
      split_ifs at hs
      obtain ⟨sid, -, rfl⟩ := Option.map_eq_some_iff.mp hs
      cases hend
    | stop t => cases h
  | cons_cons t u ts ih _ =>
    cases t with
    | stop t => cases h
    | start s =>
      have hlt : rows.length < P.measured := by
        by_contra hge
        obtain ⟨s', hs, -⟩ := Option.bind_eq_some_iff.mp h
        rw [workerStep, if_neg fun hif => hge hif.2.1] at hs
        cases hs
      cases u with
      | start e =>
        obtain ⟨s', hs, hrest⟩ := Option.bind_eq_some_iff.mp h
        rw [workerStep, if_pos ⟨hw, hlt, rfl⟩, scenario?_eq hids] at hs
        cases hs
        obtain ⟨s'', hs'', -⟩ := Option.bind_eq_some_iff.mp hrest
        rw [workerStep, if_neg (by simp)] at hs''
        cases hs''
      | stop e =>
        rw [runOne_turn hids hw rows hlt (s, e)] at h
        obtain ⟨hts, hrows⟩ := ih h
        rw [calls, ticks_cons, ← hts]
        refine ⟨rfl, ?_⟩
        rw [hrows, rowsFrom]
        simp

end Worker

theorem runOne_of_le (hw : P.concurrency ≤ w) {s : Worker} {ts : List Tick}
    (h : runOne (P.workerStep w) {} ts = some s) : ts = [] := by
  cases ts with
  | nil => rfl
  | cons t ts =>
    cases t with
    | start t =>
      obtain ⟨s', hs, -⟩ := Option.bind_eq_some_iff.mp h
      rw [workerStep, if_neg fun hif => absurd hif.1 (by omega)] at hs
      cases hs
    | stop t => cases h

theorem Complete.actions_eq_nil {schedule : List (ℕ × Tick)} (h : P.Complete schedule)
    (hw : P.concurrency ≤ w) : actions w schedule = [] := by
  rw [actions, List.filterMap_eq_nil_iff]
  intro a ha
  have hlt := h.workers a ha
  rw [if_neg (by omega)]

/-- Whatever the order in which the workers take their turns, a repetition has the rows that each
of them makes by itself. -/
theorem repetition_eq (hids : P.scenarioIds ≠ []) (schedule : List (ℕ × Tick)) :
    P.repetition schedule =
      if P.Complete schedule then some (P.collected schedule) else none := by
  split_ifs with hcomplete
  · have hrun : run P.workerStep (fun _ => {}) schedule =
        some fun w => ⟨P.rowsFrom w 0 (calls (actions w schedule)), none⟩ := by
      rw [run_eq_some_iff]
      intro w
      by_cases hw : w < P.concurrency
      · have hcount := hcomplete.count w hw
        rw [hcomplete.turns w hw, calls_ticks]
        exact runOne_ticks hids hw [] _ (by simp [hcount])
      · rw [hcomplete.actions_eq_nil (by omega)]
        rfl
    rw [repetition, hrun, Option.bind_some, if_pos]
    · rfl
    · intro w hw
      exact ⟨by rw [length_rowsFrom, hcomplete.count w hw], rfl⟩
  · rw [repetition]
    cases hrun : run P.workerStep (fun _ => {}) schedule with
    | none => rfl
    | some s =>
      rw [Option.bind_some, if_neg]
      intro hdone
      have hlocal := run_eq_some_iff.mp hrun
      have hturns : ∀ w < P.concurrency, actions w schedule = ticks (calls (actions w schedule)) ∧
          (s w).rows = P.rowsFrom w 0 (calls (actions w schedule)) := by
        intro w hw
        have hone := hlocal w
        have hs : s w = ⟨(s w).rows, none⟩ := by rw [← (hdone w hw).2]
        rw [hs] at hone
        exact ticks_of_runOne hids hw hone
      refine hcomplete ⟨?_, fun w hw => (hturns w hw).1, ?_⟩
      · rintro ⟨w, t⟩ ha
        by_contra hw
        have hnil := runOne_of_le (by simpa using hw) (hlocal w)
        have hmem : t ∈ actions w schedule := List.mem_filterMap.mpr ⟨(w, t), ha, by simp⟩
        rw [hnil] at hmem
        cases hmem
      · intro w hw
        rw [← length_rowsFrom (P := P) w 0, ← (hturns w hw).2]
        exact (hdone w hw).1

/-- Two workers whose calls overlap. -/
def overlapping : Repetition where
  start := 0
  schedule := [(0, .start 1), (1, .start 2), (1, .stop 5), (0, .stop 9)]
  stop := 10

def twoWorkers : Pool := ⟨["S1".toList, "S2".toList], 2, 1⟩

def wallNs (rs : List Repetition) : ℤ := (rs.map fun r => r.stop - r.start).sum

theorem repeatLoop_eq (hids : P.scenarioIds ≠ []) (rows : List Row) (wall : ℤ)
    (rs : List Repetition) :
    P.repeatLoop rows wall rs =
      if ∀ r ∈ rs, P.Complete r.schedule then
        some (rows ++ rs.flatMap fun r => P.collected r.schedule, wall + wallNs rs)
      else none := by
  induction rs generalizing rows wall with
  | nil => simp [repeatLoop, wallNs]
  | cons r rs ih =>
    rw [repeatLoop, repetition_eq hids]
    by_cases h : P.Complete r.schedule
    · rw [if_pos h, Option.bind_some, ih]
      simp [h, wallNs, add_assoc]
    · simp [h]

theorem runBenchmark_eq (hids : P.scenarioIds ≠ []) (hpos : 0 < P.concurrency)
    (rs : List Repetition) :
    P.runBenchmark rs =
      if ∀ r ∈ rs, P.Complete r.schedule then
        some (rs.flatMap fun r => P.collected r.schedule, wallNs rs)
      else none := by
  rw [runBenchmark, if_neg (by omega), repeatLoop_eq hids, List.nil_append, zero_add]

theorem complete_of_runBenchmark (hids : P.scenarioIds ≠ []) {rs : List Repetition}
    {rows : List Row} {wall : ℤ} (h : P.runBenchmark rs = some (rows, wall)) :
    (∀ r ∈ rs, P.Complete r.schedule) ∧ rows = (rs.flatMap fun r => P.collected r.schedule) ∧
      wall = wallNs rs := by
  have hpos : 0 < P.concurrency := by
    by_contra hzero
    rw [runBenchmark, if_pos (by omega)] at h
    cases h
  rw [runBenchmark_eq hids hpos] at h
  split_ifs at h with hcomplete
  cases h
  exact ⟨hcomplete, rfl, rfl⟩

/-- Where an element stands in blocks of one length. -/
theorem getElem?_flatMap_block {α β : Type*} {f : α → List β} {m : ℕ} {l : List α}
    (hf : ∀ a ∈ l, (f a).length = m) (k : ℕ) {i : ℕ} (hi : i < m) :
    (l.flatMap f)[k * m + i]? = l[k]?.bind fun a => (f a)[i]? := by
  induction l generalizing k with
  | nil => rfl
  | cons a l ih =>
    have hlength := hf a List.mem_cons_self
    rw [List.flatMap_cons]
    cases k with
    | zero =>
      rw [zero_mul, zero_add, List.getElem?_append_left (by omega)]
      rfl
    | succ k =>
      rw [List.getElem?_append_right (by rw [hlength]; nlinarith), hlength]
      have hsub : (k + 1) * m + i - m = k * m + i := by
        rw [Nat.succ_mul]
        omega
      rw [hsub, ih fun b hb => hf b (List.mem_cons_of_mem a hb)]
      rfl

theorem countP_flatMap_block {α β : Type*} {f : α → List β} {p : β → Bool} {m : ℕ} {l : List α}
    (hf : ∀ a ∈ l, (f a).countP p = m) : (l.flatMap f).countP p = l.length * m := by
  have hmap : l.map (List.countP p ∘ f) = l.map fun _ => m := List.map_congr_left hf
  rw [List.countP_flatMap, hmap, List.map_const', List.sum_replicate, smul_eq_mul]

theorem length_flatMap_block {α β : Type*} {f : α → List β} {m : ℕ} {l : List α}
    (hf : ∀ a ∈ l, (f a).length = m) : (l.flatMap f).length = l.length * m := by
  have hcount := countP_flatMap_block (p := fun _ => true) (f := f) (by simpa using hf)
  simpa using hcount

theorem getElem?_rowsFrom (w i k : ℕ) (cs : List (ℤ × ℤ)) :
    (P.rowsFrom w i cs)[k]? =
      cs[k]?.map fun c => ⟨w, i + k, P.scenarioId (i + k), c.2 - c.1⟩ := by
  induction cs generalizing i k with
  | nil => rfl
  | cons c cs ih =>
    rw [rowsFrom]
    cases k with
    | zero => rfl
    | succ k =>
      rw [List.getElem?_cons_succ, List.getElem?_cons_succ, ih, Nat.add_assoc, Nat.add_comm 1]

theorem Complete.length_rowsFrom {schedule : List (ℕ × Tick)} (h : P.Complete schedule) :
    ∀ w ∈ List.range P.concurrency,
      (P.rowsFrom w 0 (calls (actions w schedule))).length = P.measured := by
  intro w hw
  rw [Pool.length_rowsFrom, h.count w (List.mem_range.mp hw)]

theorem Complete.length_collected {schedule : List (ℕ × Tick)} (h : P.Complete schedule) :
    (P.collected schedule).length = P.concurrency * P.measured := by
  rw [collected, length_flatMap_block h.length_rowsFrom, List.length_range]

/-- Whatever the order in which the workers take their turns, a run has its rows by repetition,
then by worker, then by turn, and each row has the scenario of its turn and the latency of the
call that its worker made there. A run fails when some worker does not end its loop. -/
theorem runBenchmark_rows (hids : P.scenarioIds ≠ []) (hpos : 0 < P.concurrency)
    (rs : List Repetition) :
    ((P.runBenchmark rs).isSome ↔ ∀ r ∈ rs, P.Complete r.schedule) ∧
    ∀ rows wall, P.runBenchmark rs = some (rows, wall) →
      wall = wallNs rs ∧ rows.length = rs.length * (P.concurrency * P.measured) ∧
      ∀ (k : ℕ) (r : Repetition), rs[k]? = some r → ∀ w < P.concurrency, ∀ i < P.measured,
        ∃ c sid, (calls (actions w r.schedule))[i]? = some c ∧
          P.scenarioIds[i % P.scenarioIds.length]? = some sid ∧
          rows[k * (P.concurrency * P.measured) + (w * P.measured + i)]? =
            some ⟨w, i, sid, c.2 - c.1⟩ := by
  constructor
  · rw [runBenchmark_eq hids hpos]
    split_ifs with h
    · exact iff_of_true rfl h
    · exact iff_of_false Bool.false_ne_true h
  · intro rows wall hrun
    obtain ⟨hcomplete, rfl, rfl⟩ := complete_of_runBenchmark hids hrun
    have hblocks : ∀ r ∈ rs, (P.collected r.schedule).length = P.concurrency * P.measured :=
      fun r hr => (hcomplete r hr).length_collected
    refine ⟨rfl, length_flatMap_block hblocks, ?_⟩
    intro k r hr w hw i hi
    have hr' := hcomplete r (List.mem_of_getElem? hr)
    have hcall : i < (calls (actions w r.schedule)).length := by rwa [hr'.count w hw]
    have hblock : w * P.measured + i < P.concurrency * P.measured := by nlinarith
    refine ⟨_, _, List.getElem?_eq_getElem hcall, scenario?_eq hids i, ?_⟩
    rw [getElem?_flatMap_block hblocks k hblock, hr, Option.bind_some, collected,
      getElem?_flatMap_block hr'.length_rowsFrom w hi, List.getElem?_range hw, Option.bind_some,
      getElem?_rowsFrom, List.getElem?_eq_getElem hcall, Nat.zero_add]
    rfl

/-- Two calls of each of two workers; the second worker ends its first call within that of the first
one, and starts its second call before it. -/
def interleaved : Repetition where
  start := 0
  schedule := [(0, .start 1), (1, .start 2), (1, .stop 5), (0, .stop 9), (1, .start 10),
    (0, .start 11), (1, .stop 14), (0, .stop 20)]
  stop := 21

def interleavedRows : List Row :=
  [⟨0, 0, "S1".toList, 8⟩, ⟨0, 1, "S2".toList, 9⟩, ⟨1, 0, "S1".toList, 3⟩, ⟨1, 1, "S2".toList, 4⟩]

def twoCalls : Pool := ⟨["S1".toList, "S2".toList], 2, 2⟩

theorem runBenchmark_rows_overlapping :
    (∀ r ∈ [interleaved, interleaved], twoCalls.Complete r.schedule) ∧
    twoCalls.runBenchmark [interleaved, interleaved] =
      some (interleavedRows ++ interleavedRows, 42) ∧
    wallNs [interleaved, interleaved] = 42 ∧ (interleavedRows ++ interleavedRows).length = 2 * (2 * 2) ∧
    ∃ c sid, (calls (actions 1 interleaved.schedule))[1]? = some c ∧
      twoCalls.scenarioIds[1 % twoCalls.scenarioIds.length]? = some sid ∧
      (interleavedRows ++ interleavedRows)[1 * (2 * 2) + (1 * 2 + 1)]? = some ⟨1, 1, sid, c.2 - c.1⟩ := by
  have hrun : twoCalls.runBenchmark [interleaved, interleaved] =
      some (interleavedRows ++ interleavedRows, 42) := by decide
  obtain ⟨hsome, hrows⟩ := runBenchmark_rows (P := twoCalls) (by decide) (by decide)
    [interleaved, interleaved]
  obtain ⟨hwall, hlength, hrow⟩ := hrows _ _ hrun
  exact ⟨hsome.mp (by rw [hrun]; rfl), hrun, hwall.symm, hlength,
    hrow 1 interleaved rfl 1 (by decide) 1 (by decide)⟩

end Pool

/-- The readings of the clock in a repetition, as they were made. -/
def Repetition.times (r : Repetition) : List ℤ :=
  r.start :: (r.schedule.map fun a => a.2.time) ++ [r.stop]

/-- The clock does not go back. -/
def Repetition.Monotone (r : Repetition) : Prop := r.times.Pairwise (· ≤ ·)

instance (r : Repetition) : Decidable r.Monotone := inferInstanceAs (Decidable (r.times.Pairwise _))

/-- The calls of one worker do not overlap. -/
theorem sum_calls_le {cs : List (ℤ × ℤ)} {start stop : ℤ}
    (h : (start :: (ticks cs).map Tick.time ++ [stop]).Pairwise (· ≤ ·)) :
    (cs.map fun c => c.2 - c.1).sum ≤ stop - start := by
  induction cs generalizing start with
  | nil =>
    have hle : start ≤ stop := by simpa [ticks] using h
    simpa using hle
  | cons c cs ih =>
    rw [ticks_cons, List.map_cons, List.map_cons, List.cons_append, List.cons_append,
      List.cons_append] at h
    have hstart : start ≤ c.1 := List.rel_of_pairwise_cons h List.mem_cons_self
    have hrest := ih (List.Pairwise.of_cons (List.Pairwise.of_cons h))
    rw [List.map_cons, List.sum_cons]
    change (c.2 - c.1) + _ ≤ _
    change _ ≤ stop - c.2 at hrest
    omega

theorem Repetition.Monotone.actions {r : Repetition} (h : r.Monotone) (w : ℕ) :
    (r.start :: (Interleave.actions w r.schedule).map Tick.time ++ [r.stop]).Pairwise (· ≤ ·) := by
  apply List.Pairwise.sublist _ h
  apply List.Sublist.cons_cons
  apply List.Sublist.append_right
  have hsub := (actions_sublist w r.schedule).map Tick.time
  rwa [List.map_map] at hsub

namespace Pool
variable {P : Pool}

theorem map_latencyNs_rowsFrom (w i : ℕ) (cs : List (ℤ × ℤ)) :
    (P.rowsFrom w i cs).map Row.latencyNs = cs.map fun c => c.2 - c.1 := by
  induction cs generalizing i with
  | nil => rfl
  | cons c cs ih => rw [rowsFrom, List.map_cons, List.map_cons, ih]

/-- In a repetition each worker is busy for the time of the repetition at most. -/
theorem Complete.sum_collected_le {r : Repetition} (h : P.Complete r.schedule) (hr : r.Monotone) :
    ((P.collected r.schedule).map Row.latencyNs).sum ≤ P.concurrency * (r.stop - r.start) := by
  have hworker : ∀ w ∈ List.range P.concurrency,
      ((P.rowsFrom w 0 (calls (actions w r.schedule))).map Row.latencyNs).sum ≤ r.stop - r.start := by
    intro w hw
    rw [map_latencyNs_rowsFrom]
    apply sum_calls_le
    rw [← h.turns w (List.mem_range.mp hw)]
    exact hr.actions w
  have hsum := List.sum_le_card_nsmul ((List.range P.concurrency).map fun w =>
    ((P.rowsFrom w 0 (calls (actions w r.schedule))).map Row.latencyNs).sum) (r.stop - r.start)
    (by simpa using hworker)
  rw [List.length_map, List.length_range, nsmul_eq_mul] at hsum
  rw [collected, List.map_flatMap, List.flatMap_def, List.sum_flatten, List.map_map]
  exact hsum

theorem sum_latencies_le {rs : List Repetition} (hcomplete : ∀ r ∈ rs, P.Complete r.schedule)
    (hclock : ∀ r ∈ rs, r.Monotone) :
    ((rs.flatMap fun r => P.collected r.schedule).map Row.latencyNs).sum ≤
      P.concurrency * wallNs rs := by
  induction rs with
  | nil => simp [wallNs]
  | cons r rs ih =>
    have hhead := (hcomplete r List.mem_cons_self).sum_collected_le (hclock r List.mem_cons_self)
    have htail := ih (fun r hr => hcomplete r (List.mem_cons_of_mem _ hr))
      (fun r hr => hclock r (List.mem_cons_of_mem _ hr))
    rw [List.flatMap_cons, List.map_append, List.sum_append]
    rw [wallNs, List.map_cons, List.sum_cons, mul_add]
    exact add_le_add hhead htail

/-- The exact mean of the latencies and the throughput fit together: their product, the calls under
way at a time, is not above the number of workers. A summary has the mean rounded, which can be
above it by the rounding. -/
theorem mean_mul_aggregateThroughput_le (hids : P.scenarioIds ≠ []) (rs : List Repetition)
    (hclock : ∀ r ∈ rs, r.Monotone) {rows : List Row} {wall : ℤ}
    (h : P.runBenchmark rs = some (rows, wall)) (hwall : 0 < wall) :
    mean (rows.map Row.latencyNs) / 10 ^ 9 * aggregateThroughput rows wall ≤ P.concurrency := by
  obtain ⟨hcomplete, rfl, rfl⟩ := complete_of_runBenchmark hids h
  have hsum := sum_latencies_le hcomplete hclock
  generalize (rs.flatMap fun r => P.collected r.schedule) = rows at hsum
  have hwall' : (0 : ℚ) < wallNs rs := by exact_mod_cast hwall
  rw [mean, aggregateThroughput, List.length_map]
  rcases Nat.eq_zero_or_pos rows.length with hzero | hlength
  · simp [hzero]
  · have hlength' : (0 : ℚ) < rows.length := by exact_mod_cast hlength
    have hproduct : ((rows.map Row.latencyNs).sum : ℚ) / rows.length / 10 ^ 9 *
        (rows.length / (wallNs rs / 10 ^ 9)) = (rows.map Row.latencyNs).sum / wallNs rs := by
      field_simp
    rw [hproduct, div_le_iff₀ hwall']
    exact_mod_cast hsum

theorem mean_mul_aggregateThroughput_overlapping :
    mean (([⟨0, 0, "S1".toList, 8⟩, ⟨1, 0, "S1".toList, 3⟩] : List Row).map Row.latencyNs) / 10 ^ 9 *
      aggregateThroughput [⟨0, 0, "S1".toList, 8⟩, ⟨1, 0, "S1".toList, 3⟩] 10 ≤
        twoWorkers.concurrency :=
  mean_mul_aggregateThroughput_le (by decide) [overlapping] (by decide) (by decide) (by decide)

theorem map_scenarioId_rowsFrom (w i : ℕ) (cs : List (ℤ × ℤ)) :
    (P.rowsFrom w i cs).map Row.scenarioId = (List.range' i cs.length).map P.scenarioId := by
  induction cs generalizing i with
  | nil => rfl
  | cons c cs ih => rw [rowsFrom, List.map_cons, ih, List.length_cons, List.range'_succ, List.map_cons]

theorem countP_range (p : ℕ → Prop) [DecidablePred p] (m : ℕ) :
    (List.range m).countP (fun i => decide (p i)) = m.count p := by
  induction m with
  | zero => rfl
  | succ m ih => simp [List.range_succ, List.countP_append, ih, Nat.count_succ, List.countP_singleton]

section Fair
variable (hnodup : P.scenarioIds.Nodup) {k : ℕ} (hk : k < P.scenarioIds.length)
include hnodup

theorem scenarioId_eq_iff (i : ℕ) :
    P.scenarioId i = P.scenarioIds[k] ↔ i ≡ k [MOD P.scenarioIds.length] := by
  have hlt : i % P.scenarioIds.length < P.scenarioIds.length := Nat.mod_lt _ (by omega)
  rw [scenarioId, scenario?, List.getElem?_eq_getElem hlt, Option.getD_some,
    hnodup.getElem_inj_iff, Nat.ModEq, Nat.mod_eq_of_lt hk]

theorem countP_rowsFrom (w : ℕ) (cs : List (ℤ × ℤ)) :
    (P.rowsFrom w 0 cs).countP (fun r => r.scenarioId = P.scenarioIds[k]) =
      cs.length / P.scenarioIds.length + if k < cs.length % P.scenarioIds.length then 1 else 0 := by
  have hmap : (P.rowsFrom w 0 cs).countP (fun r => r.scenarioId = P.scenarioIds[k]) =
      ((P.rowsFrom w 0 cs).map Row.scenarioId).countP (· = P.scenarioIds[k]) := by
    rw [List.countP_map]
    rfl
  have hcount := Nat.count_modEq_card cs.length (by omega : 0 < P.scenarioIds.length) k
  rw [Nat.mod_eq_of_lt hk] at hcount
  rw [hmap, map_scenarioId_rowsFrom, ← List.range_eq_range', List.countP_map, ← hcount,
    ← countP_range]
  apply List.countP_congr
  intro i _
  simp [scenarioId_eq_iff hnodup hk]

/-- Each scenario has its share of the rows: per worker and repetition the calls are dealt out
evenly, and the first scenarios of the list get the rest. -/
theorem countP_runBenchmark (rs : List Repetition) {rows : List Row} (wall : ℤ)
    (h : P.runBenchmark rs = some (rows, wall)) :
    rows.countP (fun r => r.scenarioId = P.scenarioIds[k]) =
      rs.length * (P.concurrency * (P.measured / P.scenarioIds.length +
        if k < P.measured % P.scenarioIds.length then 1 else 0)) := by
  have hids : P.scenarioIds ≠ [] := List.ne_nil_of_length_pos (by omega)
  obtain ⟨hcomplete, rfl, -⟩ := complete_of_runBenchmark hids h
  apply countP_flatMap_block
  intro r hr
  have hworkers : ∀ w ∈ List.range P.concurrency,
      (P.rowsFrom w 0 (calls (actions w r.schedule))).countP
        (fun r => r.scenarioId = P.scenarioIds[k]) =
      P.measured / P.scenarioIds.length +
        if k < P.measured % P.scenarioIds.length then 1 else 0 := by
    intro w hw
    rw [countP_rowsFrom hnodup hk, (hcomplete r hr).count w (List.mem_range.mp hw)]
  rw [collected, countP_flatMap_block hworkers, List.length_range]

end Fair

theorem countP_runBenchmark_overlapping :
    ([⟨0, 0, "S1".toList, 8⟩, ⟨1, 0, "S1".toList, 3⟩] : List Row).countP
      (fun r => r.scenarioId = twoWorkers.scenarioIds[0]) = 1 * (2 * (1 / 2 + 1)) :=
  countP_runBenchmark (P := twoWorkers) (k := 0) (by decide) (by decide) [overlapping] 10 (by decide)

end Pool
end AbacMiddleLayer.Harness
