import AbacMiddleLayer.Corpus.Scenario
import AbacMiddleLayer.Harness.Manifest
import AbacMiddleLayer.Interleave
import AbacMiddleLayer.Json.Lines

/-! # The worker processes of the Casbin benchmark

`run-casbin-benchmark.py` starts a process of the C++ runner for each worker of each repetition.
A process writes its latencies to a file of its own in a directory that all of them share, and
`run_worker` reads the file when its process has ended, while other processes may be anywhere in
their work. The C++ runner ends lines at line feeds; Python ends them at carriage returns too.
-/
namespace AbacMiddleLayer.Harness
open Corpus Decimal Interleave KeyValue TextLines Tsv

/-- A call as a worker process writes it. -/
structure Sample where
  iteration : ℤ
  scenarioId : Text
  latencyNs : ℤ
deriving DecidableEq, Repr

def Sample.line (s : Sample) : Text :=
  join '\t' [decimal s.iteration, s.scenarioId, decimal s.latencyNs]

def workerHeader : Text := "iteration\tscenario_id\tlatency_ns".toList

def workerFile (samples : List Sample) : Text := unlines (workerHeader :: samples.map Sample.line)

/-- The id of the scenario of a turn. A file without a header or a scenario, and a row that is too
short to have an id, end the process. -/
def workerScenarioId (tsv : Text) (i : ℕ) : Option Text :=
  match readTsvRows tsv with
  | [] => none
  | header :: rows =>
    rows[i % rows.length]?.bind fun row => (header.zip row).reverse.lookup "id".toList

/-- The turns of `runBenchmarkWorker`, with the latencies that it measures. -/
def workerSamples (tsv : Text) (latencies : List ℤ) : Option (List Sample) :=
  latencies.zipIdx.mapM fun a => (workerScenarioId tsv a.2).map fun sid => ⟨a.2, sid, a.1⟩

def runBenchmarkWorker (tsv : Text) (latencies : List ℤ) : Option Text :=
  (workerSamples tsv latencies).map workerFile

/-- The lines over which a Python text file iterates, without their ends: behind the last line end
there is no line. -/
def fileLines (t : Text) : List Text :=
  if (textLines t).getLast? = some [] then (textLines t).dropLast else textLines t

/-- A line of `run_worker`; `none` is the `ValueError` of the unpacking or of `int`. -/
def workerLine (U : Unicode) (line : Text) : Option Sample :=
  match split '\t' line with
  | [i, sid, latencyNs] => do
    let i ← pythonInt U i
    let latencyNs ← pythonInt U latencyNs
    pure ⟨i, sid, latencyNs⟩
  | _ => none

/-- The rows of `run_worker`; without a header `next` fails. -/
def readWorker (U : Unicode) (file : Text) : Option (List Sample) :=
  match fileLines file with
  | [] => none
  | _ :: lines => lines.mapM (workerLine U)

theorem fileLines_cons {l : Text} {t : Text} (h : textLines t = l :: textLines u) :
    fileLines t = l :: fileLines u := by
  obtain ⟨v, vs, hv⟩ := List.exists_cons_of_ne_nil (split_ne_nil '\n' (Xml.normalizeLineEnds u))
  have hu : textLines u = v :: vs := hv
  rw [fileLines, fileLines, h, hu, List.getLast?_cons_cons, List.dropLast_cons_cons]
  split_ifs <;> rfl

theorem textLines_append {a : Text} (ha : ∀ c ∈ a, ¬ IsBreak c) {c : Char} (hc : IsBreak c)
    (t : Text) : ∃ u, textLines (a ++ c :: t) = a :: textLines u ∧ (c = '\n' → u = t) := by
  have hcr : '\r' ∉ a := fun h => ha _ h (.inr rfl)
  have hlf : '\n' ∉ a := fun h => ha _ h (.inl rfl)
  have hnorm : ∃ u, Xml.normalizeLineEnds (c :: t) = '\n' :: Xml.normalizeLineEnds u ∧
      (c = '\n' → u = t) := by
    rcases hc with rfl | rfl
    · exact ⟨t, Xml.normalizeLineEnds_cons (by decide) t, fun _ => rfl⟩
    · match t with
      | [] => exact ⟨[], rfl, nofun⟩
      | d :: t =>
        by_cases hd : d = '\n'
        · subst hd
          exact ⟨t, rfl, nofun⟩
        · refine ⟨d :: t, ?_, nofun⟩
          rw [Xml.normalizeLineEnds, if_pos rfl]
          simpa using hd
  obtain ⟨u, hu, hfeed⟩ := hnorm
  refine ⟨u, ?_, hfeed⟩
  rw [textLines, Xml.normalizeLineEnds_append_left hcr, hu, split_append hlf, textLines]

/-- A line that a file begins with. -/
theorem fileLines_append {a : Text} (ha : ∀ c ∈ a, ¬ IsBreak c) (t : Text) :
    fileLines (a ++ '\n' :: t) = a :: fileLines t := by
  obtain ⟨u, hu, hfeed⟩ := textLines_append ha (.inl rfl) t
  rw [fileLines_cons hu, hfeed rfl]

theorem fileLines_append_cr {a : Text} (ha : ∀ c ∈ a, ¬ IsBreak c) (t : Text) :
    ∃ ls, fileLines (a ++ '\r' :: t) = a :: ls := by
  obtain ⟨u, hu, -⟩ := textLines_append ha (.inr rfl) t
  exact ⟨fileLines u, fileLines_cons hu⟩

def Int64 (n : ℤ) : Prop := -2 ^ 63 ≤ n ∧ n < 2 ^ 63

instance (n : ℤ) : Decidable (Int64 n) := inferInstanceAs (Decidable (_ ∧ _))

theorem countP_isDigit_decimal {n : ℤ} (h : Int64 n) : (decimal n).countP Char.isDigit ≤ 19 := by
  have hlength {m : ℕ} (hm : m < 10 ^ 19) : (Nat.toDigits 10 m).countP Char.isDigit ≤ 19 :=
    List.countP_le_length.trans (Nat.toDigits_length 10 m 19 (by decide) hm)
  rw [Int64] at h
  cases n with
  | ofNat m => exact hlength (by rw [Int.ofNat_eq_natCast] at h; omega)
  | negSucc m =>
    rw [decimal, List.countP_cons_of_neg (by decide)]
    exact hlength (by rw [Int.negSucc_eq] at h; omega)

/-- Python converts the numbers of 64 bits: its limit for digits cannot be set so low. -/
def Unicode.Converts (U : Unicode) : Prop := ∀ n ≤ 19, U.convertible n = true

theorem asciiOnly_converts : asciiOnly.Converts := fun _ hn => decide_eq_true (hn.trans (by decide))

theorem pythonInt_decimal {U : Unicode} (hU : U.Converts) {n : ℤ} (h : Int64 n) :
    pythonInt U (decimal n) = some n := by
  have hspace : ∀ c ∈ decimal n, U.pythonSpace c = false := by
    intro c hc
    rcases mem_decimal hc with hdigit | rfl
    · have hrange : 48 ≤ c.toNat ∧ c.toNat ≤ 57 := Char.isDigit_iff_toNat.mp hdigit
      rw [U.pythonSpace_ascii c (by omega), isAsciiSpace]
      simp
      omega
    · rw [U.pythonSpace_ascii _ (by decide)]
      decide
  have htrim : trim U.pythonSpace (decimal n) = decimal n :=
    trim_eq_self (fun c hc => hspace c (List.mem_of_mem_head? hc))
      (fun c hc => hspace c (List.mem_of_getLast? hc))
  rw [pythonInt, htrim, signed_pythonNatural (integerValue_decimal n),
    if_pos (hU _ (countP_isDigit_decimal h))]

theorem not_isBreak_decimal {n : ℤ} {c : Char} (h : c ∈ decimal n) : ¬ IsBreak c ∧ c ≠ '\t' := by
  rcases mem_decimal h with hdigit | rfl
  · have hrange : 48 ≤ c.toNat ∧ c.toNat ≤ 57 := Char.isDigit_iff_toNat.mp hdigit
    refine ⟨?_, ?_⟩
    · rintro (rfl | rfl) <;> revert hrange <;> decide
    · rintro rfl
      revert hrange
      decide
  · decide

/-- What a cell of a table cannot have, and what the integer types of C++ allow. -/
structure Sample.Valid (s : Sample) : Prop where
  tab : '\t' ∉ s.scenarioId
  feed : '\n' ∉ s.scenarioId
  iteration : Int64 s.iteration
  latency : Int64 s.latencyNs

theorem Sample.Valid.workerLine {s : Sample} (h : s.Valid) {U : Unicode} (hU : U.Converts) :
    workerLine U s.line = some s := by
  have hsplit : split '\t' s.line = [decimal s.iteration, s.scenarioId, decimal s.latencyNs] := by
    apply split_join (List.cons_ne_nil _ _)
    simp only [List.mem_cons, List.not_mem_nil, or_false, forall_eq_or_imp, forall_eq]
    exact ⟨fun hc => (not_isBreak_decimal hc).2 rfl, h.tab, fun hc => (not_isBreak_decimal hc).2 rfl⟩
  rw [Harness.workerLine, hsplit]
  simp [pythonInt_decimal hU h.iteration, pythonInt_decimal hU h.latency]

theorem Sample.Valid.not_isBreak {s : Sample} (h : s.Valid) (hcr : '\r' ∉ s.scenarioId) :
    ∀ c ∈ s.line, ¬ IsBreak c := by
  intro c hc
  rcases mem_join hc with rfl | ⟨t, ht, hct⟩
  · decide
  · simp only [List.mem_cons, List.not_mem_nil, or_false] at ht
    rcases ht with rfl | rfl | rfl
    · exact (not_isBreak_decimal hct).1
    · rintro (rfl | rfl)
      · exact h.feed hct
      · exact hcr hct
    · exact (not_isBreak_decimal hct).1

/-- A carriage return in an id ends the line before its last tab. -/
theorem Sample.Valid.exists_cut {s : Sample} (h : s.Valid) (hcr : '\r' ∈ s.scenarioId) :
    ∃ a b, s.line = a ++ '\r' :: b ∧ (∀ c ∈ a, ¬ IsBreak c) ∧ ∀ U, Harness.workerLine U a = none := by
  obtain ⟨p, q, hpq, hp⟩ := List.eq_append_cons_of_mem hcr
  refine ⟨decimal s.iteration ++ '\t' :: p, q ++ '\t' :: decimal s.latencyNs, ?_, ?_, ?_⟩
  · rw [Sample.line, hpq]
    simp [join]
  · intro c hc
    rcases List.mem_append.mp hc with hc | hc
    · exact (not_isBreak_decimal hc).1
    rcases List.mem_cons.mp hc with rfl | hc
    · decide
    rintro (rfl | rfl)
    · exact h.feed (by simp [hpq, hc])
    · exact hp hc
  · intro U
    have hsplit : split '\t' (decimal s.iteration ++ '\t' :: p) = [decimal s.iteration, p] := by
      rw [split_append fun hc => (not_isBreak_decimal hc).2 rfl,
        split_of_notMem fun hc => h.tab (by simp [hpq, hc])]
    rw [Harness.workerLine, hsplit]

theorem mapM_workerLine {U : Unicode} (hU : U.Converts) {samples : List Sample}
    (h : ∀ s ∈ samples, s.Valid) :
    (fileLines (unlines (samples.map Sample.line))).mapM (workerLine U) =
      if ∀ s ∈ samples, '\r' ∉ s.scenarioId then some samples else none := by
  induction samples with
  | nil => rfl
  | cons s samples ih =>
    obtain ⟨hs, hsamples⟩ := List.forall_mem_cons.mp h
    have hunlines : unlines ((s :: samples).map Sample.line) =
        s.line ++ '\n' :: unlines (samples.map Sample.line) := by
      simp [unlines]
    by_cases hcr : '\r' ∈ s.scenarioId
    · obtain ⟨a, b, hline, ha, hnone⟩ := hs.exists_cut hcr
      obtain ⟨ls, hls⟩ := fileLines_append_cr ha (b ++ '\n' :: unlines (samples.map Sample.line))
      rw [hunlines, hline, List.append_assoc, List.cons_append, hls, List.mapM_cons, hnone,
        if_neg fun hall => hall s List.mem_cons_self hcr]
      rfl
    · rw [hunlines, fileLines_append (hs.not_isBreak hcr), List.mapM_cons, hs.workerLine hU,
        ih hsamples]
      by_cases hrest : ∀ s' ∈ samples, '\r' ∉ s'.scenarioId
      · have hall : ∀ s' ∈ s :: samples, '\r' ∉ s'.scenarioId := List.forall_mem_cons.mpr ⟨hcr, hrest⟩
        rw [if_pos hrest, if_pos hall]
        rfl
      · rw [if_neg hrest, if_neg fun hall => hrest (List.forall_mem_cons.mp hall).2]
        rfl

/-- A worker file is read as it was written, unless an id has a carriage return. -/
theorem readWorker_workerFile {U : Unicode} (hU : U.Converts) {samples : List Sample}
    (h : ∀ s ∈ samples, s.Valid) :
    readWorker U (workerFile samples) =
      if ∀ s ∈ samples, '\r' ∉ s.scenarioId then some samples else none := by
  have hbreak : ∀ c ∈ workerHeader, ¬ IsBreak c := forall_toList (by decide)
  have hlines : fileLines (workerFile samples) =
      workerHeader :: fileLines (unlines (samples.map Sample.line)) := by
    rw [workerFile, unlines, List.flatMap_cons, List.append_assoc]
    exact fileLines_append hbreak _
  rw [readWorker, hlines]
  exact mapM_workerLine hU h

/-- The `int` loop counter and the `long long` latencies. -/
def Measurable (latencies : List ℤ) : Prop :=
  latencies.length < 2 ^ 31 ∧ ∀ l ∈ latencies, Int64 l

instance (latencies : List ℤ) : Decidable (Measurable latencies) :=
  inferInstanceAs (Decidable (_ ∧ _))

theorem workerScenarioId_cell {tsv sid : Text} {i : ℕ} (h : workerScenarioId tsv i = some sid) :
    '\t' ∉ sid ∧ '\n' ∉ sid := by
  rw [workerScenarioId] at h
  split at h
  · cases h
  · rename_i first rows hrows
    obtain ⟨row, hrow, hlookup⟩ := Option.bind_eq_some_iff.mp h
    have hcell : sid ∈ row := by
      obtain ⟨l₁, l₂, hl, -⟩ := List.lookup_eq_some_iff.mp hlookup
      have hmem : ("id".toList, sid) ∈ (first.zip row).reverse := by simp [hl]
      exact (List.of_mem_zip (List.mem_reverse.mp hmem)).2
    have hrow' : row ∈ readTsvRows tsv := hrows ▸ List.mem_cons_of_mem _ (List.mem_of_getElem? hrow)
    obtain ⟨line, hline, rfl⟩ := List.mem_map.mp hrow'
    have hfeed := sep_notMem_of_mem_split (List.mem_filter.mp hline).1
    exact ⟨sep_notMem_of_mem_split hcell, fun hc => hfeed (mem_of_mem_split hcell hc)⟩

theorem workerSamples_valid {tsv : Text} {latencies : List ℤ} (hlat : Measurable latencies)
    {samples : List Sample} (h : workerSamples tsv latencies = some samples) :
    ∀ s ∈ samples, s.Valid := by
  intro s hs
  obtain ⟨a, ha, hsome⟩ : ∃ a ∈ latencies.zipIdx,
      ((workerScenarioId tsv a.2).map fun sid => (⟨a.2, sid, a.1⟩ : Sample)) = some s := by
    obtain ⟨hlength, hget⟩ := List.forall₂_iff_get.mp (Json.mapM_eq_some_iff.mp h)
    obtain ⟨i, hi, rfl⟩ := List.mem_iff_getElem.mp hs
    exact ⟨_, List.getElem_mem (hlength ▸ hi), hget i (hlength ▸ hi) hi⟩
  obtain ⟨sid, hsid, rfl⟩ := Option.map_eq_some_iff.mp hsome
  obtain ⟨htab, hfeed⟩ := workerScenarioId_cell hsid
  have hindex : a.2 < latencies.length := by
    have := List.snd_lt_of_mem_zipIdx ha
    omega
  refine ⟨htab, hfeed, ?_, hlat.2 _ (List.fst_mem_of_mem_zipIdx ha)⟩
  have hmax := hlat.1
  constructor
  · show _ ≤ (a.2 : ℤ)
    omega
  · show (a.2 : ℤ) < _
    omega

/-- A process that `run_worker` starts, for the warm-up or as a worker of a repetition. -/
inductive Process where
  | warmup
  | worker (rep w : ℕ)
deriving DecidableEq, Repr

def Process.workerId : Process → Text
  | .warmup => "warmup".toList
  | .worker rep w => decimal rep ++ '-' :: decimal w

def rawPath (workerId : Text) : Text := "worker-".toList ++ workerId ++ ".tsv".toList

/-- What a process does to its file. The stream writes its buffer in pieces. -/
inductive FileOp where
  | create
  | append (piece : Text)
deriving DecidableEq, Repr

def FileOp.apply (file : Option Text) : FileOp → Option Text
  | .create => some []
  | .append piece => file.map fun t => t ++ piece

/-- The temporary directory after what the processes did to their files. -/
def directory (schedule : List (Process × FileOp)) : Option (Text → Option Text) :=
  run (fun _ file op => some (op.apply file)) (fun _ => none)
    (schedule.map fun a => (rawPath a.1.workerId, a.2))

/-- The rows of `run_worker`, which reads the file of its process. -/
def runWorker (U : Unicode) (schedule : List (Process × FileOp)) (p : Process) :
    Option (List (Text × Sample)) := do
  let files ← directory schedule
  let file ← files (rawPath p.workerId)
  let samples ← readWorker U file
  pure (samples.map fun s => (p.workerId, s))

/-- The workers in the order of the loops of `main`. -/
def workers (repetitions concurrency : ℕ) : List Process :=
  ((List.range repetitions).product (List.range concurrency)).map fun a => .worker a.1 a.2

/-- The rows that `main` collects. The file of a process is read after `reads` steps of all. -/
def allRows (U : Unicode) (schedule : List (Process × FileOp)) (reads : Process → ℕ)
    (repetitions concurrency : ℕ) : Option (List (Text × Sample)) :=
  ((workers repetitions concurrency).mapM fun p =>
    runWorker U (schedule.take (reads p)) p).map List.flatten

theorem decimal_natCast_inj {m n : ℕ} (h : decimal (m : ℤ) = decimal (n : ℤ)) : m = n := by
  have hvalue := congrArg integerValue h
  rw [integerValue_decimal, integerValue_decimal] at hvalue
  simpa using hvalue

theorem dash_notMem_decimal (n : ℕ) : '-' ∉ decimal (n : ℤ) := by
  intro h
  have hdigit : ('-').isDigit = true := Nat.isDigit_of_mem_toDigits (by decide) (by decide) h
  revert hdigit
  decide

theorem workerId_injective : Function.Injective Process.workerId := by
  have hwarmup (rep w : ℕ) : Process.warmup.workerId ≠ (Process.worker rep w).workerId := by
    intro h
    have hmem : '-' ∈ decimal rep ++ '-' :: decimal w := by simp
    have hwarmup : '-' ∈ Process.warmup.workerId := h ▸ hmem
    revert hwarmup
    decide
  intro p q h
  cases p with
  | warmup =>
    cases q with
    | warmup => rfl
    | worker rep w => exact absurd h (hwarmup rep w)
  | worker rep w =>
    cases q with
    | warmup => exact absurd h.symm (hwarmup rep w)
    | worker rep' w' =>
      have hids : decimal rep ++ '-' :: decimal w = decimal rep' ++ '-' :: decimal w' := h
      have hsplit := congrArg (split '-') hids
      simp only [split_append (dash_notMem_decimal _), split_of_notMem (dash_notMem_decimal _),
        List.cons.injEq, and_true] at hsplit
      rw [decimal_natCast_inj hsplit.1, decimal_natCast_inj hsplit.2]

theorem rawPath_injective : Function.Injective rawPath := by
  have hbetween (a b : Text) : Function.Injective fun t : Text => a ++ t ++ b := by
    intro s t h
    simpa using h
  exact hbetween "worker-".toList ".tsv".toList

/-- The file of a process has what the process did to it, whatever the others do. -/
theorem directory_eq (schedule : List (Process × FileOp)) :
    ∃ files, directory schedule = some files ∧
      ∀ p : Process, files (rawPath p.workerId) = (actions p schedule).foldl FileOp.apply none := by
  have hone (file : Option Text) (ops : List FileOp) :
      runOne (fun file op => some (FileOp.apply file op)) file ops =
        some (ops.foldl FileOp.apply file) := by
    induction ops generalizing file with
    | nil => rfl
    | cons op ops ih => exact ih _
  refine ⟨fun name => (actions name (schedule.map fun a => (rawPath a.1.workerId, a.2))).foldl
    FileOp.apply none, ?_, ?_⟩
  · exact run_eq_some_iff.mpr fun name => hone none _
  · intro p
    have hactions := actions_map (rawPath_injective.comp workerId_injective) p schedule
    exact congrArg (List.foldl FileOp.apply none) hactions

/-- The process has written its file to the end. -/
def Written (file : Text) (ops : List FileOp) : Prop :=
  ∃ pieces : List Text, ops = .create :: pieces.map .append ∧ pieces.flatten = file

theorem Written.foldl {file : Text} {ops : List FileOp} (h : Written file ops) :
    ops.foldl FileOp.apply none = some file := by
  obtain ⟨pieces, rfl, rfl⟩ := h
  have happend (t : Text) : (pieces.map FileOp.append).foldl FileOp.apply (some t) =
      some (t ++ pieces.flatten) := by
    induction pieces generalizing t with
    | nil => simp
    | cons piece pieces ih =>
      rw [List.map_cons, List.foldl_cons, FileOp.apply, Option.map_some, ih, List.flatten_cons,
        List.append_assoc]
  exact happend []

theorem runWorker_of_written {U : Unicode} {schedule : List (Process × FileOp)} {p : Process}
    {file : Text} (h : Written file (actions p schedule)) :
    runWorker U schedule p =
      (readWorker U file).map fun samples => samples.map fun s => (p.workerId, s) := by
  obtain ⟨files, hfiles, hfile⟩ := directory_eq schedule
  rw [runWorker, hfiles]
  simp only [Option.bind_eq_bind, Option.bind_some, hfile, h.foldl]
  cases readWorker U file <;> rfl

/-- A process that has written its file is read as it measured, whatever the other processes have
done by then; Python fails when the id of a scenario that it used has a carriage return. -/
theorem runWorker_interleaved {U : Unicode} (hU : U.Converts) (tsv : Text) {l : List ℤ}
    (hlat : Measurable l) {samples : List Sample}
    (h : workerSamples tsv l = some samples) {schedule : List (Process × FileOp)}
    {p : Process} (hwritten : Written (workerFile samples) (actions p schedule)) :
    runWorker U schedule p =
      if ∀ s ∈ samples, '\r' ∉ s.scenarioId then
        some (samples.map fun s => (p.workerId, s))
      else none := by
  rw [runWorker_of_written hwritten, readWorker_workerFile hU (workerSamples_valid hlat h)]
  split_ifs <;> rfl

def threeSamples : List Sample := [⟨0, ['a'], 5⟩, ⟨1, ['b'], 7⟩, ⟨2, ['a'], 9⟩]

/-- A worker writes its file in two pieces, and another one writes its own in between. -/
def twoPieces : List (Process × FileOp) :=
  [(.worker 0 0, .create), (.worker 0 1, .create),
    (.worker 0 1, .append (unlines (workerHeader :: (threeSamples.take 1).map Sample.line))),
    (.worker 0 0, .append (workerFile [⟨0, ['b'], 3⟩])),
    (.worker 0 1, .append (unlines ((threeSamples.drop 1).map Sample.line)))]

theorem runWorker_interleaved_twoPieces :
    runWorker asciiOnly twoPieces (.worker 0 1) =
      some (threeSamples.map fun s => (Process.workerId (.worker 0 1), s)) := by
  have hpieces : [unlines (workerHeader :: (threeSamples.take 1).map Sample.line),
      unlines ((threeSamples.drop 1).map Sample.line)].flatten = workerFile threeSamples := by
    rw [List.flatten_cons, List.flatten_cons, List.flatten_nil, List.append_nil, workerFile, unlines,
      unlines, unlines, ← List.flatMap_append]
    rfl
  have hwritten : Written (workerFile threeSamples) (actions (.worker 0 1) twoPieces) :=
    ⟨_, rfl, hpieces⟩
  have hsamples : workerSamples ['i', 'd', '\n', 'a', '\n', 'b', '\n'] [5, 7, 9] =
      some threeSamples := by decide
  rw [runWorker_interleaved asciiOnly_converts _ (by decide) hsamples hwritten, if_pos (by decide)]

section Corpus
variable {ss : List Scenario} {tsv : Text}

theorem workerScenarioId_write (htsv : writeScenariosTsv ss = some tsv) (i : ℕ) :
    workerScenarioId tsv i = ss[i % ss.length]?.map Scenario.id := by
  have hid (s : Scenario) : (header.zip s.row).reverse.lookup "id".toList = some s.id := by
    rw [lookup_zip header s.row rfl]
    have hzero : (indexHeader header).lookup "id".toList = some 0 := lookup_header (i := 0) (by decide)
    rw [hzero]
    rfl
  rw [workerScenarioId, readTsvRows_write htsv, table]
  simp only [List.length_map, List.getElem?_map]
  cases ss[i % ss.length]? with
  | none => rfl
  | some s => simp only [Option.map_some, Option.bind_some, hid]

/-- The samples of a worker, from the scenarios and its latencies. -/
def expectedSamples (ss : List Scenario) (latencies : List ℤ) : List Sample :=
  latencies.zipIdx.map fun a => ⟨a.2, ((ss[a.2 % ss.length]?).map Scenario.id).getD [], a.1⟩

theorem workerSamples_write (hss : ss ≠ []) (htsv : writeScenariosTsv ss = some tsv)
    (latencies : List ℤ) : workerSamples tsv latencies = some (expectedSamples ss latencies) := by
  rw [workerSamples, Json.mapM_eq_some_iff, expectedSamples, List.forall₂_map_right_iff,
    List.forall₂_same]
  intro a _
  have hlt : a.2 % ss.length < ss.length := Nat.mod_lt _ (List.length_pos_iff.mpr hss)
  rw [workerScenarioId_write htsv, List.getElem?_eq_getElem hlt]
  rfl

theorem expectedSamples_cr (latencies : List ℤ) :
    ∀ s ∈ expectedSamples ss latencies, '\r' ∉ s.scenarioId := by
  intro s hs
  obtain ⟨a, -, rfl⟩ := List.mem_map.mp hs
  cases hget : ss[a.2 % ss.length]? with
  | none => simp
  | some s =>
    intro hmem
    have hcut := isScenarioId_notCut s.idPattern '\r' hmem
    revert hcut
    decide

theorem workers_nodup (repetitions concurrency : ℕ) : (workers repetitions concurrency).Nodup := by
  apply List.Nodup.map
  · rintro ⟨rep, w⟩ ⟨rep', w'⟩ h
    cases h
    rfl
  · exact List.Nodup.product List.nodup_range List.nodup_range

/-- The rows of the raw output, from the latencies of each worker. -/
def expectedRows (ss : List Scenario) (latencies : Process → List ℤ)
    (repetitions concurrency : ℕ) : List (Text × Sample) :=
  (workers repetitions concurrency).flatMap fun p =>
    (expectedSamples ss (latencies p)).map fun s => (p.workerId, s)

/-- The worker and the turn tell the rows apart. -/
theorem expectedRows_nodup (ss : List Scenario) (latencies : Process → List ℤ)
    (repetitions concurrency : ℕ) :
    ((expectedRows ss latencies repetitions concurrency).map fun r =>
      (r.1, r.2.iteration)).Nodup := by
  have hkeys (p : Process) : (expectedSamples ss (latencies p)).map Sample.iteration =
      (List.range (latencies p).length).map fun (i : ℕ) => (i : ℤ) := by
    rw [expectedSamples, List.map_map, List.range_eq_range', ← List.zipIdx_map_snd 0, List.map_map]
    rfl
  rw [expectedRows, List.map_flatMap, List.nodup_flatMap]
  simp only [List.map_map]
  constructor
  · intro p _
    have hpairs : ((fun r : Text × Sample => (r.1, r.2.iteration)) ∘ fun s => (p.workerId, s)) =
        Prod.mk p.workerId ∘ Sample.iteration := rfl
    rw [hpairs, ← List.map_map, hkeys]
    apply List.Nodup.map (Prod.mk_right_injective p.workerId)
    exact List.nodup_range.map Nat.cast_injective
  · apply (workers_nodup repetitions concurrency).imp
    intro p q hpq
    rw [Function.onFun, List.disjoint_left]
    intro key hp hq
    obtain ⟨s, -, rfl⟩ := List.mem_map.mp hp
    obtain ⟨t, -, ht⟩ := List.mem_map.mp hq
    exact hpq (workerId_injective (congrArg Prod.fst ht).symm)

/-- Whatever the order in which the processes write, and whenever each file is read after its
process has ended, the rows are those of the workers one after the other, each with the scenario of
its turn, and no two of them have the same key. -/
theorem allRows_of_scenarios {U : Unicode} (hU : U.Converts) (hss : ss ≠ [])
    (htsv : writeScenariosTsv ss = some tsv) {repetitions concurrency : ℕ}
    {latencies : Process → List ℤ} {schedule : List (Process × FileOp)} {reads : Process → ℕ}
    (hlat : ∀ p ∈ workers repetitions concurrency, Measurable (latencies p))
    (hwritten : ∀ p ∈ workers repetitions concurrency,
      ∃ file, runBenchmarkWorker tsv (latencies p) = some file ∧
        Written file (actions p (schedule.take (reads p)))) :
    allRows U schedule reads repetitions concurrency =
      some (expectedRows ss latencies repetitions concurrency) ∧
    ((expectedRows ss latencies repetitions concurrency).map fun r =>
      (r.1, r.2.iteration)).Nodup := by
  refine ⟨?_, expectedRows_nodup ss latencies repetitions concurrency⟩
  have hworkers : (workers repetitions concurrency).mapM
      (fun p => runWorker U (schedule.take (reads p)) p) =
        some ((workers repetitions concurrency).map fun p =>
          (expectedSamples ss (latencies p)).map fun s => (p.workerId, s)) := by
    rw [Json.mapM_eq_some_iff, List.forall₂_map_right_iff, List.forall₂_same]
    intro p hp
    have hsamples := workerSamples_write hss htsv (latencies p)
    obtain ⟨file, hfile, hops⟩ := hwritten p hp
    rw [runBenchmarkWorker, hsamples] at hfile
    cases hfile
    rw [runWorker_of_written hops, readWorker_workerFile hU (workerSamples_valid (hlat p hp) hsamples),
      if_pos (expectedSamples_cr _)]
    rfl
  rw [allRows, hworkers, expectedRows, List.flatMap_def]
  rfl

end Corpus

/-- The second worker writes while the first one is at work. -/
def twoWriters : List (Process × FileOp) :=
  [(.worker 0 0, .create), (.worker 0 1, .create),
    (.worker 0 1, .append (workerFile (expectedSamples [minimalScenario] [7]))),
    (.worker 0 0, .append (workerFile (expectedSamples [minimalScenario] [5])))]

theorem allRows_of_twoWriters :
    allRows asciiOnly twoWriters (fun p => if p = .worker 0 0 then 4 else 3) 1 2 =
      some (expectedRows [minimalScenario] (fun p => if p = .worker 0 0 then [5] else [7]) 1 2) := by
  have hss : [minimalScenario] ≠ [] := List.cons_ne_nil _ _
  have htsv : writeScenariosTsv [minimalScenario] =
      some (unlines ((table [minimalScenario]).map (join '\t'))) := by
    refine writeScenariosTsv_eq_some_iff.mpr ⟨?_, rfl⟩
    intro s hs a
    rw [List.mem_singleton.mp hs]
    cases a <;> decide
  refine (allRows_of_scenarios asciiOnly_converts hss htsv (by decide) ?_).1
  have hworkers : workers 1 2 = [.worker 0 0, .worker 0 1] := rfl
  have hfile (latencies : List ℤ) : runBenchmarkWorker
      (unlines ((table [minimalScenario]).map (join '\t'))) latencies =
        some (workerFile (expectedSamples [minimalScenario] latencies)) := by
    rw [runBenchmarkWorker, workerSamples_write hss htsv]
    rfl
  rw [hworkers]
  simp only [List.mem_cons, List.not_mem_nil, or_false, forall_eq_or_imp, forall_eq]
  exact ⟨⟨_, hfile [5], [workerFile (expectedSamples [minimalScenario] [5])], rfl, List.append_nil _⟩,
    ⟨_, hfile [7], [workerFile (expectedSamples [minimalScenario] [7])], rfl, List.append_nil _⟩⟩

end AbacMiddleLayer.Harness
