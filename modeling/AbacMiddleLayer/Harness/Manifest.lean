import AbacMiddleLayer.Decimal
import AbacMiddleLayer.KeyValue
import AbacMiddleLayer.TextLines

/-! # The benchmark manifest

Five programs read `benchmark-manifest.conf`, a text of `key=value` lines. The Java and
Python readers trim lines, keys and values, each with its own idea of white space; the C++
reader trims nothing and knows line feeds only. A line without `=` is ignored by two of
the languages and is a key with an empty value in Python.
-/
namespace AbacMiddleLayer.Harness
open Decimal KeyValue Tsv TextLines

def asciiDigit (c : Char) : Option ℕ := if c.isDigit then some (c.toNat - 48) else none

def isAsciiSpace (c : Char) : Bool :=
  (9 ≤ c.toNat && c.toNat ≤ 13) || (28 ≤ c.toNat && c.toNat ≤ 32)

/-- What Java and Python take for decimal digits and Python for white space, and the numbers of
digits that Python's `int` converts. Only ASCII is fixed. -/
structure Unicode where
  javaDigit : Char → Option ℕ
  pythonDigit : Char → Option ℕ
  pythonSpace : Char → Bool
  convertible : ℕ → Bool
  javaDigit_ascii : ∀ c, c.toNat < 128 → javaDigit c = asciiDigit c
  pythonDigit_ascii : ∀ c, c.toNat < 128 → pythonDigit c = asciiDigit c
  pythonSpace_ascii : ∀ c, c.toNat < 128 → pythonSpace c = isAsciiSpace c

/-- Nothing but ASCII, with Python's default limit. -/
def asciiOnly : Unicode where
  javaDigit := asciiDigit
  pythonDigit := asciiDigit
  pythonSpace := isAsciiSpace
  convertible := fun n => n ≤ 4300
  javaDigit_ascii := fun _ _ => rfl
  pythonDigit_ascii := fun _ _ => rfl
  pythonSpace_ascii := fun _ _ => rfl

/-- The characters that `String.trim` removes. -/
def isJavaBlank (c : Char) : Bool := c.toNat ≤ 32

def ofDigits (ds : List ℕ) : ℕ := ds.foldl (fun n d => 10 * n + d) 0

def javaNatural (U : Unicode) (s : Text) : Option ℕ :=
  if s = [] then none else (s.mapM U.javaDigit).map ofDigits

/-- `Integer.parseInt`; `none` is a `NumberFormatException`. -/
def parseInt (U : Unicode) (s : Text) : Option ℤ :=
  (signed (javaNatural U) s).filter fun n => decide (Int32 n)

/-- Digits with single underscores between them. -/
def pythonDigits (U : Unicode) : Text → Option (List ℕ)
  | [] => none
  | [c] => (U.pythonDigit c).map fun d => [d]
  | c :: '_' :: cs => (U.pythonDigit c).bind fun d => (pythonDigits U cs).map (d :: ·)
  | c :: cs => (U.pythonDigit c).bind fun d => (pythonDigits U cs).map (d :: ·)

def pythonNatural (U : Unicode) (s : Text) : Option ℕ :=
  ((pythonDigits U s).filter fun ds => U.convertible ds.length).map ofDigits

/-- Python's `int`; `none` is a `ValueError`. -/
def pythonInt (U : Unicode) (s : Text) : Option ℤ :=
  signed (pythonNatural U) (trim U.pythonSpace s)

/-- A line whose parts are trimmed; `bare` says what becomes of a line without `=`. -/
def trimmedAssignment (blank : Char → Bool) (bare : Text → Option (Text × Text)) (line : Text) :
    Option (Text × Text) :=
  let line := trim blank line
  if line = [] ∨ line.head? = some '#' then none
  else match cutAt '=' line with
    | some (k, v) => some (trim blank k, trim blank v)
    | none => bare line

/-- A line of `readManifest`: without `=` it is ignored. -/
def javaLine : Text → Option (Text × Text) := trimmedAssignment isJavaBlank fun _ => none

/-- A line of `read_manifest`: `partition` makes a line without `=` a key with an empty value. -/
def pythonLine (U : Unicode) : Text → Option (Text × Text) :=
  trimmedAssignment U.pythonSpace fun line => some (trim U.pythonSpace line, [])

/-- A line of `readManifestConf`. -/
def cppLine (line : Text) : Option (Text × Text) :=
  if line = [] ∨ line.head? = some '#' then none else cutAt '=' line

def readManifest (t : Text) : List (Text × Text) := ((textLines t).filterMap javaLine).reverse

/-- The map of `read_manifest`. -/
def readManifestPython (U : Unicode) (t : Text) : List (Text × Text) :=
  ((textLines t).filterMap (pythonLine U)).reverse

def readManifestConf (t : Text) : List (Text × Text) := ((split '\n' t).filterMap cppLine).reverse

inductive Key where
  | warmupIterations
  | measuredIterations
  | repetitions
deriving DecidableEq, Repr

def Key.text : Key → Text
  | .warmupIterations => "warmup_iterations".toList
  | .measuredIterations => "measured_iterations".toList
  | .repetitions => "repetitions".toList

/-- `Integer.parseInt(manifest.get(key))`. -/
def javaReading (U : Unicode) (k : Key) (t : Text) : Option ℤ :=
  ((readManifest t).lookup k.text).bind (parseInt U)

/-- `std::stoi(manifest[key])`; a missing key has the empty text. -/
def cppReading (k : Key) (t : Text) : Option ℤ := stoi (((readManifestConf t).lookup k.text).getD [])

/-- `int(manifest[key])`. -/
def pythonReading (U : Unicode) (k : Key) (t : Text) : Option ℤ :=
  ((readManifestPython U t).lookup k.text).bind (pythonInt U)

def MiddleLayerCorpusRunner.manifestValue := javaReading

def SunXacmlCorpusRunner.manifestValue := javaReading

def CasbinCorpusRunner.manifestValue := cppReading

def RunAuthzforceBenchmark.manifestValue := pythonReading

def RunCasbinBenchmark.manifestValue := pythonReading

def readings (U : Unicode) (k : Key) : List (Text → Option ℤ) :=
  [MiddleLayerCorpusRunner.manifestValue U k, SunXacmlCorpusRunner.manifestValue U k,
    CasbinCorpusRunner.manifestValue k, RunAuthzforceBenchmark.manifestValue U k,
    RunCasbinBenchmark.manifestValue U k]

/-- All programs read the same integer, or all of them fail. -/
def Agree (U : Unicode) (k : Key) (t : Text) : Prop :=
  ∃ value : Option ℤ, ∀ f ∈ readings U k, f t = value

theorem agree_iff {U : Unicode} {k : Key} {t : Text} :
    Agree U k t ↔ javaReading U k t = cppReading k t ∧ pythonReading U k t = cppReading k t := by
  simp only [Agree, readings, MiddleLayerCorpusRunner.manifestValue,
    SunXacmlCorpusRunner.manifestValue, CasbinCorpusRunner.manifestValue,
    RunAuthzforceBenchmark.manifestValue, RunCasbinBenchmark.manifestValue, List.mem_cons,
    List.not_mem_nil, or_false, forall_eq_or_imp, forall_eq]
  constructor
  · rintro ⟨value, hjava, -, hcpp, hpython, -⟩
    exact ⟨hjava.trans hcpp.symm, hpython.trans hcpp.symm⟩
  · rintro ⟨hjava, hpython⟩
    exact ⟨_, hjava, hjava, rfl, hpython, hpython⟩

/-- A line between line ends of any kind. `whole` is what the C++ reader takes for the line, if
it begins where this one does. -/
structure Line where
  text : Text
  whole : Option Text
  starts : ∀ w, whole = some w → ∃ tail, w = text ++ tail ∧ (tail = [] ∨ tail.head? = some '\r')

/-- The lines between the carriage returns of a text without line feeds. -/
def linesOf (w : Text) : List Line :=
  match h : cutAt '\r' w with
  | none => [⟨w, some w, fun w' hw => ⟨[], by simp [Option.some.inj hw], .inl rfl⟩⟩]
  | some (a, b) =>
    ⟨a, some w, fun w' hw => ⟨'\r' :: b,
      by rw [← Option.some.inj hw]; exact (cutAt_eq_some_iff.mp h).1, .inr rfl⟩⟩ ::
    (split '\r' b).map fun s => ⟨s, none, nofun⟩

def manifestLines (t : Text) : List Line := (split '\n' t).flatMap linesOf

theorem map_text_linesOf (w : Text) : (linesOf w).map Line.text = split '\r' w := by
  unfold linesOf
  split
  · next h => rw [split_of_notMem (cutAt_eq_none_iff.mp h), List.map_singleton]
  · next a b h =>
    obtain ⟨rfl, ha⟩ := cutAt_eq_some_iff.mp h
    rw [split_append ha, List.map_cons, List.map_map]
    congr 1
    exact List.map_id _

theorem filterMap_whole_linesOf (w : Text) : (linesOf w).filterMap Line.whole = [w] := by
  unfold linesOf
  split
  · rfl
  · next a b h => simp

theorem map_text_manifestLines (t : Text) : (manifestLines t).map Line.text = pieces t := by
  rw [manifestLines, pieces, List.map_flatMap]
  exact List.flatMap_congr fun w _ => map_text_linesOf w

theorem filterMap_textLines_eq {β : Type*} {e : Text → Option β} (he : e [] = none) (t : Text) :
    (textLines t).filterMap e = (manifestLines t).filterMap fun l => e l.text := by
  rw [filterMap_textLines he, ← map_text_manifestLines, List.filterMap_map]
  rfl

theorem filterMap_split_lineFeed {β : Type*} (e : Text → Option β) (t : Text) :
    (split '\n' t).filterMap e = (manifestLines t).filterMap fun l => l.whole.bind e := by
  have hwhole : (manifestLines t).filterMap Line.whole = split '\n' t := by
    rw [manifestLines, List.filterMap_flatMap]
    simp only [filterMap_whole_linesOf]
    exact List.flatMap_singleton' _
  rw [← hwhole, List.filterMap_filterMap]

def javaAssignment (l : Line) : Option (Text × Text) := javaLine l.text

def pythonAssignment (U : Unicode) (l : Line) : Option (Text × Text) := pythonLine U l.text

def cppAssignment (l : Line) : Option (Text × Text) := l.whole.bind cppLine

theorem trimmedAssignment_nil (blank : Char → Bool) (bare : Text → Option (Text × Text)) :
    trimmedAssignment blank bare [] = none := rfl

theorem javaReading_eq (U : Unicode) (k : Key) (t : Text) :
    javaReading U k t = (lastValue javaAssignment k.text (manifestLines t)).bind (parseInt U) := by
  rw [javaReading, readManifest, filterMap_textLines_eq (e := javaLine) (trimmedAssignment_nil _ _)]
  rfl

theorem pythonReading_eq (U : Unicode) (k : Key) (t : Text) :
    pythonReading U k t =
      (lastValue (pythonAssignment U) k.text (manifestLines t)).bind (pythonInt U) := by
  rw [pythonReading, readManifestPython,
    filterMap_textLines_eq (e := pythonLine U) (trimmedAssignment_nil _ _)]
  rfl

theorem cppReading_eq (k : Key) (t : Text) :
    cppReading k t = (lastValue cppAssignment k.text (manifestLines t)).bind stoi := by
  have hlookup : (readManifestConf t).lookup k.text =
      lastValue cppAssignment k.text (manifestLines t) := by
    rw [readManifestConf, filterMap_split_lineFeed]
    rfl
  rw [cppReading, hlookup]
  cases lastValue cppAssignment k.text (manifestLines t) <;> rfl

/-- The values of ASCII digits. -/
def digitValues (t : Text) : List ℕ := t.map fun c => c.toNat - 48

theorem ofDigits_digitValues (t : Text) : ofDigits (digitValues t) = Nat.ofDigitChars 10 t 0 := by
  rw [ofDigits, digitValues, List.foldl_map]
  rfl

theorem mapM_asciiDigit (t : Text) :
    t.mapM asciiDigit = if t.all Char.isDigit then some (digitValues t) else none := by
  induction t with
  | nil => rfl
  | cons c t ih =>
    rw [List.mapM_cons, ih, asciiDigit]
    cases hc : c.isDigit <;> cases ht : t.all Char.isDigit <;> simp [hc, ht, digitValues]

theorem javaNatural_eq {U : Unicode} {t : Text} (h : ∀ c ∈ t, c.toNat < 128) :
    javaNatural U t = naturalValue t := by
  have hdigits : t.mapM U.javaDigit = t.mapM asciiDigit := by
    rw [← List.mapM'_eq_mapM, ← List.mapM'_eq_mapM]
    induction t with
    | nil => rfl
    | cons c t ih =>
      rw [List.mapM'_cons, List.mapM'_cons, U.javaDigit_ascii c (h c (by simp)),
        ih fun d hd => h d (by simp [hd])]
  rw [javaNatural, hdigits, mapM_asciiDigit, naturalValue]
  by_cases ht : t = []
  · simp [ht]
  · by_cases hall : t.all Char.isDigit = true
    · simp [ht, hall, ofDigits_digitValues]
    · simp [ht, hall]

theorem signed_congr {f g : Text → Option ℕ} {s : Text} (h : ∀ t, t <:+ s → f t = g t) :
    signed f s = signed g s := by
  by_cases hs : s = []
  · rw [hs, signed, signed, h [] (List.nil_suffix)] <;> simp
  · obtain ⟨σ, sign, t, rfl, -, hsigned⟩ := exists_sign hs
    have hf := hsigned f []
    have hg := hsigned g []
    rw [List.append_nil, List.append_nil] at hf hg
    rw [hf, hg, h t (List.suffix_append _ _)]

theorem parseInt_eq {U : Unicode} {s : Text} (h : ∀ c ∈ s, c.toNat < 128) :
    parseInt U s = valueOf s := by
  rw [parseInt, valueOf, integerValue]
  congr 1
  apply signed_congr
  intro t ht
  exact javaNatural_eq fun c hc => h c (ht.mem hc)

theorem pythonDigits_digits {U : Unicode} {t : Text} (hne : t ≠ [])
    (h : ∀ c ∈ t, c.isDigit = true) : pythonDigits U t = some (digitValues t) := by
  have hdigit {c : Char} (hc : c.isDigit = true) : U.pythonDigit c = some (c.toNat - 48) := by
    have hrange : 48 ≤ c.toNat ∧ c.toNat ≤ 57 := Char.isDigit_iff_toNat.mp hc
    rw [U.pythonDigit_ascii c (by omega), asciiDigit, if_pos hc]
  fun_induction pythonDigits U t with
  | case1 => exact absurd rfl hne
  | case2 c => simp [hdigit (h c (by simp)), digitValues]
  | case3 c cs ih => exact absurd (h '_' (by simp)) (by decide)
  | case4 c cs hcs _ ih =>
    rw [hdigit (h c (by simp)), ih hcs fun d hd => h d (by simp [hd])]
    rfl

theorem signed_pythonNatural {U : Unicode} {s : Text} {n : ℤ} (h : integerValue s = some n) :
    signed (pythonNatural U) s =
      if U.convertible (s.countP Char.isDigit) then some n else none := by
  obtain ⟨σ, sign, t, rfl, hsign, hne, hdigits, rfl, hsigned⟩ := exists_digits h
  have hcount : (sign ++ t).countP Char.isDigit = t.length := by
    have hzero : sign.countP Char.isDigit = 0 := by
      rw [List.countP_eq_zero]
      intro c hc
      rcases hsign c hc with rfl | rfl <;> decide
    rw [List.countP_append, hzero, Nat.zero_add, List.countP_eq_length.mpr hdigits]
  have hvalue := hsigned (pythonNatural U) []
  rw [List.append_nil, List.append_nil, pythonNatural, pythonDigits_digits hne hdigits] at hvalue
  rw [hvalue, hcount]
  by_cases hconv : U.convertible t.length = true
  · simp [hconv, digitValues, ← ofDigits_digitValues]
  · simp [hconv, digitValues]

end AbacMiddleLayer.Harness
