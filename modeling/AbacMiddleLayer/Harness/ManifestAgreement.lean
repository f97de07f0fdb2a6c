import AbacMiddleLayer.Harness.Manifest

/-! # When the readers of the manifest agree

The lines that name a key and the texts that are integers are described on the text of the
manifest, for each language. The readers agree when no line names the key, or when the last line
that does is plain and its value is one integer in every language or an integer in none. On any
other text the C++ reader takes its value from another line than the rest.
-/
namespace AbacMiddleLayer.Harness
open Decimal KeyValue Tsv TextLines

/-- An optional sign in front of what `natural` describes. -/
def Signed (natural : Text → ℕ → Prop) (s : Text) (n : ℤ) : Prop :=
  ∃ sign t m, s = sign ++ t ∧ natural t m ∧
    (((sign = [] ∨ sign = ['+']) ∧ n = (m : ℤ)) ∨ (sign = ['-'] ∧ n = -(m : ℤ)))

theorem signed_eq_some_iff {f : Text → Option ℕ} {natural : Text → ℕ → Prop}
    (hf : ∀ t m, f t = some m ↔ natural t m)
    (hsign : ∀ c t m, c = '-' ∨ c = '+' → ¬ natural (c :: t) m) {s : Text} {n : ℤ} :
    signed f s = some n ↔ Signed natural s n := by
  constructor
  · intro h
    unfold signed at h
    split at h
    · next t =>
      obtain ⟨m, hm, rfl⟩ := Option.map_eq_some_iff.mp h
      exact ⟨['-'], t, m, rfl, (hf t m).mp hm, .inr ⟨rfl, rfl⟩⟩
    · next t =>
      obtain ⟨m, hm, rfl⟩ := Option.map_eq_some_iff.mp h
      exact ⟨['+'], t, m, rfl, (hf t m).mp hm, .inl ⟨.inr rfl, rfl⟩⟩
    · obtain ⟨m, hm, rfl⟩ := Option.map_eq_some_iff.mp h
      exact ⟨[], s, m, rfl, (hf s m).mp hm, .inl ⟨.inl rfl, rfl⟩⟩
  · rintro ⟨sign, t, m, rfl, ht, ⟨rfl | rfl, rfl⟩ | ⟨rfl, rfl⟩⟩
    · rw [List.nil_append]
      unfold signed
      split
      · exact absurd ht (hsign _ _ m (.inl rfl))
      · exact absurd ht (hsign _ _ m (.inr rfl))
      · rw [(hf t m).mpr ht]
        rfl
    · rw [List.singleton_append, signed, (hf t m).mpr ht]
      rfl
    · rw [List.singleton_append, signed, (hf t m).mpr ht]
      rfl

/-- One digit at least, and nothing but digits. -/
def Digits (digit : Char → Option ℕ) (t : Text) (m : ℕ) : Prop :=
  t ≠ [] ∧ ∃ ds, t.mapM digit = some ds ∧ ofDigits ds = m

/-- Digits with single underscores between them. -/
inductive Underscored (digit : Char → Option ℕ) : Text → List ℕ → Prop
  | single {c : Char} {d : ℕ} : digit c = some d → Underscored digit [c] [d]
  | next {c : Char} {d : ℕ} {t : Text} {ds : List ℕ} :
      digit c = some d → Underscored digit t ds → Underscored digit (c :: t) (d :: ds)
  | underscore {c : Char} {d : ℕ} {t : Text} {ds : List ℕ} :
      digit c = some d → Underscored digit t ds → Underscored digit (c :: '_' :: t) (d :: ds)

/-- ASCII digits with no further digit behind them. -/
def Leading (t : Text) (m : ℕ) : Prop :=
  ∃ digits rest, t = digits ++ rest ∧ Digits asciiDigit digits m ∧
    ∀ c, rest.head? = some c → c.isDigit = false

/-- Between blanks a sign and digits, in the range of an `int`. -/
def JavaInteger (U : Unicode) (v : Text) (n : ℤ) : Prop :=
  Signed (Digits U.javaDigit) (trim isJavaBlank v) n ∧ Int32 n

/-- Between white space a sign and digits, no more of them than Python converts. -/
def PythonInteger (U : Unicode) (v : Text) (n : ℤ) : Prop :=
  Signed (fun t m => ∃ ds, Underscored U.pythonDigit t ds ∧ U.convertible ds.length = true ∧
    ofDigits ds = m) (trim U.pythonSpace v) n

/-- Behind white space a sign and digits in the range of an `int`, whatever follows. -/
def CppInteger (w : Text) (n : ℤ) : Prop := Signed Leading (w.dropWhile isBlank) n ∧ Int32 n

theorem not_digits_sign {digit : Char → Option ℕ}
    (hdigit : ∀ c, c.toNat < 128 → digit c = asciiDigit c) {c : Char} (hc : c = '-' ∨ c = '+')
    (t : Text) (m : ℕ) : ¬ Digits digit (c :: t) m := by
  rintro ⟨-, ds, hds, -⟩
  have hnone : digit c = none := by
    rcases hc with rfl | rfl <;> exact hdigit _ (by decide)
  rw [List.mapM_cons, hnone] at hds
  cases hds

theorem javaNatural_eq_some_iff {U : Unicode} (t : Text) (m : ℕ) :
    javaNatural U t = some m ↔ Digits U.javaDigit t m := by
  rw [javaNatural, Digits]
  by_cases ht : t = []
  · simp [ht]
  · simp [ht]

theorem parseInt_eq_some_iff {U : Unicode} {v : Text} {n : ℤ} :
    parseInt U (trim isJavaBlank v) = some n ↔ JavaInteger U v n := by
  rw [parseInt, Option.filter_eq_some_iff, decide_eq_true_iff,
    signed_eq_some_iff javaNatural_eq_some_iff
      fun c t m hc => not_digits_sign U.javaDigit_ascii hc t m]
  rfl

theorem pythonDigits_eq_some_iff {U : Unicode} {t : Text} {ds : List ℕ} :
    pythonDigits U t = some ds ↔ Underscored U.pythonDigit t ds := by
  have hunderscore : U.pythonDigit '_' = none := U.pythonDigit_ascii '_' (by decide)
  fun_induction pythonDigits U t generalizing ds with
  | case1 =>
    constructor
    · intro h
      cases h
    · intro h
      cases h
  | case2 c =>
    rw [Option.map_eq_some_iff]
    constructor
    · rintro ⟨d, hd, rfl⟩
      exact .single hd
    · intro h
      cases h with
      | single hd => exact ⟨_, hd, rfl⟩
      | next hd h => cases h
  | case3 c cs ih =>
    simp only [Option.bind_eq_some_iff, Option.map_eq_some_iff, ih]
    constructor
    · rintro ⟨d, hd, ds', hds', rfl⟩
      exact .underscore hd hds'
    · intro h
      cases h with
      | underscore hd h => exact ⟨_, hd, _, h, rfl⟩
      | next hd h =>
        -- an underscore is no digit
        cases h <;> simp_all
  | case4 c cs hne hcs ih =>
    simp only [Option.bind_eq_some_iff, Option.map_eq_some_iff, ih]
    constructor
    · rintro ⟨d, hd, ds', hds', rfl⟩
      exact .next hd hds'
    · intro h
      cases h with
      | single hd => exact absurd rfl hne
      | next hd h => exact ⟨_, hd, _, h, rfl⟩
      | underscore hd h => exact absurd rfl (hcs _)

theorem pythonInt_eq_some_iff {U : Unicode} {v : Text} {n : ℤ} :
    pythonInt U (trim U.pythonSpace v) = some n ↔ PythonInteger U v n := by
  rw [pythonInt, trim_trim, PythonInteger]
  apply signed_eq_some_iff
  · intro t m
    simp only [pythonNatural, Option.map_eq_some_iff, Option.filter_eq_some_iff,
      pythonDigits_eq_some_iff, and_assoc]
  · rintro c t m hc ⟨ds, hds, -⟩
    have hnone : U.pythonDigit c = none := by
      rcases hc with rfl | rfl <;> exact U.pythonDigit_ascii _ (by decide)
    cases hds <;> simp_all

theorem naturalValue_eq_some_iff (t : Text) (m : ℕ) :
    naturalValue t = some m ↔ Digits asciiDigit t m := by
  rw [naturalValue, Digits, mapM_asciiDigit]
  by_cases ht : t = []
  · simp [ht]
  · by_cases hall : t.all Char.isDigit = true
    · simp [ht, hall, ofDigits_digitValues]
    · simp [ht, hall]

theorem all_isDigit_of_digits {t : Text} {m : ℕ} (h : Digits asciiDigit t m) :
    ∀ c ∈ t, c.isDigit = true := by
  obtain ⟨-, ds, hds, -⟩ := h
  rw [mapM_asciiDigit] at hds
  split_ifs at hds with hall
  exact List.all_eq_true.mp hall

theorem leading_iff (t : Text) (m : ℕ) :
    naturalValue (t.takeWhile Char.isDigit) = some m ↔ Leading t m := by
  rw [naturalValue_eq_some_iff]
  constructor
  · intro h
    refine ⟨_, _, (List.takeWhile_append_dropWhile (p := Char.isDigit)).symm, h, fun c hc => ?_⟩
    have hne : t.dropWhile Char.isDigit ≠ [] := by
      intro hnil
      simp [hnil] at hc
    have hnot := List.head_dropWhile_not Char.isDigit hne
    rwa [(List.head_eq_iff_head?_eq_some hne).mpr hc] at hnot
  · rintro ⟨digits, rest, rfl, h, hrest⟩
    have hstop : rest.takeWhile Char.isDigit = [] := by
      cases rest with
      | nil => rfl
      | cons c rest => rw [List.takeWhile_cons_of_neg (by simp [hrest c rfl])]
    rw [List.takeWhile_append_of_pos (all_isDigit_of_digits h), hstop, List.append_nil]
    exact h

theorem stoi_eq_some_iff {w : Text} {n : ℤ} : stoi w = some n ↔ CppInteger w n := by
  rw [stoi, Option.filter_eq_some_iff, decide_eq_true_iff, signed_eq_some_iff leading_iff]
  · rfl
  · rintro c t m hc ⟨digits, rest, ht, hdigits, -⟩
    cases digits with
    | nil => exact hdigits.1 rfl
    | cons d digits =>
      obtain ⟨rfl, -⟩ := List.cons.inj ht
      exact not_digits_sign (fun _ _ => rfl) hc digits m hdigits

/-- The line is the key, `=` and a value, with blanks in front of the key and behind it. -/
def Spells (blank : Char → Bool) (k : Key) (line v : Text) : Prop :=
  ∃ a b, line = a ++ (k.text ++ (b ++ '=' :: v)) ∧ ∀ c ∈ a ++ b, blank c = true

/-- The line is the key between blanks. -/
def Alone (blank : Char → Bool) (k : Key) (line : Text) : Prop :=
  ∃ a b, line = a ++ (k.text ++ b) ∧ ∀ c ∈ a ++ b, blank c = true

def JavaNames (k : Key) (l : Line) (v : Text) : Prop := Spells isJavaBlank k l.text v

/-- Without `=` the value is empty. -/
def PythonNames (U : Unicode) (k : Key) (l : Line) (v : Text) : Prop :=
  Spells U.pythonSpace k l.text v ∨ (Alone U.pythonSpace k l.text ∧ v = [])

/-- Behind a line feed, or at the start of the text, come the key and `=` at once. The value goes
on to the next line feed. -/
def CppNames (k : Key) (l : Line) (w : Text) : Prop := l.whole = some (k.text ++ '=' :: w)

/-- The line names the key in Java or in Python. -/
def Mentions (U : Unicode) (k : Key) (l : Line) : Prop :=
  (∃ v, JavaNames k l v) ∨ ∃ v, PythonNames U k l v

theorem key_ascii {k : Key} : ∀ {c : Char}, c ∈ k.text → 94 < c.toNat ∧ c.toNat < 128 := by
  have hkeys : ∀ c ∈ k.text, (94 < c.toNat && c.toNat < 128) = true := by
    cases k <;> exact forall_toList (by decide)
  intro c hc
  simpa using hkeys c hc

theorem key_ne_nil (k : Key) : k.text ≠ [] := by
  cases k <;> decide

theorem key_not_comment (k : Key) (s : Text) :
    ¬ (k.text ++ s = [] ∨ (k.text ++ s).head? = some '#') := by
  obtain ⟨c, cs, hk⟩ := List.exists_cons_of_ne_nil (key_ne_nil k)
  have hascii := key_ascii (k := k) (c := c) (by simp [hk])
  rw [hk]
  rintro (hnil | hhead)
  · cases hnil
  · simp only [List.cons_append, List.head?_cons, Option.some.injEq] at hhead
    rw [hhead] at hascii
    exact absurd hascii (by decide)

/-- Both notions of blanks leave the visible characters of ASCII alone. -/
structure Blanks (blank : Char → Bool) : Prop where
  visible : ∀ c, 32 < c.toNat → c.toNat < 128 → blank c = false
  blank : ∀ c, isBlank c = true → blank c = true

theorem blanks_java : Blanks isJavaBlank where
  visible := fun c h _ => by simpa [isJavaBlank] using h
  blank := fun c h => by
    simp only [isBlank, Bool.or_eq_true, Bool.and_eq_true, decide_eq_true_eq] at h
    simp only [isJavaBlank, decide_eq_true_eq]
    omega

theorem blanks_python (U : Unicode) : Blanks U.pythonSpace where
  visible := fun c h h' => by
    rw [U.pythonSpace_ascii c h', isAsciiSpace, Bool.or_eq_false_iff]
    simp only [Bool.and_eq_false_iff, decide_eq_false_iff_not]
    omega
  blank := fun c h => by
    simp only [isBlank, Bool.or_eq_true, Bool.and_eq_true, decide_eq_true_eq] at h
    rw [U.pythonSpace_ascii c (by omega), isAsciiSpace]
    simp only [Bool.or_eq_true, Bool.and_eq_true, decide_eq_true_eq]
    omega

theorem Blanks.trim_key {blank : Char → Bool} (h : Blanks blank) (k : Key) :
    trim blank k.text = k.text := by
  have hchar {c : Char} (hc : c ∈ k.text) : blank c = false := by
    have hascii := key_ascii hc
    exact h.visible c (by omega) (by omega)
  apply trim_eq_self
  · exact fun c hc => hchar (List.mem_of_mem_head? hc)
  · exact fun c hc => hchar (List.mem_of_mem_getLast? hc)

theorem equals_notMem_key (k : Key) : '=' ∉ k.text := by
  intro hmem
  exact absurd (key_ascii hmem) (by decide)

section Assignments
variable {blank : Char → Bool} (h : Blanks blank) {bare : Text → Option (Text × Text)} {k : Key}
  {line v x : Text}
include h

theorem Blanks.trim_cons_key (k : Key) (s : Text) :
    trim blank (k.text ++ s) = (k.text ++ s).rdropWhile blank := by
  obtain ⟨c, cs, hk⟩ := List.exists_cons_of_ne_nil (key_ne_nil k)
  have hascii := key_ascii (k := k) (c := c) (by simp [hk])
  have hc : blank c = false := h.visible c (by omega) (by omega)
  rw [hk, List.cons_append, trim, List.dropWhile_cons_of_neg (by simp [hc])]

theorem trimmedAssignment_of_spells (hs : Spells blank k line v) :
    trimmedAssignment blank bare line = some (k.text, trim blank v) := by
  obtain ⟨a, b, rfl, hab⟩ := hs
  have ha : ∀ c ∈ a, blank c = true := fun c hc => hab c (List.mem_append_left b hc)
  have hb : ∀ c ∈ b, blank c = true := fun c hc => hab c (List.mem_append_right a hc)
  have hequals : blank '=' = false := h.visible '=' (by decide) (by decide)
  have hline : trim blank (a ++ (k.text ++ (b ++ '=' :: v))) =
      k.text ++ b ++ '=' :: v.rdropWhile blank := by
    rw [trim_append_left ha, h.trim_cons_key, ← List.append_assoc, rdropWhile_append_cons hequals]
  have hcut : cutAt '=' (k.text ++ b ++ '=' :: v.rdropWhile blank) =
      some (k.text ++ b, v.rdropWhile blank) := by
    apply cutAt_append
    rw [List.mem_append, not_or]
    refine ⟨equals_notMem_key k, fun hmem => ?_⟩
    rw [hb '=' hmem] at hequals
    cases hequals
  have hvalue : trim blank (v.rdropWhile blank) = trim blank v := by
    conv_rhs => rw [← List.rdropWhile_append_rtakeWhile (p := blank) (l := v)]
    exact (trim_append_right fun c hc => List.mem_rtakeWhile_imp hc).symm
  have hcomment := key_not_comment k (b ++ '=' :: v.rdropWhile blank)
  rw [← List.append_assoc] at hcomment
  simp only [trimmedAssignment, hline, if_neg hcomment, hcut, trim_append_right hb, h.trim_key,
    hvalue]

theorem trimmedAssignment_of_alone (halone : Alone blank k line) :
    trimmedAssignment blank bare line = bare k.text := by
  obtain ⟨a, b, rfl, hab⟩ := halone
  have ha : ∀ c ∈ a, blank c = true := fun c hc => hab c (List.mem_append_left b hc)
  have hb : ∀ c ∈ b, blank c = true := fun c hc => hab c (List.mem_append_right a hc)
  have hcomment := key_not_comment k []
  rw [List.append_nil] at hcomment
  simp only [trimmedAssignment, trim_append_left ha, trim_append_right hb, h.trim_key,
    if_neg hcomment, cutAt_eq_none_iff.mpr (equals_notMem_key k)]

omit h in
/-- An assignment to the key comes from a line that spells it, or from one without `=`. -/
theorem spells_of_trimmedAssignment (hx : trimmedAssignment blank bare line = some (k.text, x)) :
    (∃ v, Spells blank k line v ∧ trim blank v = x) ∨ bare (trim blank line) = some (k.text, x) := by
  rw [trimmedAssignment] at hx
  split_ifs at hx
  split at hx
  · next key value hcut =>
    obtain ⟨hline, -⟩ := cutAt_eq_some_iff.mp hcut
    obtain ⟨hkey, rfl⟩ := Prod.mk.inj (Option.some.inj hx)
    obtain ⟨a, b, htrim, ha, hb⟩ := exists_trim blank line
    obtain ⟨a', b', hkey', ha', hb'⟩ := exists_trim blank key
    rw [hkey] at hkey'
    refine .inl ⟨value ++ b, ⟨a ++ a', b', ?_, ?_⟩, trim_append_right hb⟩
    · rw [htrim, hline, hkey']
      simp
    · intro c hc
      rcases List.mem_append.mp hc with hc | hc
      · rcases List.mem_append.mp hc with hc | hc
        · exact ha c hc
        · exact ha' c hc
      · exact hb' c hc
  · exact .inr hx

end Assignments

theorem javaAssignment_eq_some_iff (k : Key) (l : Line) (x : Text) :
    javaAssignment l = some (k.text, x) ↔ ∃ v, JavaNames k l v ∧ trim isJavaBlank v = x := by
  rw [javaAssignment, javaLine]
  constructor
  · intro h
    rcases spells_of_trimmedAssignment h with hv | hbare
    · exact hv
    · cases hbare
  · rintro ⟨v, hv, rfl⟩
    exact trimmedAssignment_of_spells blanks_java hv

theorem pythonAssignment_eq_some_iff (U : Unicode) (k : Key) (l : Line) (x : Text) :
    pythonAssignment U l = some (k.text, x) ↔
      ∃ v, PythonNames U k l v ∧ trim U.pythonSpace v = x := by
  rw [pythonAssignment, pythonLine]
  constructor
  · intro h
    rcases spells_of_trimmedAssignment h with ⟨v, hv, rfl⟩ | hbare
    · exact ⟨v, .inl hv, rfl⟩
    · obtain ⟨hkey, rfl⟩ := Prod.mk.inj (Option.some.inj hbare)
      obtain ⟨a, b, hline, ha, hb⟩ := exists_trim U.pythonSpace l.text
      rw [trim_trim] at hkey
      rw [hkey, List.append_assoc] at hline
      refine ⟨[], .inr ⟨⟨a, b, hline, fun c hc => ?_⟩, rfl⟩, rfl⟩
      rcases List.mem_append.mp hc with hc | hc
      · exact ha c hc
      · exact hb c hc
  · rintro ⟨v, hv | ⟨halone, rfl⟩, rfl⟩
    · exact trimmedAssignment_of_spells (blanks_python U) hv
    · rw [trimmedAssignment_of_alone (blanks_python U) halone, (blanks_python U).trim_key]
      rfl

theorem cppAssignment_eq_some_iff (k : Key) (l : Line) (w : Text) :
    cppAssignment l = some (k.text, w) ↔ CppNames k l w := by
  rw [cppAssignment, CppNames, Option.bind_eq_some_iff]
  constructor
  · rintro ⟨whole, hwhole, hline⟩
    rw [cppLine] at hline
    split_ifs at hline
    rw [hwhole, (cutAt_eq_some_iff.mp hline).1]
  · intro hwhole
    refine ⟨_, hwhole, ?_⟩
    rw [cppLine, if_neg (key_not_comment k _), cutAt_append (equals_notMem_key k)]

/-- A line that begins with the key and `=` for the C++ reader does so for the others, and its value
ends at a carriage return for them. -/
theorem CppNames.text_eq {k : Key} {l : Line} {w : Text} (h : CppNames k l w) :
    ∃ v tail, l.text = k.text ++ '=' :: v ∧ w = v ++ tail ∧
      (tail = [] ∨ tail.head? = some '\r') := by
  obtain ⟨tail, hw, htail⟩ := l.starts _ h
  rcases List.append_eq_append_iff.mp hw with ⟨c, htext, hc⟩ | ⟨c, hkey, hc⟩
  · cases c with
    | nil =>
      -- the line would end in front of `=`
      rw [List.nil_append] at hc
      rcases htail with rfl | htail
      · cases hc
      · rw [← hc] at htail
        exact absurd (Option.some.inj htail) (by decide)
    | cons d v =>
      obtain ⟨rfl, rfl⟩ := List.cons.inj hc
      exact ⟨v, tail, htext, rfl, htail⟩
  · -- the line would end inside the key
    exfalso
    rcases htail with rfl | htail
    · simp at hc
    · cases c with
      | nil =>
        rw [hc] at htail
        exact absurd (Option.some.inj htail) (by decide)
      | cons d c =>
        have hd : d = '\r' := by simpa [hc] using htail
        have hmem : '\r' ∈ k.text := by simp [hkey, hd]
        exact absurd (key_ascii hmem) (by decide)

theorem spells_plain (blank : Char → Bool) (k : Key) (v : Text) :
    Spells blank k (k.text ++ '=' :: v) v := ⟨[], [], rfl, by simp⟩

theorem javaNames_plain {k : Key} {l : Line} {v : Text} (h : l.text = k.text ++ '=' :: v) :
    JavaNames k l v := by
  rw [JavaNames, h]
  exact spells_plain isJavaBlank k v

theorem pythonNames_plain {k : Key} {l : Line} {v : Text} (h : l.text = k.text ++ '=' :: v)
    (U : Unicode) : PythonNames U k l v := by
  rw [PythonNames, h]
  exact .inl (spells_plain U.pythonSpace k v)

theorem CppNames.mentions {k : Key} {l : Line} {w : Text} (h : CppNames k l w) (U : Unicode) :
    Mentions U k l := by
  obtain ⟨v, tail, htext, -⟩ := h.text_eq
  exact .inl ⟨v, javaNames_plain htext⟩

/-- All three describe one integer, or none of them describes any. -/
def SameOrNone (java python cpp : ℤ → Prop) : Prop :=
  (∃ n, java n ∧ python n ∧ cpp n) ∨ ∀ n, ¬ java n ∧ ¬ python n ∧ ¬ cpp n

theorem sameOrNone_iff {java python cpp : ℤ → Prop} {x y z : Option ℤ}
    (hjava : ∀ n, x = some n ↔ java n) (hpython : ∀ n, y = some n ↔ python n)
    (hcpp : ∀ n, z = some n ↔ cpp n) : x = z ∧ y = z ↔ SameOrNone java python cpp := by
  simp only [SameOrNone, ← hjava, ← hpython, ← hcpp]
  cases z with
  | none =>
    simp only [reduceCtorEq, and_false, exists_false, false_or, not_false_eq_true, and_true]
    constructor
    · rintro ⟨rfl, rfl⟩ n
      exact ⟨nofun, nofun⟩
    · intro h
      exact ⟨Option.eq_none_iff_forall_ne_some.mpr fun n => (h n).1,
        Option.eq_none_iff_forall_ne_some.mpr fun n => (h n).2⟩
  | some n =>
    constructor
    · rintro ⟨rfl, rfl⟩
      exact .inl ⟨n, rfl, rfl, rfl⟩
    · rintro (⟨m, rfl, rfl, hm⟩ | h)
      · exact ⟨hm.symm, hm.symm⟩
      · exact absurd rfl (h n).2.2

/-- The line is the last one to name the key, in Java or in Python. -/
def LastMention (U : Unicode) (k : Key) (t : Text) (l : Line) : Prop :=
  ∃ front rest, manifestLines t = front ++ l :: rest ∧ Mentions U k l ∧
    ∀ r ∈ rest, ¬ Mentions U k r

/-- No line names the key, or the last one that does begins with the key and `=`, right behind a
line feed or at the start of the text, and its value is the same integer in all three languages or
an integer in none. -/
def Uniform (U : Unicode) (k : Key) (t : Text) : Prop :=
  (∀ l ∈ manifestLines t, ¬ Mentions U k l) ∨
    ∃ l v w, LastMention U k t l ∧ l.text = k.text ++ '=' :: v ∧ CppNames k l w ∧
      SameOrNone (JavaInteger U v) (PythonInteger U v) (CppInteger w)

section Readings
variable (U : Unicode) (k : Key) (t : Text)

theorem javaReading_eq_some_iff (n : ℤ) : javaReading U k t = some n ↔
    ∃ v, LastNamed (JavaNames k) (manifestLines t) v ∧ JavaInteger U v n := by
  rw [javaReading_eq, bind_lastValue_eq_some_iff (javaAssignment_eq_some_iff k)]
  simp only [parseInt_eq_some_iff]

theorem pythonReading_eq_some_iff (n : ℤ) : pythonReading U k t = some n ↔
    ∃ v, LastNamed (PythonNames U k) (manifestLines t) v ∧ PythonInteger U v n := by
  rw [pythonReading_eq, bind_lastValue_eq_some_iff (pythonAssignment_eq_some_iff U k)]
  simp only [pythonInt_eq_some_iff]

theorem cppReading_eq_some_iff (n : ℤ) : cppReading k t = some n ↔
    ∃ w, LastNamed (CppNames k) (manifestLines t) w ∧ CppInteger w n := by
  have hnames (l : Line) (x : Text) :
      cppAssignment l = some (k.text, x) ↔ ∃ w, CppNames k l w ∧ id w = x := by
    simp [cppAssignment_eq_some_iff]
  rw [cppReading_eq, bind_lastValue_eq_some_iff hnames]
  simp only [id_eq, stoi_eq_some_iff]

/-- The readers agree when the last lines of the three languages carry one integer or none. -/
theorem agree_iff_sameOrNone : Agree U k t ↔
    SameOrNone (fun n => ∃ v, LastNamed (JavaNames k) (manifestLines t) v ∧ JavaInteger U v n)
      (fun n => ∃ v, LastNamed (PythonNames U k) (manifestLines t) v ∧ PythonInteger U v n)
      (fun n => ∃ w, LastNamed (CppNames k) (manifestLines t) w ∧ CppInteger w n) := by
  rw [agree_iff]
  exact sameOrNone_iff (javaReading_eq_some_iff U k t) (pythonReading_eq_some_iff U k t)
    (cppReading_eq_some_iff k t)

end Readings

theorem agree_of_unmentioned {U : Unicode} {k : Key} {t : Text}
    (h : ∀ l ∈ manifestLines t, ¬ Mentions U k l) : Agree U k t := by
  rw [agree_iff_sameOrNone]
  refine .inr fun n => ⟨?_, ?_, ?_⟩
  · rintro ⟨v, ⟨front, l, rest, hlines, hl, -⟩, -⟩
    exact h l (by simp [hlines]) (.inl ⟨v, hl⟩)
  · rintro ⟨v, ⟨front, l, rest, hlines, hl, -⟩, -⟩
    exact h l (by simp [hlines]) (.inr ⟨v, hl⟩)
  · rintro ⟨w, ⟨front, l, rest, hlines, hl, -⟩, -⟩
    exact h l (by simp [hlines]) (hl.mentions U)

/-- Where the last line that names the key is plain, every reader takes its value. -/
theorem agree_iff_of_plain {U : Unicode} {k : Key} {t v w : Text} {l : Line}
    (hlast : LastMention U k t l) (htext : l.text = k.text ++ '=' :: v) (hw : CppNames k l w) :
    Agree U k t ↔ SameOrNone (JavaInteger U v) (PythonInteger U v) (CppInteger w) := by
  obtain ⟨front, rest, hlines, -, hrest⟩ := hlast
  have hjava : lastValue javaAssignment k.text (manifestLines t) = some (trim isJavaBlank v) := by
    rw [hlines]
    apply lastValue_eq_some
    · exact (javaAssignment_eq_some_iff k l _).mpr ⟨v, javaNames_plain htext, rfl⟩
    · intro r hr x hx
      obtain ⟨u, hu, -⟩ := (javaAssignment_eq_some_iff k r x).mp hx
      exact hrest r hr (.inl ⟨u, hu⟩)
  have hpython : lastValue (pythonAssignment U) k.text (manifestLines t) =
      some (trim U.pythonSpace v) := by
    rw [hlines]
    apply lastValue_eq_some
    · exact (pythonAssignment_eq_some_iff U k l _).mpr ⟨v, pythonNames_plain htext U, rfl⟩
    · intro r hr x hx
      obtain ⟨u, hu, -⟩ := (pythonAssignment_eq_some_iff U k r x).mp hx
      exact hrest r hr (.inr ⟨u, hu⟩)
  have hcpp : lastValue cppAssignment k.text (manifestLines t) = some w := by
    rw [hlines]
    apply lastValue_eq_some
    · exact (cppAssignment_eq_some_iff k l w).mpr hw
    · exact fun r hr x hx => hrest r hr (((cppAssignment_eq_some_iff k r x).mp hx).mentions U)
  rw [agree_iff, javaReading_eq, pythonReading_eq, cppReading_eq, hjava, hpython, hcpp]
  exact sameOrNone_iff (fun n => parseInt_eq_some_iff) (fun n => pythonInt_eq_some_iff)
    fun n => stoi_eq_some_iff

/-- An integer in ASCII digits between blanks, in the range of every reader. -/
def Numeral (U : Unicode) (v : Text) (n : ℤ) : Prop :=
  ∃ a s b, v = a ++ s ++ b ∧ (∀ c ∈ a, isBlank c = true) ∧
    (∀ c ∈ b, isJavaBlank c = true ∧ U.pythonSpace c = true) ∧ integerValue s = some n ∧
    Int32 n ∧ U.convertible (s.countP Char.isDigit) = true

theorem visible_of_integerValue {s : Text} {n : ℤ} (h : integerValue s = some n) {c : Char}
    (hc : c ∈ s) : 32 < c.toNat ∧ c.toNat < 128 := by
  rcases mem_of_integerValue h hc with hdigit | rfl | rfl
  · have hrange : 48 ≤ c.toNat ∧ c.toNat ≤ 57 := Char.isDigit_iff_toNat.mp hdigit
    omega
  · decide
  · decide

theorem Blanks.trim_numeral {blank : Char → Bool} (h : Blanks blank) {a s b : Text} {n : ℤ}
    (hs : integerValue s = some n) (ha : ∀ c ∈ a, blank c = true) (hb : ∀ c ∈ b, blank c = true) :
    trim blank (a ++ s ++ b) = s := by
  have hvisible {c : Char} (hc : c ∈ s) : blank c = false :=
    h.visible c (visible_of_integerValue hs hc).1 (visible_of_integerValue hs hc).2
  rw [trim_append_right hb, trim_append_left ha]
  apply trim_eq_self
  · exact fun c hc => hvisible (List.mem_of_mem_head? hc)
  · exact fun c hc => hvisible (List.mem_of_mem_getLast? hc)

theorem not_isDigit_of_javaBlank {c : Char} (h : isJavaBlank c = true) : c.isDigit = false := by
  rw [isJavaBlank, decide_eq_true_eq] at h
  rw [Bool.eq_false_iff]
  intro hdigit
  have hrange : 48 ≤ c.toNat ∧ c.toNat ≤ 57 := Char.isDigit_iff_toNat.mp hdigit
  omega

theorem valueOf_eq {s : Text} {n : ℤ} (hs : integerValue s = some n) (hint : Int32 n) :
    valueOf s = some n := by
  simp [valueOf, hs, hint]

/-- Every reader reads a numeral. -/
theorem Numeral.integer {U : Unicode} {v tail : Text} {n : ℤ} (h : Numeral U v n)
    (htail : tail = [] ∨ tail.head? = some '\r') :
    JavaInteger U v n ∧ PythonInteger U v n ∧ CppInteger (v ++ tail) n := by
  rw [← parseInt_eq_some_iff, ← pythonInt_eq_some_iff, ← stoi_eq_some_iff]
  obtain ⟨a, s, b, rfl, ha, hb, hs, hint, hconv⟩ := h
  have hjava : trim isJavaBlank (a ++ s ++ b) = s :=
    blanks_java.trim_numeral hs (fun c hc => blanks_java.blank c (ha c hc)) fun c hc => (hb c hc).1
  have hpython : trim U.pythonSpace (a ++ s ++ b) = s :=
    (blanks_python U).trim_numeral hs (fun c hc => (blanks_python U).blank c (ha c hc))
      fun c hc => (hb c hc).2
  have hrest : ∀ c, (b ++ tail).head? = some c → c.isDigit = false := by
    intro c hc
    cases b with
    | nil =>
      rcases htail with rfl | htail
      · cases hc
      · rw [List.nil_append, htail, Option.some.injEq] at hc
        rw [← hc]
        rfl
    | cons d b =>
      obtain rfl : d = c := by simpa using hc
      exact not_isDigit_of_javaBlank (hb d (by simp)).1
  refine ⟨?_, ?_, ?_⟩
  · rw [hjava, parseInt_eq fun c hc => (visible_of_integerValue hs hc).2, valueOf_eq hs hint]
  · rw [pythonInt, trim_trim, hpython, signed_pythonNatural hs, if_pos hconv]
  · rw [List.append_assoc, stoi_of_integerValue hs ha hrest, if_pos hint]

theorem Uniform.agree {U : Unicode} {k : Key} {t : Text} (h : Uniform U k t) : Agree U k t := by
  rcases h with hnone | ⟨l, v, w, hlast, htext, hw, hsame⟩
  · exact agree_of_unmentioned hnone
  · exact (agree_iff_of_plain hlast htext hw).mpr hsame

end AbacMiddleLayer.Harness
