import AbacMiddleLayer.Decimal

/-! # JSON tokens

The lexical level of Python's `json.loads`, as a machine that reads a character at a time:
escapes in strings, control characters refused, words (literals and numbers) taken as a
whole. A string is the list of its code points, in which surrogates may stand alone.
-/
namespace AbacMiddleLayer.Json

inductive Mark where
  | leftBrace
  | rightBrace
  | leftBracket
  | rightBracket
  | comma
  | colon
deriving DecidableEq, Repr

inductive Scalar where
  | null
  | bool (b : Bool)
  | number (w : Text)
  | str (s : List ℕ)
deriving DecidableEq, Repr

inductive Token where
  | mark (m : Mark)
  | scalar (s : Scalar)
deriving DecidableEq, Repr

def Mark.ofChar (c : Char) : Option Mark :=
  if c = '\x7b' then some .leftBrace
  else if c = '\x7d' then some .rightBrace
  else if c = '[' then some .leftBracket
  else if c = ']' then some .rightBracket
  else if c = ',' then some .comma
  else if c = ':' then some .colon
  else none

def isSpace (c : Char) : Bool := c = ' ' || c = '\t' || c = '\n' || c = '\r'

def isWordChar (c : Char) : Bool := !isSpace c && c ≠ '"' && (Mark.ofChar c).isNone

def isExponent : Text → Bool
  | [] => true
  | 'e' :: '+' :: s | 'E' :: '+' :: s | 'e' :: '-' :: s | 'E' :: '-' :: s | 'e' :: s | 'E' :: s =>
    s ≠ [] && s.all Char.isDigit
  | _ => false

def isFraction : Text → Bool
  | '.' :: s => s.takeWhile Char.isDigit ≠ [] && isExponent (s.dropWhile Char.isDigit)
  | s => isExponent s

def isUnsignedNumber (s : Text) : Bool :=
  let digits := s.takeWhile Char.isDigit
  (digits = ['0'] || (digits ≠ [] && digits.head? ≠ some '0')) && isFraction (s.dropWhile Char.isDigit)

def isNumber : Text → Bool
  | '-' :: s => isUnsignedNumber s
  | s => isUnsignedNumber s

/-- The literals and numbers that `json.loads` knows. -/
def readWord (w : Text) : Option Scalar :=
  if w = "null".toList then some .null
  else if w = "true".toList then some (.bool true)
  else if w = "false".toList then some (.bool false)
  else if isNumber w || w = "NaN".toList || w = "Infinity".toList || w = "-Infinity".toList then
    some (.number w)
  else none

def simpleEscape (c : Char) : Option ℕ :=
  if c = '"' then some 34
  else if c = '\\' then some 92
  else if c = '/' then some 47
  else if c = 'b' then some 8
  else if c = 'f' then some 12
  else if c = 'n' then some 10
  else if c = 'r' then some 13
  else if c = 't' then some 9
  else none

def hexDigit (c : Char) : Option ℕ :=
  if c.isDigit then some (c.toNat - 48)
  else if 'a' ≤ c ∧ c ≤ 'f' then some (c.toNat - 87)
  else if 'A' ≤ c ∧ c ≤ 'F' then some (c.toNat - 55)
  else none

def ofHex (ds : List ℕ) : ℕ := ds.foldl (fun n d => 16 * n + d) 0

def isHigh (n : ℕ) : Bool := 0xD800 ≤ n && n ≤ 0xDBFF

def isLow (n : ℕ) : Bool := 0xDC00 ≤ n && n ≤ 0xDFFF

/-- Two halves of a surrogate pair in a row are one code point. -/
def joinSurrogates : List ℕ → List ℕ
  | high :: low :: s =>
    if isHigh high && isLow low then
      (0x10000 + (high - 0xD800) * 0x400 + (low - 0xDC00)) :: joinSurrogates s
    else high :: joinSurrogates (low :: s)
  | s => s

inductive Mode where
  | outside
  | inWord (w : Text)
  | inString (acc : List ℕ)
  | escaped (acc : List ℕ)
  | unicode (acc : List ℕ) (digits : List ℕ)
deriving DecidableEq, Repr

def enter (c : Char) : List Token × Mode :=
  if isSpace c then ([], .outside)
  else if c = '"' then ([], .inString [])
  else match Mark.ofChar c with
    | some m => ([.mark m], .outside)
    | none => ([], .inWord [c])

def prepend (ts : List Token) (r : List Token × Mode) : List Token × Mode := (ts ++ r.1, r.2)

def step : Mode → Char → Option (List Token × Mode)
  | .outside, c => some (enter c)
  | .inWord w, c =>
    if isWordChar c then some ([], .inWord (w ++ [c]))
    else (readWord w).map fun s => prepend [.scalar s] (enter c)
  | .inString acc, c =>
    if c = '"' then some ([.scalar (.str (joinSurrogates acc))], .outside)
    else if c = '\\' then some ([], .escaped acc)
    else if c.toNat < 32 then none
    else some ([], .inString (acc ++ [c.toNat]))
  | .escaped acc, c =>
    if c = 'u' then some ([], .unicode acc [])
    else (simpleEscape c).map fun n => ([], .inString (acc ++ [n]))
  | .unicode acc digits, c =>
    (hexDigit c).map fun d =>
      if digits.length = 3 then ([], .inString (acc ++ [ofHex (digits ++ [d])]))
      else ([], .unicode acc (digits ++ [d]))

def scan : Mode → Text → Option (List Token × Mode)
  | m, [] => some ([], m)
  | m, c :: s => (step m c).bind fun r => (scan r.2 s).map (prepend r.1)

def finish : Mode → Option (List Token)
  | .outside => some []
  | .inWord w => (readWord w).map fun s => [.scalar s]
  | _ => none

def tokens (s : Text) : Option (List Token) :=
  (scan .outside s).bind fun r => (finish r.2).map (r.1 ++ ·)

@[simp] theorem prepend_nil (r : List Token × Mode) : prepend [] r = r := rfl

theorem prepend_prepend (ts us : List Token) (r : List Token × Mode) :
    prepend ts (prepend us r) = prepend (ts ++ us) r := by
  simp [prepend]

theorem scan_append (m : Mode) (s t : Text) :
    scan m (s ++ t) = (scan m s).bind fun r => (scan r.2 t).map (prepend r.1) := by
  induction s generalizing m with
  | nil => cases h : scan m t <;> simp [scan, h]
  | cons c s ih =>
    rw [List.cons_append, scan, scan]
    cases step m c with
    | none => rfl
    | some r =>
      simp only [Option.bind_some, ih]
      cases scan r.2 s with
      | none => rfl
      | some r' =>
        simp only [Option.bind_some, Option.map_some, Option.map_map]
        congr 1
        funext x
        exact prepend_prepend _ _ _

theorem scan_cons_of_step {m m' : Mode} {c : Char} {ts : List Token}
    (h : step m c = some (ts, m')) (s : Text) :
    scan m (c :: s) = (scan m' s).map (prepend ts) := by
  rw [scan, h, Option.bind_some]

theorem scan_cons_of_none {m : Mode} {c : Char} (h : step m c = none) (s : Text) :
    scan m (c :: s) = none := by
  rw [scan, h, Option.bind_none]

/-- A text that is complete by itself is read as such in front of a mark. -/
theorem scan_append_mark {s : Text} {ts : List Token} (h : tokens s = some ts) {c : Char}
    {m : Mark} (hc : Mark.ofChar c = some m) (t : Text) :
    scan .outside (s ++ c :: t) = (scan .outside t).map (prepend (ts ++ [.mark m])) := by
  have hspace : isSpace c = false := by
    rw [Bool.eq_false_iff]
    intro hspace
    simp only [isSpace, Bool.or_eq_true, decide_eq_true_eq] at hspace
    rcases hspace with ((rfl | rfl) | rfl) | rfl <;> cases hc
  have hquote : c ≠ '"' := by
    rintro rfl
    cases hc
  have henter : enter c = ([.mark m], .outside) := by
    simp [enter, hspace, hquote, hc]
  have hword : isWordChar c = false := by simp [isWordChar, hc]
  obtain ⟨⟨us, mode⟩, hscan, hfinish⟩ := Option.bind_eq_some_iff.mp h
  obtain ⟨vs, hvs, rfl⟩ := Option.map_eq_some_iff.mp hfinish
  have hstep : step mode c = some (vs ++ [.mark m], .outside) := by
    cases mode with
    | outside =>
      cases hvs
      rw [step, henter]
      rfl
    | inWord w =>
      obtain ⟨x, hx, rfl⟩ := Option.map_eq_some_iff.mp hvs
      rw [step, if_neg (by simp [hword]), hx, henter]
      rfl
    | inString acc => cases hvs
    | escaped acc => cases hvs
    | unicode acc digits => cases hvs
  rw [scan_append, hscan, Option.bind_some, scan_cons_of_step hstep, Option.map_map]
  congr 1
  funext x
  simp [prepend]

theorem scan_word {w : Text} (hw : ∀ c ∈ w, isWordChar c = true) (acc : Text) :
    scan (.inWord acc) w = some ([], .inWord (acc ++ w)) := by
  induction w generalizing acc with
  | nil => simp [scan]
  | cons c w ih =>
    have hstep : step (.inWord acc) c = some ([], .inWord (acc ++ [c])) :=
      if_pos (hw c (by simp))
    rw [scan_cons_of_step hstep, ih fun d hd => hw d (by simp [hd])]
    simp

theorem scan_outside_word {w : Text} (hne : w ≠ []) (hw : ∀ c ∈ w, isWordChar c = true) :
    scan .outside w = some ([], .inWord w) := by
  obtain ⟨c, w, rfl⟩ := List.exists_cons_of_ne_nil hne
  have hc := hw c (by simp)
  simp only [isWordChar, Bool.and_eq_true, Bool.not_eq_true', decide_eq_true_eq,
    Option.isNone_iff_eq_none] at hc
  have hstep : step .outside c = some ([], .inWord [c]) := by
    simp [step, enter, hc.1.1, hc.1.2, hc.2]
  rw [scan_cons_of_step hstep, scan_word fun d hd => hw d (by simp [hd])]
  rfl

theorem tokens_word {w : Text} (hne : w ≠ []) (hw : ∀ c ∈ w, isWordChar c = true) :
    tokens w = (readWord w).map fun s => [.scalar s] := by
  rw [tokens, scan_outside_word hne hw, Option.bind_some, finish]
  cases readWord w <;> rfl

def codes (s : Text) : List ℕ := s.map Char.toNat

def quoted (s : Text) : Text := '"' :: s ++ ['"']

/-- Quotes and backslashes behind a backslash. -/
def escape (s : Text) : Text := s.flatMap fun c => if c = '"' ∨ c = '\\' then ['\\', c] else [c]

def NoControl (s : Text) : Prop := ∀ c ∈ s, 32 ≤ c.toNat

instance (s : Text) : Decidable (NoControl s) :=
  List.decidableBAll (fun c : Char => 32 ≤ c.toNat) s

/-- Nothing that means anything inside quotes. -/
def Plain (s : Text) : Prop := ∀ c ∈ s, 32 ≤ c.toNat ∧ c ≠ '"' ∧ c ≠ '\\'

theorem joinSurrogates_eq_self {s : List ℕ} (h : ∀ n ∈ s, isHigh n = false) :
    joinSurrogates s = s := by
  fun_induction joinSurrogates s with
  | case1 high low s hpair =>
    rw [h high (by simp)] at hpair
    cases hpair
  | case2 high low s _ ih => rw [ih fun n hn => h n (by simp [hn])]
  | case3 s => rfl

theorem joinSurrogates_codes (s : Text) : joinSurrogates (codes s) = codes s := by
  apply joinSurrogates_eq_self
  intro n hn
  obtain ⟨c, -, rfl⟩ := List.mem_map.mp hn
  have hvalid : c.toNat < 0xD800 ∨ 0xDFFF < c.toNat := by
    rcases c.valid with h | h
    · exact .inl h
    · exact .inr h.1
  simp only [isHigh, Bool.and_eq_false_iff, decide_eq_false_iff_not]
  omega

theorem length_joinSurrogates_le (s : List ℕ) : (joinSurrogates s).length ≤ s.length := by
  fun_induction joinSurrogates s with
  | case1 high low s _ ih =>
    simp only [List.length_cons]
    omega
  | case2 high low s _ ih =>
    simp only [List.length_cons] at ih ⊢
    omega
  | case3 s => exact le_rfl

theorem step_inString {c : Char} (hcontrol : 32 ≤ c.toNat) (hquote : c ≠ '"')
    (hbackslash : c ≠ '\\') (acc : List ℕ) :
    step (.inString acc) c = some ([], .inString (acc ++ [c.toNat])) := by
  rw [step, if_neg hquote, if_neg hbackslash, if_neg (by omega)]

theorem step_control {c : Char} (hcontrol : c.toNat < 32) (acc : List ℕ) :
    step (.inString acc) c = none := by
  have hquote : c ≠ '"' := by
    rintro rfl
    exact absurd hcontrol (by decide)
  have hbackslash : c ≠ '\\' := by
    rintro rfl
    exact absurd hcontrol (by decide)
  rw [step, if_neg hquote, if_neg hbackslash, if_pos hcontrol]

theorem scan_plain {s : Text} (h : Plain s) (acc : List ℕ) :
    scan (.inString acc) s = some ([], .inString (acc ++ codes s)) := by
  induction s generalizing acc with
  | nil => simp [scan, codes]
  | cons c s ih =>
    obtain ⟨hcontrol, hquote, hbackslash⟩ := h c (by simp)
    rw [scan_cons_of_step (step_inString hcontrol hquote hbackslash acc),
      ih fun d hd => h d (by simp [hd])]
    simp [codes]

theorem scan_escape_char {c : Char} (hcontrol : 32 ≤ c.toNat) (acc : List ℕ) :
    scan (.inString acc) (if c = '"' ∨ c = '\\' then ['\\', c] else [c]) =
      some ([], .inString (acc ++ [c.toNat])) := by
  split_ifs with hc
  · rcases hc with rfl | rfl <;> rfl
  · rw [not_or] at hc
    rw [scan_cons_of_step (step_inString hcontrol hc.1 hc.2 acc)]
    rfl

/-- A string that was escaped is read back, or has a control character and is refused. -/
theorem scan_escape (s : Text) (acc : List ℕ) :
    scan (.inString acc) (escape s) =
      if NoControl s then some ([], .inString (acc ++ codes s)) else none := by
  induction s generalizing acc with
  | nil => simp [escape, scan, codes, NoControl]
  | cons c s ih =>
    rw [escape, List.flatMap_cons, scan_append]
    by_cases hc : 32 ≤ c.toNat
    · rw [scan_escape_char hc, Option.bind_some]
      change Option.map _ (scan _ (escape s)) = _
      rw [ih]
      by_cases hs : NoControl s
      · have hcons : NoControl (c :: s) := List.forall_mem_cons.mpr ⟨hc, hs⟩
        simp [hs, hcons, codes]
      · have hcons : ¬ NoControl (c :: s) := fun h => hs (List.forall_mem_cons.mp h).2
        simp [hs, hcons]
    · have hcons : ¬ NoControl (c :: s) := fun h => hc (List.forall_mem_cons.mp h).1
      have hnone : step (.inString acc) c = none := step_control (by omega) acc
      have hspecial : ¬ (c = '"' ∨ c = '\\') := by
        rintro (rfl | rfl) <;> exact hc (by decide)
      rw [if_neg hspecial, if_neg hcons, scan_cons_of_none hnone, Option.bind_none]

theorem tokens_quoted (s : Text) :
    tokens (quoted s) = match scan (.inString []) s with
      | some (ts, .inString acc) => some (ts ++ [.scalar (.str (joinSurrogates acc))])
      | _ => none := by
  have hopen : step .outside '"' = some ([], .inString []) := rfl
  rw [tokens, quoted, List.cons_append, scan_cons_of_step hopen, scan_append]
  cases scan (.inString []) s with
  | none => rfl
  | some r =>
    obtain ⟨ts, m⟩ := r
    cases m with
    | outside => rfl
    | inWord w =>
      cases hw : readWord w with
      | none =>
        have hstep : step (.inWord w) '"' = none := by simp [step, isWordChar, hw]
        simp [scan_cons_of_none hstep]
      | some x =>
        have hstep : step (.inWord w) '"' = some ([.scalar x], .inString []) := by
          rw [step, if_neg (by decide), hw]
          rfl
        simp only [Option.bind_some, scan_cons_of_step hstep]
        rfl
    | inString acc => simp [scan, step, finish, prepend]
    | escaped acc => simp [scan, step, simpleEscape, finish, prepend]
    | unicode acc digits => simp [scan, step, hexDigit, Char.isDigit]

theorem tokens_plain {s : Text} (h : Plain s) :
    tokens (quoted s) = some [.scalar (.str (codes s))] := by
  rw [tokens_quoted, scan_plain h, List.nil_append]
  simp [joinSurrogates_codes]

theorem tokens_escape (s : Text) :
    tokens (quoted (escape s)) =
      if NoControl s then some [.scalar (.str (codes s))] else none := by
  rw [tokens_quoted, scan_escape]
  split_ifs with h
  · simp [joinSurrogates_codes]
  · rfl

/-- The characters that the string being read has so far. -/
def Mode.size : Mode → ℕ
  | .inString acc => acc.length
  | .escaped acc => acc.length
  | .unicode acc _ => acc.length
  | _ => 0

theorem Mode.size_inString (acc : List ℕ) : (Mode.inString acc).size = acc.length := rfl

/-- The strings that are complete among tokens are shorter than a bound. -/
def Below (n : ℕ) (ts : List Token) : Prop := ∀ s, .scalar (.str s) ∈ ts → s.length < n

theorem below_nil (n : ℕ) : Below n [] := fun _ h => absurd h List.not_mem_nil

theorem readWord_ne_str {w : Text} {s : List ℕ} : readWord w ≠ some (.str s) := by
  unfold readWord
  split_ifs <;> simp

theorem step_size {m m' : Mode} {c : Char} {ts : List Token} (h : step m c = some (ts, m')) :
    m'.size ≤ m.size + 1 ∧ Below (m.size + 1) ts := by
  have henter : (enter c).2.size = 0 ∧ ∀ s, .scalar (.str s) ∉ (enter c).1 := by
    unfold enter
    split_ifs
    · exact ⟨rfl, by simp⟩
    · exact ⟨rfl, by simp⟩
    · split <;> exact ⟨rfl, by simp⟩
  cases m with
  | outside =>
    rw [step, Option.some.injEq] at h
    rw [h] at henter
    exact ⟨by rw [henter.1]; omega, fun s hs => absurd hs (henter.2 s)⟩
  | inWord w =>
    rw [step] at h
    split_ifs at h
    · obtain ⟨rfl, rfl⟩ := Prod.mk.inj (Option.some.inj h)
      exact ⟨Nat.zero_le _, below_nil _⟩
    · obtain ⟨x, hx, hr⟩ := Option.map_eq_some_iff.mp h
      generalize enter c = r at henter hr
      obtain ⟨rfl, rfl⟩ := Prod.mk.inj hr
      refine ⟨by rw [henter.1]; omega, fun s hs => ?_⟩
      rcases List.mem_cons.mp hs with hs | hs
      · cases hs
        exact absurd hx readWord_ne_str
      · exact absurd hs (henter.2 s)
  | inString acc =>
    rw [step] at h
    split_ifs at h
    · obtain ⟨rfl, rfl⟩ := Prod.mk.inj (Option.some.inj h)
      refine ⟨Nat.zero_le _, fun s hs => ?_⟩
      rw [List.mem_singleton] at hs
      cases hs
      exact Nat.lt_succ_of_le (length_joinSurrogates_le acc)
    · obtain ⟨rfl, rfl⟩ := Prod.mk.inj (Option.some.inj h)
      exact ⟨Nat.le_succ _, below_nil _⟩
    · obtain ⟨rfl, rfl⟩ := Prod.mk.inj (Option.some.inj h)
      exact ⟨by simp [Mode.size], below_nil _⟩
  | escaped acc =>
    rw [step] at h
    split_ifs at h
    · obtain ⟨rfl, rfl⟩ := Prod.mk.inj (Option.some.inj h)
      exact ⟨Nat.le_succ _, below_nil _⟩
    · obtain ⟨x, -, hr⟩ := Option.map_eq_some_iff.mp h
      obtain ⟨rfl, rfl⟩ := Prod.mk.inj hr
      exact ⟨by simp [Mode.size], below_nil _⟩
  | unicode acc digits =>
    obtain ⟨x, -, hr⟩ := Option.map_eq_some_iff.mp h
    split_ifs at hr
    · obtain ⟨rfl, rfl⟩ := Prod.mk.inj hr
      exact ⟨by simp [Mode.size], below_nil _⟩
    · obtain ⟨rfl, rfl⟩ := Prod.mk.inj hr
      exact ⟨Nat.le_succ _, below_nil _⟩

theorem scan_size {m m' : Mode} {s : Text} {ts : List Token} (h : scan m s = some (ts, m')) :
    m'.size ≤ m.size + s.length ∧ Below (m.size + s.length) ts := by
  induction s generalizing m ts with
  | nil =>
    obtain ⟨rfl, rfl⟩ := Prod.mk.inj (Option.some.inj h)
    exact ⟨le_rfl, below_nil _⟩
  | cons c s ih =>
    obtain ⟨⟨us, m₁⟩, hstep, hrest⟩ := Option.bind_eq_some_iff.mp h
    obtain ⟨⟨vs, m₂⟩, hscan, hr⟩ := Option.map_eq_some_iff.mp hrest
    obtain ⟨rfl, rfl⟩ := Prod.mk.inj hr
    obtain ⟨hsize, hbelow⟩ := step_size hstep
    obtain ⟨hsize', hbelow'⟩ := ih (m := m₁) hscan
    rw [List.length_cons]
    refine ⟨by omega, fun x hx => ?_⟩
    rcases List.mem_append.mp hx with hx | hx
    · have hlt := hbelow x hx
      omega
    · have hlt := hbelow' x hx
      omega

theorem step_special {c : Char} (hc : ¬ (32 ≤ c.toNat ∧ c ≠ '"' ∧ c ≠ '\\')) {acc : List ℕ}
    {m : Mode} {ts : List Token} (h : step (.inString acc) c = some (ts, m)) :
    m.size ≤ acc.length := by
  rw [step] at h
  split_ifs at h with hquote hbackslash hcontrol
  · obtain ⟨rfl, rfl⟩ := Prod.mk.inj (Option.some.inj h)
    exact Nat.zero_le _
  · obtain ⟨rfl, rfl⟩ := Prod.mk.inj (Option.some.inj h)
    exact le_rfl
  · exact absurd ⟨by omega, hquote, hbackslash⟩ hc

theorem exists_special {s : Text} (h : ¬ Plain s) :
    ∃ a c b, s = a ++ c :: b ∧ Plain a ∧ ¬ (32 ≤ c.toNat ∧ c ≠ '"' ∧ c ≠ '\\') := by
  induction s with
  | nil => exact absurd (List.forall_mem_nil _) h
  | cons d s ih =>
    by_cases hd : 32 ≤ d.toNat ∧ d ≠ '"' ∧ d ≠ '\\'
    · obtain ⟨a, c, b, rfl, ha, hc⟩ := ih fun hs => h (List.forall_mem_cons.mpr ⟨hd, hs⟩)
      exact ⟨d :: a, c, b, rfl, List.forall_mem_cons.mpr ⟨hd, ha⟩, hc⟩
    · exact ⟨[], d, s, rfl, List.forall_mem_nil _, hd⟩

/-- A text that is not plain gives, between quotes, only strings that are shorter. -/
theorem below_of_not_plain {s : Text} {ts : List Token} (h : tokens (quoted s) = some ts)
    (hplain : ¬ Plain s) : Below s.length ts := by
  obtain ⟨a, c, b, rfl, ha, hc⟩ := exists_special hplain
  rw [tokens_quoted, scan_append, scan_plain ha, Option.bind_some, List.nil_append] at h
  split at h
  · next ws acc hall =>
    obtain ⟨⟨xs, m⟩, hspecial, hr⟩ := Option.map_eq_some_iff.mp hall
    obtain ⟨rfl, rfl⟩ := Prod.mk.inj hr
    obtain ⟨⟨us, m₁⟩, hstep, hrest⟩ := Option.bind_eq_some_iff.mp hspecial
    obtain ⟨⟨vs, m₂⟩, hscan, hr⟩ := Option.map_eq_some_iff.mp hrest
    obtain ⟨rfl, rfl⟩ := Prod.mk.inj hr
    have hlength : (codes a).length = a.length := List.length_map _
    have hspecial := step_special hc hstep
    obtain ⟨-, hbelow⟩ := step_size hstep
    obtain ⟨hsize, hbelow'⟩ := scan_size (m := m₁) hscan
    cases Option.some.inj h
    rw [Mode.size_inString] at hsize hbelow
    rw [List.length_append, List.length_cons]
    intro x hx
    simp only [List.nil_append, List.mem_append, List.mem_singleton] at hx
    rcases hx with (hx | hx) | hx
    · have hlt := hbelow x hx
      omega
    · have hlt := hbelow' x hx
      omega
    · cases hx
      have hle := length_joinSurrogates_le acc
      omega
  · cases h

end AbacMiddleLayer.Json
