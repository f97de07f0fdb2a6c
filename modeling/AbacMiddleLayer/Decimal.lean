import AbacMiddleLayer.Text
import Mathlib.Data.List.TakeWhile
import Mathlib.Data.Int.Notation

/-! # Integers in decimal notation

How integers are written, and three ways to read them: the lexical form of
`xsd:integer`, Java's `Integer.valueOf` and C++'s `std::stoi`. The latter skips white
space in front and stops at the first character that is no digit.
-/
namespace AbacMiddleLayer.Decimal

/-- The decimal notation of Python's `str` and of Java's string conversion. -/
def decimal : ℤ → Text
  | .ofNat n => Nat.toDigits 10 n
  | .negSucc n => '-' :: Nat.toDigits 10 (n + 1)

def naturalValue (s : Text) : Option ℕ :=
  if s ≠ [] ∧ s.all Char.isDigit then some (Nat.ofDigitChars 10 s 0) else none

/-- A sign, if there is one, in front of what `f` reads. -/
def signed (f : Text → Option ℕ) : Text → Option ℤ
  | '-' :: s => (f s).map fun n => -Int.ofNat n
  | '+' :: s => (f s).map Int.ofNat
  | s => (f s).map Int.ofNat

/-- The value of a text as an `xsd:integer`. -/
def integerValue : Text → Option ℤ := signed naturalValue

def Int32 (n : ℤ) : Prop := -2 ^ 31 ≤ n ∧ n < 2 ^ 31

instance (n : ℤ) : Decidable (Int32 n) := inferInstanceAs (Decidable (_ ∧ _))

/-- `Integer.valueOf`; `none` is a `NumberFormatException`. -/
def valueOf (s : Text) : Option ℤ := (integerValue s).filter fun n => decide (Int32 n)

/-- White space as C's `isspace` has it: the blank, and from the tab to the carriage return. -/
def isBlank (c : Char) : Bool := c.toNat = 32 || (9 ≤ c.toNat && c.toNat ≤ 13)

/-- `std::stoi`; `none` is `std::invalid_argument` or `std::out_of_range`. -/
def stoi (s : Text) : Option ℤ :=
  (signed (fun t => naturalValue (t.takeWhile Char.isDigit)) (s.dropWhile isBlank)).filter fun n =>
    decide (Int32 n)

theorem all_isDigit_toDigits (n : ℕ) : (Nat.toDigits 10 n).all Char.isDigit = true :=
  List.all_eq_true.mpr fun _ hc => Nat.isDigit_of_mem_toDigits (by decide) (by decide) hc

theorem naturalValue_toDigits (n : ℕ) : naturalValue (Nat.toDigits 10 n) = some n := by
  rw [naturalValue, if_pos ⟨Nat.toDigits_ne_nil, all_isDigit_toDigits n⟩,
    Nat.ofDigitChars_toDigits (by decide) (by decide)]

theorem mem_decimal {n : ℤ} {c : Char} (h : c ∈ decimal n) : c.isDigit = true ∨ c = '-' := by
  cases n with
  | ofNat n => exact .inl (Nat.isDigit_of_mem_toDigits (by decide) (by decide) h)
  | negSucc n =>
    rcases List.mem_cons.mp h with h | h
    · exact .inr h
    · exact .inl (Nat.isDigit_of_mem_toDigits (by decide) (by decide) h)

theorem isBlank_eq_false {c : Char} (h : c.isDigit = true ∨ c = '-' ∨ c = '+') :
    isBlank c = false := by
  rcases h with h | rfl | rfl
  · have hdigit : 48 ≤ c.toNat ∧ c.toNat ≤ 57 := Char.isDigit_iff_toNat.mp h
    simp only [isBlank, Bool.or_eq_false_iff, Bool.and_eq_false_iff, decide_eq_false_iff_not]
    omega
  · rfl
  · rfl

theorem decimal_ne_nil (n : ℤ) : decimal n ≠ [] := by
  cases n with
  | ofNat n => exact Nat.toDigits_ne_nil
  | negSucc n => exact List.cons_ne_nil _ _

/-- Digits have no sign. -/
theorem signed_digits (f : Text → Option ℕ) {s : Text} (h : s.all Char.isDigit = true) :
    signed f s = (f s).map Int.ofNat := by
  unfold signed
  split
  · simp [Char.isDigit] at h
  · simp [Char.isDigit] at h
  · rfl

/-- What is read behind the sign of a text does not depend on what follows the text. -/
theorem exists_sign {s : Text} (hs : s ≠ []) :
    ∃ (σ : ℤ) (sign t : Text), s = sign ++ t ∧ (∀ c ∈ sign, c = '-' ∨ c = '+') ∧
      ∀ (f : Text → Option ℕ) (rest : Text),
        signed f (s ++ rest) = (f (t ++ rest)).map fun n : ℕ => σ * (n : ℤ) := by
  obtain ⟨c, cs, rfl⟩ := List.exists_cons_of_ne_nil hs
  by_cases hminus : c = '-'
  · subst hminus
    refine ⟨-1, ['-'], cs, rfl, by simp, fun f rest => ?_⟩
    rw [List.cons_append, signed]
    congr 1
    funext n
    simp
  · by_cases hplus : c = '+'
    · subst hplus
      refine ⟨1, ['+'], cs, rfl, by simp, fun f rest => ?_⟩
      rw [List.cons_append, signed]
      congr 1
      funext n
      simp
    · refine ⟨1, [], c :: cs, rfl, by simp, fun f rest => ?_⟩
      rw [List.cons_append, signed]
      · congr 1
        funext n
        simp
      · exact fun _ h => hminus (List.cons.inj h).1
      · exact fun _ h => hplus (List.cons.inj h).1

/-- A reader of digits, with a sign in front, reads decimal notation. -/
theorem signed_decimal {f : Text → Option ℕ} (hf : ∀ n, f (Nat.toDigits 10 n) = some n) (n : ℤ) :
    signed f (decimal n) = some n := by
  cases n with
  | ofNat n =>
    rw [decimal, signed_digits f (all_isDigit_toDigits n), hf]
    rfl
  | negSucc n =>
    rw [decimal, signed, hf]
    rfl

theorem integerValue_decimal (n : ℤ) : integerValue (decimal n) = some n :=
  signed_decimal naturalValue_toDigits n

theorem valueOf_decimal {n : ℤ} (h : Int32 n) : valueOf (decimal n) = some n := by
  simp [valueOf, integerValue_decimal, h]

/-- An integer has nothing but digits and a sign. -/
theorem mem_of_integerValue {s : Text} {n : ℤ} (h : integerValue s = some n) {c : Char}
    (hc : c ∈ s) : c.isDigit = true ∨ c = '-' ∨ c = '+' := by
  have hdigits {t : Text} {m : ℕ} (ht : naturalValue t = some m) (hmem : c ∈ t) :
      c.isDigit = true := by
    rw [naturalValue] at ht
    split_ifs at ht with hall
    exact List.all_eq_true.mp hall.2 c hmem
  unfold integerValue signed at h
  split at h
  · obtain ⟨m, hm, -⟩ := Option.map_eq_some_iff.mp h
    rcases List.mem_cons.mp hc with rfl | hc
    · simp
    · exact .inl (hdigits hm hc)
  · obtain ⟨m, hm, -⟩ := Option.map_eq_some_iff.mp h
    rcases List.mem_cons.mp hc with rfl | hc
    · simp
    · exact .inl (hdigits hm hc)
  · obtain ⟨m, hm, -⟩ := Option.map_eq_some_iff.mp h
    exact .inl (hdigits hm hc)

/-- An integer is a sign and digits, and a reader with a sign in front reads the digits. -/
theorem exists_digits {s : Text} {n : ℤ} (h : integerValue s = some n) :
    ∃ (σ : ℤ) (sign t : Text), s = sign ++ t ∧ (∀ c ∈ sign, c = '-' ∨ c = '+') ∧ t ≠ [] ∧
      (∀ c ∈ t, c.isDigit = true) ∧ n = σ * (Nat.ofDigitChars 10 t 0 : ℕ) ∧
      ∀ (f : Text → Option ℕ) (rest : Text),
        signed f (s ++ rest) = (f (t ++ rest)).map fun n : ℕ => σ * (n : ℤ) := by
  have hs : s ≠ [] := by
    rintro rfl
    cases h
  obtain ⟨σ, sign, t, rfl, hsign, hsigned⟩ := exists_sign hs
  have hvalue := hsigned naturalValue []
  rw [List.append_nil, List.append_nil, ← integerValue, h, naturalValue] at hvalue
  split_ifs at hvalue with hdigits
  · have hn := Option.some.inj hvalue
    exact ⟨σ, sign, t, rfl, hsign, hdigits.1, List.all_eq_true.mp hdigits.2, hn, hsigned⟩
  · cases hvalue

/-- `std::stoi` skips blanks and stops behind the digits. -/
theorem stoi_of_integerValue {s a rest : Text} {n : ℤ} (h : integerValue s = some n)
    (ha : ∀ c ∈ a, isBlank c = true) (hrest : ∀ c, rest.head? = some c → c.isDigit = false) :
    stoi (a ++ s ++ rest) = if Int32 n then some n else none := by
  obtain ⟨σ, sign, t, rfl, hsign, hne, hdigits, rfl, hsigned⟩ := exists_digits h
  have hblank : (a ++ (sign ++ t) ++ rest).dropWhile isBlank = sign ++ t ++ rest := by
    rw [List.append_assoc, List.dropWhile_append_of_pos ha]
    obtain ⟨c, cs, hcs⟩ := List.exists_cons_of_ne_nil (List.append_ne_nil_of_right_ne_nil sign hne)
    have hc : isBlank c = false := isBlank_eq_false (mem_of_integerValue h (by simp [hcs]))
    rw [hcs, List.cons_append, List.dropWhile_cons_of_neg (by simp [hc])]
  have htake : (t ++ rest).takeWhile Char.isDigit = t := by
    rw [List.takeWhile_append_of_pos hdigits]
    cases rest with
    | nil => simp
    | cons c cs => simp [hrest c rfl]
  have hnatural : naturalValue t = some (Nat.ofDigitChars 10 t 0) :=
    if_pos ⟨hne, List.all_eq_true.mpr hdigits⟩
  rw [stoi, hblank, hsigned, htake, hnatural]
  by_cases hint : Int32 (σ * (Nat.ofDigitChars 10 t 0 : ℕ)) <;> simp [hint]

theorem stoi_decimal (n : ℤ) : stoi (decimal n) = if Int32 n then some n else none := by
  have h : stoi ([] ++ decimal n ++ []) = _ :=
    stoi_of_integerValue (integerValue_decimal n) nofun nofun
  rwa [List.nil_append, List.append_nil] at h

end AbacMiddleLayer.Decimal
