import AbacMiddleLayer.Json.Lexer

/-! # Literals and numbers that are written

The words a program writes outside of quotes: `null`, the truth values and integers in
decimal notation, each with what it is read as.
-/
namespace AbacMiddleLayer.Json
open Decimal

/-- A literal or a number with its meaning. -/
structure Word where
  text : Text
  scalar : Scalar
  ne_nil : text ≠ []
  chars : ∀ c ∈ text, isWordChar c = true
  reads : readWord text = some scalar

def Word.null : Word where
  text := "null".toList
  scalar := .null
  ne_nil := by decide
  chars := forall_toList (by decide)
  reads := rfl

def Word.ofBool (b : Bool) : Word where
  text := if b then "true".toList else "false".toList
  scalar := .bool b
  ne_nil := by cases b <;> decide
  chars := by cases b <;> exact forall_toList (by decide)
  reads := by cases b <;> rfl

theorem toDigits_head_ne_zero {n : ℕ} (h : 0 < n) : (Nat.toDigits 10 n).head? ≠ some '0' := by
  induction n using Nat.strong_induction_on with
  | _ n ih =>
    by_cases hn : n < 10
    · rw [Nat.toDigits_of_lt_base hn]
      interval_cases n <;> decide
    · rw [Nat.toDigits_of_base_le (by decide) (by omega),
        List.head?_append_of_ne_nil _ Nat.toDigits_ne_nil]
      exact ih _ (by omega) (by omega)

theorem isUnsignedNumber_toDigits (n : ℕ) : isUnsignedNumber (Nat.toDigits 10 n) = true := by
  have hall : ∀ c ∈ Nat.toDigits 10 n, c.isDigit = true :=
    List.all_eq_true.mp (all_isDigit_toDigits n)
  have htake : (Nat.toDigits 10 n).takeWhile Char.isDigit = Nat.toDigits 10 n :=
    List.takeWhile_eq_self_iff.mpr hall
  have hdrop : (Nat.toDigits 10 n).dropWhile Char.isDigit = [] :=
    List.dropWhile_eq_nil_iff.mpr hall
  rw [isUnsignedNumber, htake, hdrop]
  rcases Nat.eq_zero_or_pos n with rfl | hn
  · rfl
  · have hhead := toDigits_head_ne_zero hn
    have hne : Nat.toDigits 10 n ≠ [] := Nat.toDigits_ne_nil
    simp [hhead, hne, isFraction, isExponent]

theorem isNumber_decimal (n : ℤ) : isNumber (decimal n) = true := by
  cases n with
  | ofNat n =>
    have hnumber := isUnsignedNumber_toDigits n
    unfold isNumber
    split
    · next s hs =>
      have hall := all_isDigit_toDigits n
      rw [decimal] at hs
      simp [hs, Char.isDigit] at hall
    · exact hnumber
  | negSucc n => exact isUnsignedNumber_toDigits (n + 1)

theorem isWordChar_of_digit {c : Char} (h : c.isDigit = true ∨ c = '-') :
    isWordChar c = true := by
  rcases h with h | rfl
  · have hrange : 48 ≤ c.toNat ∧ c.toNat ≤ 57 := Char.isDigit_iff_toNat.mp h
    have hne {d : Char} (hd : d.toNat < 48 ∨ 57 < d.toNat) : c ≠ d := by
      rintro rfl
      omega
    simp only [isWordChar, isSpace, Mark.ofChar]
    simp [hne (d := ' ') (by decide), hne (d := '\t') (by decide), hne (d := '\n') (by decide),
      hne (d := '\r') (by decide), hne (d := '"') (by decide), hne (d := '\x7b') (by decide),
      hne (d := '\x7d') (by decide), hne (d := '[') (by decide), hne (d := ']') (by decide),
      hne (d := ',') (by decide), hne (d := ':') (by decide)]
  · decide

theorem readWord_decimal (n : ℤ) :
    readWord (decimal n) = some (.number (decimal n)) := by
  have hne {w : Text} {c : Char} (hw : c ∈ w) (hc : ¬ (c.isDigit = true ∨ c = '-')) :
      decimal n ≠ w := by
    rintro rfl
    exact hc (mem_decimal hw)
  have hnull : decimal n ≠ "null".toList := hne (c := 'n') (by decide) (by decide)
  have htrue : decimal n ≠ "true".toList := hne (c := 't') (by decide) (by decide)
  have hfalse : decimal n ≠ "false".toList := hne (c := 'f') (by decide) (by decide)
  rw [readWord, if_neg hnull, if_neg htrue, if_neg hfalse, if_pos (by simp [isNumber_decimal])]

def Word.integer (n : ℤ) : Word where
  text := decimal n
  scalar := .number (decimal n)
  ne_nil := decimal_ne_nil n
  chars := fun _ hc => isWordChar_of_digit (mem_decimal hc)
  reads := readWord_decimal n

end AbacMiddleLayer.Json
