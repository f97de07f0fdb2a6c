import AbacMiddleLayer.Json.Lines

/-! # Strings written by `json.dumps`

Python's encoder leaves the printable ASCII characters as they are and escapes all others, those
beyond the first plane as a pair of surrogates. What it writes has no line end, and is read back
whatever the string was.
-/
namespace AbacMiddleLayer.Json
open TextLines Tsv

def hexChar (d : ℕ) : Char := Nat.digitChar d

def unicodeEscape (n : ℕ) : Text :=
  ['\\', 'u', hexChar (n / 4096 % 16), hexChar (n / 256 % 16), hexChar (n / 16 % 16), hexChar (n % 16)]

def highSurrogate (n : ℕ) : ℕ := 0xD800 + (n - 0x10000) / 0x400

def lowSurrogate (n : ℕ) : ℕ := 0xDC00 + (n - 0x10000) % 0x400

def dumpChar (c : Char) : Text :=
  if c = '"' then ['\\', '"']
  else if c = '\\' then ['\\', '\\']
  else if c = '\n' then ['\\', 'n']
  else if c = '\r' then ['\\', 'r']
  else if c = '\t' then ['\\', 't']
  else if c = '\x0c' then ['\\', 'f']
  else if c = '\x08' then ['\\', 'b']
  else if 32 ≤ c.toNat ∧ c.toNat ≤ 126 then [c]
  else if c.toNat < 0x10000 then unicodeEscape c.toNat
  else unicodeEscape (highSurrogate c.toNat) ++ unicodeEscape (lowSurrogate c.toNat)

def dumps (s : Text) : Text := quoted (s.flatMap dumpChar)

/-- The code units of a character, of which it has two beyond the first plane. -/
def units (c : Char) : List ℕ :=
  if c.toNat < 0x10000 then [c.toNat] else [highSurrogate c.toNat, lowSurrogate c.toNat]

theorem hexDigit_hexChar : ∀ d < 16, hexDigit (hexChar d) = some d := by decide

theorem scan_unicodeEscape {n : ℕ} (h : n < 0x10000) (acc : List ℕ) :
    scan (.inString acc) (unicodeEscape n) = some ([], .inString (acc ++ [n])) := by
  have hdigit (k : ℕ) : hexDigit (hexChar (k % 16)) = some (k % 16) :=
    hexDigit_hexChar _ (Nat.mod_lt _ (by decide))
  have hvalue : ofHex [n / 4096 % 16, n / 256 % 16, n / 16 % 16, n % 16] = n := by
    simp only [ofHex, List.foldl_cons, List.foldl_nil]
    omega
  have hopen : step (.inString acc) '\\' = some ([], .escaped acc) := rfl
  have hmark : step (.escaped acc) 'u' = some ([], .unicode acc []) := rfl
  have hmore (ds : List ℕ) (k : ℕ) (hds : ds.length ≠ 3) :
      step (.unicode acc ds) (hexChar (k % 16)) = some ([], .unicode acc (ds ++ [k % 16])) := by
    rw [step, hdigit, Option.map_some, if_neg hds]
  have hlast (ds : List ℕ) (k : ℕ) (hds : ds.length = 3) :
      step (.unicode acc ds) (hexChar (k % 16)) =
        some ([], .inString (acc ++ [ofHex (ds ++ [k % 16])])) := by
    rw [step, hdigit, Option.map_some, if_pos hds]
  rw [unicodeEscape, scan_cons_of_step hopen, scan_cons_of_step hmark,
    scan_cons_of_step (hmore [] _ (by simp)), scan_cons_of_step (hmore _ _ (by simp)),
    scan_cons_of_step (hmore _ _ (by simp)), scan_cons_of_step (hlast _ _ (by simp))]
  simp [scan, hvalue]

theorem scan_dumpChar (c : Char) (acc : List ℕ) :
    scan (.inString acc) (dumpChar c) = some ([], .inString (acc ++ units c)) := by
  have hvalid : c.toNat < 0x110000 := by
    rcases c.valid with h | h
    · have hlt : c.toNat < 0xD800 := h
      omega
    · exact h.2
  by_cases hspecial : c ∈ ['"', '\\', '\n', '\r', '\t', '\x0c', '\x08']
  · simp only [List.mem_cons, List.not_mem_nil, or_false] at hspecial
    rcases hspecial with rfl | rfl | rfl | rfl | rfl | rfl | rfl <;> rfl
  · simp only [List.mem_cons, List.not_mem_nil, or_false, not_or] at hspecial
    obtain ⟨hquote, hbackslash, hfeed, hreturn, htab, hform, hback⟩ := hspecial
    rw [dumpChar, if_neg hquote, if_neg hbackslash, if_neg hfeed, if_neg hreturn, if_neg htab,
      if_neg hform, if_neg hback, units]
    split_ifs with hprint hplane hplane
    · rw [scan_cons_of_step (step_inString hprint.1 hquote hbackslash acc)]
      rfl
    · omega
    · exact scan_unicodeEscape hplane acc
    · have hhigh : highSurrogate c.toNat < 0x10000 := by
        rw [highSurrogate]
        omega
      have hlow : lowSurrogate c.toNat < 0x10000 := by
        rw [lowSurrogate]
        omega
      rw [scan_append, scan_unicodeEscape hhigh, Option.bind_some, scan_unicodeEscape hlow]
      simp

theorem scan_dumps (s : Text) (acc : List ℕ) :
    scan (.inString acc) (s.flatMap dumpChar) = some ([], .inString (acc ++ s.flatMap units)) := by
  induction s generalizing acc with
  | nil => simp [scan]
  | cons c s ih =>
    rw [List.flatMap_cons, scan_append, scan_dumpChar, Option.bind_some, ih]
    simp

theorem joinSurrogates_cons {n : ℕ} (h : isHigh n = false) (s : List ℕ) :
    joinSurrogates (n :: s) = n :: joinSurrogates s := by
  cases s with
  | nil => rfl
  | cons m s => rw [joinSurrogates, h, Bool.false_and, if_neg Bool.false_ne_true]

theorem joinSurrogates_units (s : Text) : joinSurrogates (s.flatMap units) = codes s := by
  induction s with
  | nil => rfl
  | cons c s ih =>
    have hvalid : c.toNat < 0xD800 ∨ 0xDFFF < c.toNat ∧ c.toNat < 0x110000 := by
      rcases c.valid with h | h
      · exact .inl h
      · exact .inr h
    rw [List.flatMap_cons, units, codes, List.map_cons]
    change _ = c.toNat :: codes s
    split_ifs with hplane
    · have hhigh : isHigh c.toNat = false := by
        simp only [isHigh, Bool.and_eq_false_iff, decide_eq_false_iff_not]
        omega
      rw [List.singleton_append, joinSurrogates_cons hhigh, ih]
    · have hhigh : isHigh (highSurrogate c.toNat) = true := by
        rw [isHigh, highSurrogate, Bool.and_eq_true]
        exact ⟨decide_eq_true (by omega), decide_eq_true (by omega)⟩
      have hlow : isLow (lowSurrogate c.toNat) = true := by
        rw [isLow, lowSurrogate, Bool.and_eq_true]
        exact ⟨decide_eq_true (by omega), decide_eq_true (by omega)⟩
      have hpair : 0x10000 + (highSurrogate c.toNat - 0xD800) * 0x400 +
          (lowSurrogate c.toNat - 0xDC00) = c.toNat := by
        simp only [highSurrogate, lowSurrogate]
        omega
      rw [List.cons_append, List.singleton_append, joinSurrogates, hhigh, hlow, Bool.and_true,
        if_pos rfl, hpair, ih]

/-- What is written for a string is read as the string. -/
theorem tokens_dumps (s : Text) : tokens (dumps s) = some [.scalar (.str (codes s))] := by
  rw [dumps, tokens_quoted, scan_dumps, List.nil_append]
  simp [joinSurrogates_units]

theorem printable_dumpChar {c d : Char} (h : d ∈ dumpChar c) : 32 ≤ d.toNat ∧ d.toNat ≤ 126 := by
  have hhex : ∀ k < 16, 32 ≤ (hexChar k).toNat ∧ (hexChar k).toNat ≤ 126 := by decide
  have hescape {n : ℕ} (hd : d ∈ unicodeEscape n) : 32 ≤ d.toNat ∧ d.toNat ≤ 126 := by
    simp only [unicodeEscape, List.mem_cons, List.not_mem_nil, or_false] at hd
    rcases hd with rfl | rfl | rfl | rfl | rfl | rfl
    · decide
    · decide
    all_goals exact hhex _ (Nat.mod_lt _ (by decide))
  have hsimple {e : Char} (he : 32 ≤ e.toNat ∧ e.toNat ≤ 126) (hd : d ∈ ['\\', e]) :
      32 ≤ d.toNat ∧ d.toNat ≤ 126 := by
    simp only [List.mem_cons, List.not_mem_nil, or_false] at hd
    rcases hd with rfl | rfl
    · decide
    · exact he
  unfold dumpChar at h
  split_ifs at h with h₁ h₂ h₃ h₄ h₅ h₆ h₇ hprint hplane
  · exact hsimple (by decide) h
  · exact hsimple (by decide) h
  · exact hsimple (by decide) h
  · exact hsimple (by decide) h
  · exact hsimple (by decide) h
  · exact hsimple (by decide) h
  · exact hsimple (by decide) h
  · rw [List.mem_singleton.mp h]
    exact hprint
  · exact hescape h
  · rcases List.mem_append.mp h with h | h
    · exact hescape h
    · exact hescape h

theorem not_isBreak_dumps (s : Text) : ∀ c ∈ dumps s, ¬ IsBreak c := by
  apply not_isBreak_quoted
  intro c hc
  obtain ⟨d, -, hd⟩ := List.mem_flatMap.mp hc
  have hprint := (printable_dumpChar hd).1
  rintro (rfl | rfl) <;> revert hprint <;> decide

/-- The text of a field when the strings that are escaped go through `json.dumps`. -/
def Field.dumped : Field → Text
  | .word w => w.text
  | .escaped s => dumps s
  | .raw s => quoted s

/-- No string between quotes needs an escape. -/
def RawPlain (fs : List (Text × Field)) : Prop := ∀ k s, (k, Field.raw s) ∈ fs → Plain s

variable {fs : List (Text × Field)}

theorem Field.dumped_spec {f : Field} (h : ∀ s, f = .raw s → Plain s) :
    tokens f.dumped = some [.scalar f.scalar] ∧ ∀ c ∈ f.dumped, ¬ IsBreak c := by
  cases f with
  | word w => exact ⟨tokens_of_clean (f := .word w) trivial, not_isBreak (f := .word w) trivial⟩
  | escaped s => exact ⟨tokens_dumps s, not_isBreak_dumps s⟩
  | raw s => exact ⟨tokens_of_clean (f := .raw s) (h s rfl), not_isBreak (f := .raw s) (h s rfl)⟩

theorem RawPlain.dumped_spec (h : RawPlain fs) {f : Text × Field} (hf : f ∈ fs) :
    tokens f.2.dumped = some [.scalar f.2.scalar] ∧ ∀ c ∈ f.2.dumped, ¬ IsBreak c :=
  Field.dumped_spec fun s hs => h f.1 s (hs ▸ hf)

def dumpedTexts (fs : List (Text × Field)) : List (Text × Text) := fs.map fun f => (f.1, f.2.dumped)

/-- An object is loaded as it was meant, whatever its strings are. -/
theorem loads_dumped (h : WellFormed fs) (hraw : RawPlain fs) :
    loads (object (dumpedTexts fs)) = some (meant fs) := by
  have hvalues : ∀ m ∈ dumpedTexts fs, tokens m.2 ≠ none := by
    intro m hm
    obtain ⟨f, hf, rfl⟩ := List.mem_map.mp hm
    rw [(hraw.dumped_spec hf).1]
    exact Option.some_ne_none _
  have hnames : ∀ m ∈ dumpedTexts fs, IsName m.1 := by
    intro m hm
    obtain ⟨f, hf, rfl⟩ := List.mem_map.mp hm
    exact h.names f hf
  have hmembers : (dumpedTexts fs).map memberTokens =
      (fs.map fun f => (codes f.1, f.2.scalar)).map fun p =>
        [.scalar (.str p.1), .mark .colon, .scalar p.2] := by
    rw [dumpedTexts, List.map_map, List.map_map]
    apply List.map_congr_left
    intro f hf
    simp [memberTokens, (hraw.dumped_spec hf).1]
  have htokens := tokens_object (by simpa [dumpedTexts] using h.ne_nil) hnames hvalues
  rw [hmembers] at htokens
  rw [loads_flat (by simpa using h.ne_nil) htokens, List.map_map]
  rfl

theorem not_isBreak_dumped (h : WellFormed fs) (hraw : RawPlain fs) :
    ∀ c ∈ object (dumpedTexts fs), ¬ IsBreak c :=
  not_isBreak_members (List.forall_mem_map.mpr h.names)
    (List.forall_mem_map.mpr fun _ hf => (hraw.dumped_spec hf).2)

/-- A file with an object a line is loaded as it was meant. -/
theorem loadLines_dumped {blank : Char → Bool} (hleft : blank '\x7b' = false)
    (hright : blank '\x7d' = false) {written : List (List (Text × Field))}
    (h : ∀ fs ∈ written, WellFormed fs) (hraw : ∀ fs ∈ written, RawPlain fs) :
    loadLines blank (unlines (written.map fun fs => object (dumpedTexts fs))) =
      some (written.map meant) := by
  have hbraced : ∀ l ∈ written.map (fun fs => object (dumpedTexts fs)), Braced blank l := by
    intro l hl
    obtain ⟨fs, -, rfl⟩ := List.mem_map.mp hl
    exact braced_object hleft hright _
  have hbreak : ∀ l ∈ written.map (fun fs => object (dumpedTexts fs)), ∀ c ∈ l, ¬ IsBreak c := by
    intro l hl
    obtain ⟨fs, hfs, rfl⟩ := List.mem_map.mp hl
    exact not_isBreak_dumped (h fs hfs) (hraw fs hfs)
  rw [loadLines_eq, stripped_unlines, flatMap_stripped_eq hbraced hbreak, mapM_eq_some_iff,
    List.forall₂_map_left_iff, List.forall₂_map_right_iff, List.forall₂_same]
  exact fun fs hfs => loads_dumped (h fs hfs) (hraw fs hfs)

end AbacMiddleLayer.Json
