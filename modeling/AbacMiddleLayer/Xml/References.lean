import AbacMiddleLayer.Text

/-! # Characters and references of XML 1.0

Line ends, the characters a document may contain, and the replacement of the five
predefined entities and of numeric character references in text.
-/
namespace AbacMiddleLayer.Xml

/-- The production Char. -/
def isXmlChar (c : Char) : Bool :=
  c = '\t' || c = '\n' || c = '\r' || (0x20 ≤ c.toNat && c.toNat ≤ 0xD7FF) ||
    (0xE000 ≤ c.toNat && c.toNat ≤ 0xFFFD) || 0x10000 ≤ c.toNat

/-- Line ends are turned into line feeds before anything else. -/
def normalizeLineEnds : Text → Text
  | [] => []
  | '\r' :: '\n' :: cs => '\n' :: normalizeLineEnds cs
  | c :: cs => (if c = '\r' then '\n' else c) :: normalizeLineEnds cs

def digitValue (base : ℕ) (c : Char) : Option ℕ :=
  let value :=
    if '0' ≤ c ∧ c ≤ '9' then some (c.toNat - '0'.toNat)
    else if 'a' ≤ c ∧ c ≤ 'f' then some (c.toNat - 'a'.toNat + 10)
    else if 'A' ≤ c ∧ c ≤ 'F' then some (c.toNat - 'A'.toNat + 10)
    else none
  value.filter (· < base)

/-- The value of a non-empty list of digits. -/
def digitsValue (base : ℕ) (cs : Text) : Option ℕ :=
  if cs = [] then none
  else cs.foldl (fun n c => n.bind fun n => (digitValue base c).map fun d => n * base + d) (some 0)

/-- The character with a code point, if a document may contain it. -/
def charOfCode (n : ℕ) : Option Char :=
  if h : n.isValidChar then some (Char.ofNatAux n h) |>.filter isXmlChar else none

/-- What `&name;` stands for. -/
def reference : Text → Option Char
  | ['a', 'm', 'p'] => some '&'
  | ['l', 't'] => some '<'
  | ['g', 't'] => some '>'
  | ['q', 'u', 'o', 't'] => some '"'
  | ['a', 'p', 'o', 's'] => some '\''
  | '#' :: 'x' :: cs => (digitsValue 16 cs).bind charOfCode
  | '#' :: cs => (digitsValue 10 cs).bind charOfCode
  | _ => none

/-- Text with its references replaced; `name` is the reference under way. -/
def decodeLoop : Option Text → Text → Option Text
  | none, [] => some []
  | some _, [] => none
  | none, c :: cs =>
    if c = '&' then decodeLoop (some []) cs else (decodeLoop none cs).map (c :: ·)
  | some name, c :: cs =>
    if c = ';' then (reference name).bind fun d => (decodeLoop none cs).map (d :: ·)
    else decodeLoop (some (name ++ [c])) cs

def decode (s : Text) : Option Text := decodeLoop none s

theorem decodeLoop_length_le {name : Option Text} {s t : Text} (h : decodeLoop name s = some t) :
    t.length ≤ s.length := by
  induction s generalizing name t with
  | nil =>
    cases name with
    | none =>
      obtain rfl : [] = t := by simpa [decodeLoop] using h
      simp
    | some name => simp [decodeLoop] at h
  | cons c cs ih =>
    rw [List.length_cons]
    cases name with
    | none =>
      rw [decodeLoop] at h
      split_ifs at h
      · have hle := ih h
        omega
      · obtain ⟨u, hu, rfl⟩ := Option.map_eq_some_iff.mp h
        have hle := ih hu
        rw [List.length_cons]
        omega
    | some name =>
      rw [decodeLoop] at h
      split_ifs at h
      · obtain ⟨d, -, hd⟩ := Option.bind_eq_some_iff.mp h
        obtain ⟨u, hu, rfl⟩ := Option.map_eq_some_iff.mp hd
        have hle := ih hu
        rw [List.length_cons]
        omega
      · have hle := ih h
        omega

theorem decode_length_le {s t : Text} (h : decode s = some t) : t.length ≤ s.length :=
  decodeLoop_length_le h

/-- Text without references stands for itself. -/
theorem decode_eq_self {s : Text} (h : '&' ∉ s) : decode s = some s := by
  unfold decode
  induction s with
  | nil => rfl
  | cons c cs ih =>
    rw [List.mem_cons, not_or] at h
    rw [decodeLoop, if_neg (Ne.symm h.1), ih h.2]
    rfl

/-- A reference stands for fewer characters than it is written with. -/
theorem decode_length_lt {s t : Text} (hs : '&' ∈ s) (h : decode s = some t) :
    t.length < s.length := by
  unfold decode at h
  induction s generalizing t with
  | nil => simp at hs
  | cons c cs ih =>
    rw [List.length_cons]
    rw [decodeLoop] at h
    split_ifs at h with hc
    · have hle := decodeLoop_length_le h
      omega
    · obtain ⟨u, hu, rfl⟩ := Option.map_eq_some_iff.mp h
      have hmem : '&' ∈ cs := by
        rcases List.mem_cons.mp hs with rfl | hmem
        · exact absurd rfl hc
        · exact hmem
      have hlt := ih hmem hu
      rw [List.length_cons]
      omega

/-- A character as the five predefined entities write it. -/
def entity (c : Char) : Text :=
  if c = '&' then "&amp;".toList
  else if c = '<' then "&lt;".toList
  else if c = '>' then "&gt;".toList
  else if c = '"' then "&quot;".toList
  else if c = '\'' then "&apos;".toList
  else [c]

theorem decodeLoop_entity (c : Char) (rest : Text) :
    decodeLoop none (entity c ++ rest) = (decodeLoop none rest).map (c :: ·) := by
  unfold entity
  split_ifs with h1 h2 h3 h4 h5
  · subst h1
    rfl
  · subst h2
    rfl
  · subst h3
    rfl
  · subst h4
    rfl
  · subst h5
    rfl
  · rw [List.singleton_append, decodeLoop, if_neg h1]

/-- Decoding undoes writing with entities. -/
theorem decode_flatMap_entity (s : Text) : decode (s.flatMap entity) = some s := by
  unfold decode
  induction s with
  | nil => rfl
  | cons c cs ih => rw [List.flatMap_cons, decodeLoop_entity, ih, Option.map_some]

/-- The characters that the five entities are written with. -/
def entityChars : Text := ['&', ';', 'a', 'm', 'p', 'l', 't', 'g', 'q', 'u', 'o', 's']

theorem mem_flatMap_entity {s : Text} {c : Char} (h : c ∈ s.flatMap entity) :
    (c ∈ s ∧ c ≠ '<' ∧ c ≠ '>') ∨ c ∈ entityChars := by
  obtain ⟨d, hd, hc⟩ := List.mem_flatMap.mp h
  unfold entity at hc
  split_ifs at hc with h1 h2 h3
  · exact .inr (forall_toList (by decide) c hc)
  · exact .inr (forall_toList (by decide) c hc)
  · exact .inr (forall_toList (by decide) c hc)
  · exact .inr (forall_toList (by decide) c hc)
  · exact .inr (forall_toList (by decide) c hc)
  · obtain rfl := List.mem_singleton.mp hc
    exact .inl ⟨hd, h2, h3⟩

theorem normalizeLineEnds_cons {c : Char} (h : c ≠ '\r') (cs : Text) :
    normalizeLineEnds (c :: cs) = c :: normalizeLineEnds cs := by
  rw [normalizeLineEnds]
  · rw [if_neg h]
  · rintro _ rfl
    exact absurd rfl h

theorem normalizeLineEnds_eq_self {s : Text} (h : '\r' ∉ s) : normalizeLineEnds s = s := by
  induction s with
  | nil => rfl
  | cons c cs ih =>
    rw [List.mem_cons, not_or] at h
    rw [normalizeLineEnds_cons (Ne.symm h.1), ih h.2]

theorem normalizeLineEnds_append_left {s : Text} (h : '\r' ∉ s) (t : Text) :
    normalizeLineEnds (s ++ t) = s ++ normalizeLineEnds t := by
  induction s with
  | nil => rfl
  | cons c cs ih =>
    rw [List.mem_cons, not_or] at h
    rw [List.cons_append, normalizeLineEnds_cons (Ne.symm h.1), ih h.2, List.cons_append]

/-- Line ends only bring in line feeds and only take away carriage returns. -/
theorem mem_normalizeLineEnds {s : Text} {c : Char} (h : c ∈ normalizeLineEnds s) :
    c ∈ s ∨ c = '\n' := by
  fun_induction normalizeLineEnds s with
  | case1 => simp at h
  | case2 cs ih =>
    rcases List.mem_cons.mp h with h | h
    · exact .inr h
    · exact (ih h).imp_left fun hc => by simp [hc]
  | case3 d cs hd ih =>
    rcases List.mem_cons.mp h with h | h
    · split_ifs at h
      · exact .inr h
      · exact .inl (by simp [h])
    · exact (ih h).imp_left fun hc => by simp [hc]

theorem mem_of_normalizeLineEnds {s : Text} {c : Char} (h : c ∈ s) (hc : c ≠ '\r') :
    c ∈ normalizeLineEnds s := by
  fun_induction normalizeLineEnds s with
  | case1 => simp at h
  | case2 cs ih =>
    simp only [List.mem_cons, hc, false_or] at h ⊢
    exact h.imp_right ih
  | case3 d cs hd ih =>
    rcases List.mem_cons.mp h with rfl | h
    · simp [hc]
    · exact List.mem_cons_of_mem _ (ih h)

theorem normalizeLineEnds_length_le (s : Text) : (normalizeLineEnds s).length ≤ s.length := by
  fun_induction normalizeLineEnds s with
  | case1 => simp
  | case2 cs ih =>
    simp only [List.length_cons]
    omega
  | case3 c cs h ih =>
    simp only [List.length_cons]
    omega

theorem cr_not_mem_normalizeLineEnds (s : Text) : '\r' ∉ normalizeLineEnds s := by
  fun_induction normalizeLineEnds s with
  | case1 => simp
  | case2 cs ih => simpa using ih
  | case3 c cs h ih =>
    rw [List.mem_cons, not_or]
    refine ⟨?_, ih⟩
    split_ifs with hc
    · decide
    · exact Ne.symm hc

/-- Only a line feed interacts with a carriage return before it. -/
theorem normalizeLineEnds_append {c : Char} (hn : c ≠ '\n') (hr : c ≠ '\r') (s t : Text) :
    normalizeLineEnds (s ++ c :: t) = normalizeLineEnds s ++ c :: normalizeLineEnds t := by
  fun_induction normalizeLineEnds s with
  | case1 => rw [List.nil_append, List.nil_append, normalizeLineEnds_cons hr]
  | case2 cs ih => rw [List.cons_append, List.cons_append, normalizeLineEnds, ih, List.cons_append]
  | case3 d cs h ih =>
    rw [List.cons_append, List.cons_append, ← ih]
    cases cs with
    | nil =>
      rw [List.nil_append, normalizeLineEnds]
      rintro _ rfl he
      simp only [List.cons.injEq] at he
      exact hn he.1
    | cons e cs =>
      rw [List.cons_append, normalizeLineEnds]
      rintro _ rfl he
      simp only [List.cons.injEq] at he
      exact h cs rfl (by rw [he.1])

/-- What a document says where `s` stands in its text. -/
def readText (s : Text) : Option Text := decode (normalizeLineEnds s)

theorem readText_length_le {s t : Text} (h : readText s = some t) : t.length ≤ s.length :=
  (decode_length_le h).trans (normalizeLineEnds_length_le s)

/-- Text is read as it stands exactly when it has no references and no carriage returns. -/
theorem readText_eq_self_iff (s : Text) : readText s = some s ↔ '&' ∉ s ∧ '\r' ∉ s := by
  constructor
  · intro h
    have hamp : '&' ∉ normalizeLineEnds s := by
      intro hmem
      have hlt := decode_length_lt hmem h
      have hle := normalizeLineEnds_length_le s
      omega
    have heq : normalizeLineEnds s = s := by
      have hd := decode_eq_self hamp
      rw [readText, hd, Option.some.injEq] at h
      exact h
    refine ⟨heq ▸ hamp, ?_⟩
    rw [← heq]
    exact cr_not_mem_normalizeLineEnds s
  · rintro ⟨hamp, hcr⟩
    rw [readText, normalizeLineEnds_eq_self hcr, decode_eq_self hamp]

end AbacMiddleLayer.Xml
