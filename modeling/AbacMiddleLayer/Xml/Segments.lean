import AbacMiddleLayer.Xml.Writing

/-! # Documents written in segments

A segment is a text followed by a tag. When every text reads well, the scanner
returns texts and tags in turn; and whatever follows the segments, their tokens are
the first ones of the document.
-/
namespace AbacMiddleLayer.Xml

/-- A document that contains `raw` between two tags says `value` there. -/
structure Reads (raw value : Text) : Prop where
  noTag : '<' ∉ raw
  chars : ∀ c ∈ raw, isXmlChar c = true
  noCdataEnd : hasCdataEnd (normalizeLineEnds raw) = false
  value : readText raw = some value

structure Segment where
  raw : Text
  value : Text
  markup : Markup

def Segment.Ok (s : Segment) : Prop := s.markup.Plain ∧ Reads s.raw s.value

def writeSegments (segs : List Segment) : Text := segs.flatMap fun s => s.raw ++ s.markup.write

def segmentTokens (segs : List Segment) : List Token :=
  segs.flatMap fun s => [.text s.value, .markup s.markup]

def segmentRaws (segs : List Segment) : List Raw :=
  segs.flatMap fun s => [.text (normalizeLineEnds s.raw), .tag s.markup.body]

theorem hasCdataEnd_eq_false {s : Text} (h : '>' ∉ s) : hasCdataEnd s = false := by
  fun_induction hasCdataEnd s with
  | case1 => simp at h
  | case2 c cs _ ih => exact ih fun hmem => h (List.mem_cons_of_mem c hmem)
  | case3 => rfl

theorem isNameChar_isXmlChar {c : Char} (h : isNameChar c = true) : isXmlChar c = true := by
  simp only [isNameChar, isNameStart, Bool.or_eq_true, Bool.and_eq_true] at h
  rcases h with h | h <;> exact h.1

theorem isPlain_isXmlChar {c : Char} (h : isPlain c = true) : isXmlChar c = true := by
  simp only [isPlain, Bool.and_eq_true] at h
  exact h.1.1.1.1

/-- Every character of a written tag belongs to a name, to a plain value, or to the syntax. -/
theorem Markup.Plain.mem_write {m : Markup} (h : m.Plain) {c : Char} (hc : c ∈ m.write) :
    isNameChar c = true ∨ isPlain c = true ∨ c ∈ ['<', '/', '=', '"', '>', ' '] := by
  cases m with
  | start tag =>
    simp only [Markup.write, Markup.body, writeAttrs, List.mem_cons, List.mem_append,
      List.mem_flatMap, List.not_mem_nil, or_false] at hc
    rcases hc with rfl | ((hc | ⟨a, ha, hc⟩) | rfl)
    · simp
    · exact .inl (isName_all h.name c hc)
    · obtain ⟨hname, hvalue⟩ := h.attrs a ha
      rcases hc with rfl | hc | rfl | rfl | hc | rfl
      · simp
      · exact .inl (isName_all hname c hc)
      · simp
      · simp
      · exact .inr (.inl (hvalue c hc))
      · simp
    · simp
  | stop name =>
    simp only [Markup.write, Markup.body, List.cons_append, List.mem_cons, List.mem_append,
      List.not_mem_nil, or_false] at hc
    rcases hc with rfl | rfl | hc | rfl
    · simp
    · simp
    · exact .inl (isName_all h c hc)
    · simp

theorem Markup.Plain.isXmlChar {m : Markup} (h : m.Plain) :
    ∀ c ∈ m.write, isXmlChar c = true := by
  intro c hc
  rcases h.mem_write hc with hc | hc | hc
  · exact isNameChar_isXmlChar hc
  · exact isPlain_isXmlChar hc
  · have hall : ['<', '/', '=', '"', '>', ' '].all Xml.isXmlChar = true := by decide
    exact List.all_eq_true.mp hall c hc

theorem Markup.Plain.no_cr {m : Markup} (h : m.Plain) : '\r' ∉ m.write := by
  intro hc
  rcases h.mem_write hc with hc | hc | hc
  · exact isNameChar_ne hc rfl rfl
  · exact isPlain_ne hc rfl rfl
  · simp at hc

theorem scanLoop_segments {segs : List Segment} (h : ∀ s ∈ segs, s.Ok) (rest : Text) :
    scanLoop .text [] (normalizeLineEnds (writeSegments segs ++ rest)) =
      (scanLoop .text [] (normalizeLineEnds rest)).map fun st => (segmentRaws segs ++ st.1, st.2) := by
  induction segs with
  | nil =>
    simp only [writeSegments, segmentRaws, List.flatMap_nil, List.nil_append, Option.map_id']
  | cons s segs ih =>
    obtain ⟨hplain, hreads⟩ := h s (by simp)
    have hnorm : normalizeLineEnds (writeSegments (s :: segs) ++ rest) =
        normalizeLineEnds s.raw ++
          (s.markup.write ++ normalizeLineEnds (writeSegments segs ++ rest)) := by
      have hcons : writeSegments (s :: segs) ++ rest =
          s.raw ++ (s.markup.write ++ (writeSegments segs ++ rest)) := by
        simp [writeSegments]
      rw [hcons, ← normalizeLineEnds_append_left hplain.no_cr]
      exact normalizeLineEnds_append (by decide) (by decide) s.raw _
    have hlt : '<' ∉ normalizeLineEnds s.raw := by
      intro hmem
      rcases mem_normalizeLineEnds hmem with hmem | hmem
      · exact hreads.noTag hmem
      · simp at hmem
    rw [hnorm, scanLoop_text hlt, List.nil_append, scanLoop_write hplain,
      ih fun t ht => h t (by simp [ht]), Option.map_map]
    rfl

theorem tokenize_append (xs ys : List Raw) :
    tokenize (xs ++ ys) = (tokenize xs).bind fun ts => (tokenize ys).map (ts ++ ·) := by
  induction xs with
  | nil => simp [tokenize]
  | cons x xs ih =>
    rw [List.cons_append, tokenize, tokenize, ih]
    cases rawTokens x with
    | none => rfl
    | some ts => cases tokenize xs <;> cases tokenize ys <;> simp

theorem Reads.rawTokens {raw value : Text} (h : Reads raw value) :
    rawTokens (.text (normalizeLineEnds raw)) = some [.text value] := by
  have hdecode : decode (normalizeLineEnds raw) = some value := h.value
  simp [Xml.rawTokens, h.noCdataEnd, hdecode]

theorem rawTokens_text {s : Text} {ts : List Token} (h : rawTokens (.text s) = some ts) :
    ∃ value, hasCdataEnd s = false ∧ decode s = some value ∧ ts = [.text value] := by
  rw [rawTokens] at h
  split_ifs at h with hend
  obtain ⟨value, hvalue, rfl⟩ := Option.map_eq_some_iff.mp h
  exact ⟨value, by simpa using hend, hvalue, rfl⟩

theorem tokenize_segmentRaws {segs : List Segment} (h : ∀ s ∈ segs, s.Ok) :
    tokenize (segmentRaws segs) = some (segmentTokens segs) := by
  induction segs with
  | nil => rfl
  | cons s segs ih =>
    obtain ⟨hplain, hreads⟩ := h s (by simp)
    have hcons : segmentRaws (s :: segs) =
        .text (normalizeLineEnds s.raw) :: .tag s.markup.body :: segmentRaws segs := rfl
    have htag : rawTokens (.tag s.markup.body) = some [.markup s.markup] := tagTokens_body hplain
    rw [hcons, tokenize, hreads.rawTokens, tokenize, htag, ih fun t ht => h t (by simp [ht])]
    rfl

theorem normalizeLineEnds_isXmlChar {s : Text} :
    (normalizeLineEnds s).all isXmlChar = true ↔ ∀ c ∈ s, isXmlChar c = true := by
  rw [List.all_eq_true]
  constructor
  · intro h c hc
    by_cases hcr : c = '\r'
    · rw [hcr]
      decide
    · exact h c (mem_of_normalizeLineEnds hc hcr)
  · intro h c hc
    rcases mem_normalizeLineEnds hc with hc | rfl
    · exact h c hc
    · decide

theorem writeSegments_isXmlChar {segs : List Segment} (h : ∀ s ∈ segs, s.Ok) :
    ∀ c ∈ writeSegments segs, isXmlChar c = true := by
  intro c hc
  obtain ⟨s, hs, hc⟩ := List.mem_flatMap.mp hc
  rcases List.mem_append.mp hc with hc | hc
  · exact (h s hs).2.chars c hc
  · exact (h s hs).1.isXmlChar c hc

theorem lt_not_mem_normalizeLineEnds {s : Text} (h : '<' ∉ s) : '<' ∉ normalizeLineEnds s := by
  intro hmem
  rcases mem_normalizeLineEnds hmem with hmem | hmem
  · exact h hmem
  · simp at hmem

/-- A document written in segments is read as it was meant. -/
theorem bodyTokens_segments {segs : List Segment} (h : ∀ s ∈ segs, s.Ok) {last value : Text}
    (hlast : Reads last value) :
    bodyTokens (writeSegments segs ++ last) = some (segmentTokens segs ++ [.text value]) := by
  have hchars : (normalizeLineEnds (writeSegments segs ++ last)).all isXmlChar = true := by
    rw [normalizeLineEnds_isXmlChar]
    intro c hc
    exact (List.mem_append.mp hc).elim (writeSegments_isXmlChar h c) (hlast.chars c)
  have hscan : scanLoop .text [] (normalizeLineEnds last) =
      some ([], .text, normalizeLineEnds last) := by
    simpa [scanLoop] using scanLoop_text (lt_not_mem_normalizeLineEnds hlast.noTag) [] []
  rw [bodyTokens, if_pos hchars, scanLoop_segments h, hscan]
  simp [tokenize_append, tokenize_segmentRaws h, tokenize, hlast.rawTokens]

theorem isXmlChar_of_bodyTokens {doc : Text} {ts : List Token} (h : bodyTokens doc = some ts) :
    ∀ c ∈ doc, isXmlChar c = true := by
  rw [bodyTokens] at h
  split_ifs at h with hchars
  exact normalizeLineEnds_isXmlChar.mp hchars

/-- What stands between a run of segments and the next tag has been read as text. -/
theorem bodyTokens_after {segs : List Segment} (h : ∀ s ∈ segs, s.Ok) {t rest : Text}
    (ht : '<' ∉ t) {ts : List Token}
    (hts : bodyTokens (writeSegments segs ++ (t ++ '<' :: rest)) = some ts) :
    ∃ value more, Reads t value ∧ ts = segmentTokens segs ++ .text value :: more := by
  have hscan : scanLoop .text [] (normalizeLineEnds (t ++ '<' :: rest)) =
      (scanLoop .tag [] (normalizeLineEnds rest)).map (emit (.text (normalizeLineEnds t))) := by
    rw [normalizeLineEnds_append (by decide) (by decide),
      scanLoop_text (lt_not_mem_normalizeLineEnds ht), List.nil_append, scanLoop, if_pos rfl]
  have hchars := isXmlChar_of_bodyTokens hts
  rw [bodyTokens, if_pos (normalizeLineEnds_isXmlChar.mpr hchars)] at hts
  rw [scanLoop_segments h, hscan] at hts
  rcases hrest : scanLoop .tag [] (normalizeLineEnds rest) with _ | ⟨raws, mode, last⟩ <;>
    rw [hrest] at hts
  · cases hts
  -- the document ends in text, and its pieces are those of the segments, `t`, and more
  cases mode with
  | tag => cases hts
  | quoted q => cases hts
  | text =>
    simp only [Option.map_some, emit, List.append_assoc, List.cons_append, tokenize_append,
      tokenize_segmentRaws h, Option.bind_some, tokenize, Option.map_eq_some_iff,
      Option.bind_eq_some_iff] at hts
    obtain ⟨-, ⟨text, htext, others, -, rfl⟩, rfl⟩ := hts
    obtain ⟨value, hend, hvalue, rfl⟩ := rawTokens_text htext
    exact ⟨value, others, ⟨ht, fun c hc => hchars c (by simp [hc]), hend, hvalue⟩, rfl⟩

end AbacMiddleLayer.Xml
