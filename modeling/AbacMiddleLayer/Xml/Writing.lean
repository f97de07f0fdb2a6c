import AbacMiddleLayer.Xml.Scanner

/-! # Written documents

Tags as a program writes them, and what the scanner makes of a document that is
written tag by tag with texts spliced in between.
-/
namespace AbacMiddleLayer.Xml

def writeAttrs (attrs : List (Text × Text)) : Text :=
  attrs.flatMap fun a => ' ' :: (a.1 ++ '=' :: '"' :: (a.2 ++ ['"']))

def Markup.body : Markup → Text
  | .start tag => tag.name ++ writeAttrs tag.attrs
  | .stop name => '/' :: name

def Markup.write (m : Markup) : Text := '<' :: (m.body ++ ['>'])

/-- The characters that stand for themselves in an attribute's value. -/
def isPlain (c : Char) : Bool :=
  isXmlChar c && c != '<' && c != '&' && c != '"' && !(isSpace c && c != ' ')

structure Tag.Plain (tag : Tag) : Prop where
  name : isName tag.name = true
  attrs : ∀ a ∈ tag.attrs, isName a.1 = true ∧ ∀ c ∈ a.2, isPlain c = true
  nodup : (tag.attrs.map Prod.fst).Nodup

def Markup.Plain : Markup → Prop
  | .start tag => tag.Plain
  | .stop name => isName name = true

theorem isName_all {n : Text} (h : isName n = true) : ∀ c ∈ n, isNameChar c = true := by
  cases n with
  | nil => cases h
  | cons c cs =>
    rw [isName, Bool.and_eq_true, List.all_eq_true] at h
    intro d hd
    rcases List.mem_cons.mp hd with rfl | hd
    · simp [isNameChar, h.1]
    · exact h.2 d hd

theorem isName_cons {n : Text} (h : isName n = true) :
    ∃ c cs, n = c :: cs ∧ isNameStart c = true ∧ ∀ d ∈ cs, isNameChar d = true := by
  cases n with
  | nil => cases h
  | cons c cs =>
    rw [isName, Bool.and_eq_true, List.all_eq_true] at h
    exact ⟨c, cs, rfl, h.1, h.2⟩

/-- A name has none of the characters that the scanner acts on. -/
theorem isNameChar_ne {c d : Char} (h : isNameChar c = true) (hd : isNameChar d = false) : c ≠ d := by
  rintro rfl
  rw [h] at hd
  cases hd

theorem isNameChar_not_space {c : Char} (h : isNameChar c = true) : isSpace c = false := by
  simp only [isSpace, Bool.or_eq_false_iff, decide_eq_false_iff_not]
  exact ⟨⟨⟨isNameChar_ne h rfl, isNameChar_ne h rfl⟩, isNameChar_ne h rfl⟩, isNameChar_ne h rfl⟩

theorem isNameStart_isNameChar {c : Char} (h : isNameStart c = true) : isNameChar c = true := by
  simp [isNameChar, h]

theorem scanLoop_text {t : Text} (h : '<' ∉ t) (piece rest : Text) :
    scanLoop .text piece (t ++ rest) = scanLoop .text (piece ++ t) rest := by
  induction t generalizing piece with
  | nil => simp
  | cons c cs ih =>
    rw [List.mem_cons, not_or] at h
    rw [List.cons_append, scanLoop, if_neg (Ne.symm h.1), ih h.2]
    simp

theorem scanLoop_name {n : Text} (h : ∀ c ∈ n, isNameChar c = true) (piece rest : Text) :
    scanLoop .tag piece (n ++ rest) = scanLoop .tag (piece ++ n) rest := by
  induction n generalizing piece with
  | nil => simp
  | cons c cs ih =>
    have hc := h c (by simp)
    have hquote : ¬ (c = '"' ∨ c = '\'') := by
      rintro (h | h) <;> exact isNameChar_ne hc rfl h
    rw [List.cons_append, scanLoop, if_neg (isNameChar_ne hc rfl), if_neg (isNameChar_ne hc rfl),
      if_neg hquote, ih fun d hd => h d (by simp [hd])]
    simp

theorem isPlain_ne {c d : Char} (h : isPlain c = true) (hd : isPlain d = false) : c ≠ d := by
  rintro rfl
  rw [h] at hd
  cases hd

theorem scanLoop_quoted {v : Text} (h : ∀ c ∈ v, isPlain c = true) (piece rest : Text) :
    scanLoop (.quoted '"') piece (v ++ '"' :: rest) =
      scanLoop .tag (piece ++ v ++ ['"']) rest := by
  induction v generalizing piece with
  | nil =>
    rw [List.nil_append, scanLoop, if_neg (by decide), if_pos rfl, List.append_nil]
  | cons c cs ih =>
    have hc := h c (by simp)
    rw [List.cons_append, scanLoop, if_neg (isPlain_ne hc rfl), if_neg (isPlain_ne hc rfl),
      ih fun d hd => h d (by simp [hd])]
    simp

theorem scanLoop_writeAttrs {attrs : List (Text × Text)}
    (h : ∀ a ∈ attrs, isName a.1 = true ∧ ∀ c ∈ a.2, isPlain c = true) (piece rest : Text) :
    scanLoop .tag piece (writeAttrs attrs ++ rest) =
      scanLoop .tag (piece ++ writeAttrs attrs) rest := by
  induction attrs generalizing piece with
  | nil => simp [writeAttrs]
  | cons a attrs ih =>
    obtain ⟨hname, hvalue⟩ := h a (by simp)
    have hcons : writeAttrs (a :: attrs) =
        [' '] ++ (a.1 ++ (['=', '"'] ++ (a.2 ++ '"' :: writeAttrs attrs))) := by
      simp [writeAttrs]
    have hblank (piece rest : Text) :
        scanLoop .tag piece (' ' :: rest) = scanLoop .tag (piece ++ [' ']) rest := by
      rw [scanLoop, if_neg (by decide), if_neg (by decide), if_neg (by decide)]
    have hequals (piece rest : Text) : scanLoop .tag piece ('=' :: '"' :: rest) =
        scanLoop (.quoted '"') (piece ++ ['='] ++ ['"']) rest := by
      rw [scanLoop, if_neg (by decide), if_neg (by decide), if_neg (by decide), scanLoop,
        if_neg (by decide), if_neg (by decide), if_pos (by decide)]
    rw [hcons]
    simp only [List.append_assoc, List.cons_append, List.nil_append]
    rw [hblank, scanLoop_name (isName_all hname), hequals, scanLoop_quoted hvalue,
      ih fun b hb => h b (by simp [hb])]
    simp

/-- A written tag is cut off whole, and the text before it is completed. -/
theorem scanLoop_write {m : Markup} (h : m.Plain) (piece rest : Text) :
    scanLoop .text piece (m.write ++ rest) =
      (scanLoop .text [] rest).map fun s => emit (.text piece) (emit (.tag m.body) s) := by
  have hstop (piece rest : Text) : scanLoop .tag piece ('>' :: rest) =
      (scanLoop .text [] rest).map (emit (.tag piece)) := by
    rw [scanLoop, if_pos rfl]
  have hbody : scanLoop .tag [] (m.body ++ '>' :: rest) = scanLoop .tag m.body ('>' :: rest) := by
    cases m with
    | start tag =>
      rw [Markup.body, List.append_assoc, scanLoop_name (isName_all h.name),
        scanLoop_writeAttrs h.attrs, List.nil_append]
    | stop name =>
      rw [Markup.body, List.cons_append, scanLoop, if_neg (by decide), if_neg (by decide),
        if_neg (by decide), scanLoop_name (isName_all h), List.nil_append, List.singleton_append]
  rw [Markup.write, List.cons_append, scanLoop, if_pos rfl, List.append_assoc,
    List.singleton_append, hbody, hstop, Option.map_map]
  rfl

theorem attrLoop_name {t : Text} (h : ∀ c ∈ t, isNameChar c = true) (n rest : Text) :
    attrLoop (.name n) (t ++ '=' :: rest) = attrLoop (.value (n ++ t)) rest := by
  induction t generalizing n with
  | nil => rw [List.nil_append, attrLoop, if_pos rfl, List.append_nil]
  | cons c cs ih =>
    have hc := h c (by simp)
    rw [List.cons_append, attrLoop, if_neg (isNameChar_ne hc rfl), isNameChar_not_space hc, if_neg
      Bool.false_ne_true, if_pos hc, ih fun d hd => h d (by simp [hd])]
    simp

/-- A plain value is read as it is written. -/
theorem attrValue_plain {v : Text} (h : ∀ c ∈ v, isPlain c = true) : attrValue v = some v := by
  have hmap : (v.map fun c => if isSpace c then ' ' else c) = v := by
    refine (List.map_congr_left fun c hc => ?_).trans (List.map_id v)
    have hplain := h c hc
    by_cases hspace : isSpace c = true
    · simp only [isPlain, hspace, Bool.true_and, Bool.and_eq_true, Bool.not_eq_true',
        bne_eq_false_iff_eq] at hplain
      simp [hplain.2]
    · simp [hspace]
  rw [attrValue, hmap, decode_eq_self fun hmem => isPlain_ne (h _ hmem) rfl rfl]

theorem attrLoop_quoted {w : Text} (h : ∀ c ∈ w, isPlain c = true) (n v rest : Text) :
    attrLoop (.quoted n '"' v) (w ++ '"' :: rest) =
      (attrValue (v ++ w)).bind fun value => (attrLoop (.gap false) rest).map ((n, value) :: ·) := by
  induction w generalizing v with
  | nil => rw [List.nil_append, attrLoop, if_pos rfl, List.append_nil]
  | cons c cs ih =>
    rw [List.cons_append, attrLoop, if_neg (isPlain_ne (h c (by simp)) rfl),
      ih fun d hd => h d (by simp [hd])]
    simp

theorem attrLoop_writeAttrs {attrs : List (Text × Text)}
    (h : ∀ a ∈ attrs, isName a.1 = true ∧ ∀ c ∈ a.2, isPlain c = true) :
    attrLoop (.gap false) (writeAttrs attrs) = some attrs := by
  induction attrs with
  | nil => rfl
  | cons a attrs ih =>
    obtain ⟨n, v⟩ := a
    obtain ⟨hname, hvalue⟩ := h (n, v) (by simp)
    obtain ⟨c, cs, rfl, hc, hcs⟩ := isName_cons hname
    have hcons : writeAttrs ((c :: cs, v) :: attrs) =
        ' ' :: c :: (cs ++ '=' :: '"' :: (v ++ '"' :: writeAttrs attrs)) := by
      simp [writeAttrs]
    have hspace := isNameChar_not_space (isNameStart_isNameChar hc)
    rw [hcons, attrLoop, if_pos (by decide), attrLoop, hspace, if_neg Bool.false_ne_true,
      if_pos (by simp [hc]), attrLoop_name hcs, attrLoop, if_neg (by decide), if_pos (.inl rfl),
      attrLoop_quoted hvalue, List.nil_append, attrValue_plain hvalue,
      ih fun b hb => h b (by simp [hb])]
    rfl

/-- What follows a name in a written tag does not continue it. -/
theorem writeAttrs_head (attrs : List (Text × Text)) :
    writeAttrs attrs = [] ∨ ∃ rest, writeAttrs attrs = ' ' :: rest := by
  cases attrs with
  | nil => exact .inl rfl
  | cons a attrs => exact .inr ⟨_, rfl⟩

theorem takeWhile_name {n : Text} (h : ∀ c ∈ n, isNameChar c = true) {rest : Text}
    (hrest : rest = [] ∨ ∃ t, rest = ' ' :: t) :
    (n ++ rest).takeWhile isNameChar = n ∧ (n ++ rest).dropWhile isNameChar = rest := by
  rw [List.takeWhile_append_of_pos h, List.dropWhile_append_of_pos h]
  rcases hrest with rfl | ⟨t, rfl⟩
  · simp
  · have hblank : isNameChar ' ' = false := by decide
    simp [hblank]

theorem startTag_body {tag : Tag} (h : tag.Plain) :
    startTag (tag.name ++ writeAttrs tag.attrs) = some tag := by
  obtain ⟨htake, hdrop⟩ := takeWhile_name (isName_all h.name) (writeAttrs_head tag.attrs)
  simp only [startTag, htake, hdrop, h.name, if_true, attrLoop_writeAttrs h.attrs, Option.map_some]
  exact Option.filter_some_pos (by simpa using h.nodup)

/-- A written start tag is not taken for an empty-element tag. -/
theorem body_getLast {tag : Tag} (h : tag.Plain) :
    (tag.name ++ writeAttrs tag.attrs).getLast? ≠ some '/' := by
  rcases List.eq_nil_or_concat tag.attrs with hnil | ⟨attrs, a, ha⟩
  · intro hlast
    rw [hnil] at hlast
    have hmem : '/' ∈ tag.name := by
      have h' : tag.name.getLast? = some '/' := by simpa [writeAttrs] using hlast
      exact List.mem_of_getLast? h'
    exact isNameChar_ne (isName_all h.name '/' hmem) rfl rfl
  · have hquote : writeAttrs tag.attrs =
        (writeAttrs attrs ++ ' ' :: (a.1 ++ '=' :: '"' :: a.2)) ++ ['"'] := by
      simp [ha, writeAttrs]
    rw [hquote, ← List.append_assoc, List.getLast?_concat]
    decide

theorem tagTokens_body {m : Markup} (h : m.Plain) : tagTokens m.body = some [.markup m] := by
  cases m with
  | start tag =>
    obtain ⟨c, cs, hname, hc, -⟩ := isName_cons h.name
    have hslash : c ≠ '/' := isNameChar_ne (isNameStart_isNameChar hc) rfl
    have hlast := body_getLast h
    have hstart := startTag_body h
    rw [Markup.body]
    rw [hname, List.cons_append] at hlast hstart ⊢
    rw [tagTokens]
    · rw [if_neg hlast, hstart]
      rfl
    · rintro _ he
      simp only [List.cons.injEq] at he
      exact hslash he.1
  | stop name =>
    obtain ⟨htake, hdrop⟩ := takeWhile_name (isName_all h) (.inl rfl)
    rw [List.append_nil] at htake hdrop
    have hn : isName name = true := h
    simp [Markup.body, tagTokens, htake, hdrop, hn]

end AbacMiddleLayer.Xml
