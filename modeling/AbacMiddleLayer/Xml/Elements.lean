import AbacMiddleLayer.Xml.TagText

/-! # Element trees

A document is read as a tree of elements, each with text or with elements in it, and white space
between the elements. `Writes` relates texts and the elements that they write; reading what was
written gives the elements back, behind any beginning of a document.
-/
namespace AbacMiddleLayer.Xml

inductive Element where
  | leaf (tag : Tag) (text : Text)
  | node (tag : Tag) (children : List Element)

def Element.tag : Element → Tag
  | .leaf tag _ => tag
  | .node tag _ => tag

/-- The elements in an element, if there is no text between them. -/
def Element.content : Element → Option (List Element)
  | .leaf _ s => if s.all isSpace then some [] else none
  | .node _ es => some es

/-- An element that has not ended: its text so far, or the elements in it so far. -/
structure Open where
  tag : Tag
  text : Text := []
  children : List Element := []

def Open.element (f : Open) : Element :=
  if f.children.isEmpty then .leaf f.tag f.text else .node f.tag f.children

/-- A token in the innermost of the open elements. -/
def readToken : List Open → Token → Option (List Open)
  | f :: fs, .text s =>
    if f.children.isEmpty then some ({ f with text := f.text ++ s } :: fs)
    else if s.all isSpace then some (f :: fs) else none
  | f :: fs, .markup (.start tag) =>
    if f.children.isEmpty && !f.text.all isSpace then none
    else some ({ tag := tag } :: { f with text := [] } :: fs)
  | f :: g :: fs, .markup (.stop name) =>
    if name = f.tag.name then some ({ g with children := g.children ++ [f.element] } :: fs) else none
  | _, _ => none

/-- The open elements after a text, from open elements and the text under way in them. -/
def readFrom (fs : List Open) (piece t : Text) : Option (List Open) :=
  (scanLoop .text piece t).bind fun s =>
    if s.2.1 = .text then (tokenize (s.1 ++ [.text s.2.2])).bind fun ts => ts.foldlM readToken fs
    else none

/-- The document is taken for an element around its root. -/
def document : Open := { tag := ⟨[], []⟩ }

def rootOf : List Open → Option Element
  | [⟨_, _, [e]⟩] => some e
  | _ => none

/-- The root element of a document. -/
def parse (doc : Text) : Option Element :=
  if (normalizeLineEnds doc).all isXmlChar then
    (strip (normalizeLineEnds doc)).bind fun t => (readFrom [document] [] t).bind rootOf
  else none

/-- The text writes the elements, with white space around them. -/
inductive Writes : Text → List Element → Prop
  | blank {s : Text} (h : ∀ c ∈ s, isSpace c = true ∧ c ≠ '\r') : Writes s []
  | leaf {o : TagText} {raw value : Text} (ho : o.Ok) (hraw : Reads raw value) (hcr : '\r' ∉ raw) :
    Writes (o.start ++ (raw ++ o.stop)) [.leaf o.tag value]
  | whole {o : TagText} (ho : o.Ok) : Writes o.whole [.leaf o.tag []]
  | node {o : TagText} {inner : Text} {es : List Element} (ho : o.Ok) (h : Writes inner es)
    (hne : es ≠ []) : Writes (o.start ++ (inner ++ o.stop)) [.node o.tag es]
  | append {t u : Text} {es fs : List Element} (h : Writes t es) (h' : Writes u fs) :
    Writes (t ++ u) (es ++ fs)

theorem Writes.clean {t : Text} {es : List Element} (h : Writes t es) : Clean t := by
  induction h with
  | blank h => exact clean_blank h
  | leaf ho hraw hcr =>
    exact ho.clean_start.append
      ((clean_text hraw.chars hcr hraw.noTag).append (TagText.clean_stop ho.name_isName))
  | whole ho => exact ho.clean_whole
  | node ho _ _ ih => exact ho.clean_start.append (ih.append (TagText.clean_stop ho.name_isName))
  | append _ _ ih ih' => exact ih.append ih'

theorem readFrom_nil (fs : List Open) (piece : Text) :
    readFrom fs piece [] = (rawTokens (.text piece)).bind fun ts => ts.foldlM readToken fs := by
  rw [readFrom, scanLoop, Option.bind_some, if_pos rfl, List.nil_append, tokenize]
  cases rawTokens (.text piece) <;> simp [tokenize]

theorem readFrom_text {t : Text} (h : '<' ∉ t) (fs : List Open) (piece rest : Text) :
    readFrom fs piece (t ++ rest) = readFrom fs (piece ++ t) rest := by
  rw [readFrom, scanLoop_text h]
  rfl

theorem scanLoop_append (m : Mode) (piece t u : Text) :
    scanLoop m piece (t ++ u) = (scanLoop m piece t).bind fun s =>
      (scanLoop s.2.1 s.2.2 u).map fun r => (s.1 ++ r.1, r.2) := by
  induction t generalizing m piece with
  | nil => simp [scanLoop]
  | cons c cs ih =>
    have hemit (r : Raw) (m : Mode) : (scanLoop m [] (cs ++ u)).map (emit r) =
        ((scanLoop m [] cs).map (emit r)).bind fun s =>
          (scanLoop s.2.1 s.2.2 u).map fun r => (s.1 ++ r.1, r.2) := by
      rw [ih]
      cases scanLoop m [] cs with
      | none => rfl
      | some s => cases hs : scanLoop s.2.1 s.2.2 u <;> simp [emit, hs]
    rw [List.cons_append]
    cases m with
    | text =>
      rw [scanLoop, scanLoop]
      split_ifs
      · exact hemit _ _
      · exact ih _ _
    | tag =>
      rw [scanLoop, scanLoop]
      split_ifs
      · exact hemit _ _
      · rfl
      · exact ih _ _
      · exact ih _ _
    | quoted q =>
      rw [scanLoop, scanLoop]
      split_ifs
      · rfl
      · exact ih _ _
      · exact ih _ _

/-- A text that ends outside of tags leads to open elements from which reading goes on. -/
theorem readFrom_append {t piece piece' : Text} {raws : List Raw}
    (h : scanLoop .text piece t = some (raws, .text, piece')) (fs : List Open) (rest : Text) :
    readFrom fs piece (t ++ rest) =
      ((tokenize raws).bind fun ts => ts.foldlM readToken fs).bind fun gs =>
        readFrom gs piece' rest := by
  simp only [readFrom, scanLoop_append, h, Option.bind_some]
  cases scanLoop .text piece' rest with
  | none =>
    rw [Option.map_none, Option.bind_none]
    cases (tokenize raws).bind fun ts => ts.foldlM readToken fs <;> rfl
  | some s =>
    rw [Option.map_some, Option.bind_some]
    simp only [Option.bind_some]
    by_cases hmode : s.2.1 = .text
    · simp only [hmode, if_true, List.append_assoc, tokenize_append raws]
      cases tokenize raws with
      | none => rfl
      | some ts =>
        rw [Option.bind_some, Option.bind_some]
        cases tokenize (s.1 ++ [.text s.2.2]) with
        | none => cases ts.foldlM readToken fs <;> rfl
        | some us => exact List.foldlM_append
    · simp only [hmode, if_false]
      cases (tokenize raws).bind fun ts => ts.foldlM readToken fs <;> rfl

/-- A tag ends the text under way. -/
theorem readFrom_tag {body : Text} {us : List Token} (hwithin : Mode.tag.within body = some .tag)
    (hbody : tagTokens body = some us) (fs : List Open) (piece rest : Text) :
    readFrom fs piece ('<' :: (body ++ ['>']) ++ rest) =
      ((rawTokens (.text piece)).bind fun ts => (ts ++ us).foldlM readToken fs).bind fun gs =>
        readFrom gs [] rest := by
  have hscan : scanLoop .text piece ('<' :: (body ++ ['>'])) =
      some ([.text piece, .tag body], .text, []) := by
    rw [scanLoop, if_pos rfl, scanLoop_within hwithin, scanLoop, if_pos rfl]
    rfl
  have htag : rawTokens (.tag body) = some us := hbody
  rw [readFrom_append hscan, tokenize, tokenize, htag]
  cases rawTokens (.text piece) <;> simp [tokenize]

theorem readFrom_stopTag {n : Text} (h : isName n = true) (fs : List Open) (piece rest : Text) :
    readFrom fs piece (stopTag n ++ rest) =
      ((rawTokens (.text piece)).bind fun ts =>
        (ts ++ [Token.markup (.stop n)]).foldlM readToken fs).bind fun gs => readFrom gs [] rest :=
  readFrom_tag (TagText.within_stop h) (TagText.tagTokens_stop h) fs piece rest

/-- White space is under way. -/
def Pending (piece : Text) : Prop :=
  ∃ v, rawTokens (.text piece) = some [.text v] ∧ v.all isSpace = true

/-- No text is under way that elements could not follow. -/
def Open.Ready (f : Open) : Prop := f.children = [] → f.text.all isSpace = true

theorem readToken_text {f : Open} (hf : f.Ready) {v : Text} (hv : v.all isSpace = true)
    (fs : List Open) :
    ∃ g, readToken (f :: fs) (.text v) = some (g :: fs) ∧ g.tag = f.tag ∧
      g.children = f.children ∧ g.Ready := by
  rcases hchildren : f.children with _ | ⟨e, es⟩
  · refine ⟨{ f with text := f.text ++ v }, by simp [readToken, hchildren], rfl, hchildren, ?_⟩
    intro _
    rw [List.all_append, hf hchildren, hv]
    rfl
  · exact ⟨f, by simp [readToken, hchildren, hv], rfl, hchildren, hf⟩

theorem readToken_start {f : Open} (hf : f.Ready) (tag : Tag) (fs : List Open) :
    readToken (f :: fs) (.markup (.start tag)) = some ({ tag := tag } :: { f with text := [] } :: fs) := by
  rw [readToken, if_neg]
  rcases hchildren : f.children with _ | ⟨e, es⟩
  · simp [hf hchildren]
  · simp

/-- A start tag behind white space opens an element. -/
theorem readFrom_start {f : Open} (hf : f.Ready) {piece : Text} (hpiece : Pending piece)
    (fs : List Open) :
    ∃ g : Open, g.tag = f.tag ∧ g.children = f.children ∧ g.text = [] ∧
      ∀ {tag : Tag} {body : Text} {us : List Token}, Mode.tag.within body = some .tag →
        tagTokens body = some (.markup (.start tag) :: us) → ∀ rest,
          readFrom (f :: fs) piece ('<' :: (body ++ ['>']) ++ rest) =
            (us.foldlM readToken ({ tag := tag } :: g :: fs)).bind fun gs => readFrom gs [] rest := by
  obtain ⟨v, hv, hblank⟩ := hpiece
  obtain ⟨g, hg, htag, hchildren, hready⟩ := readToken_text hf hblank fs
  refine ⟨{ g with text := [] }, htag, hchildren, rfl, ?_⟩
  intro tag body us hwithin hbody rest
  rw [readFrom_tag hwithin hbody, hv, Option.bind_some, List.singleton_append, List.foldlM_cons, hg]
  simp only [Option.bind_eq_bind, Option.bind_some, List.foldlM_cons, readToken_start hready]

theorem amp_not_mem_of_space {s : Text} (h : ∀ c ∈ s, isSpace c = true) : '&' ∉ s := fun hmem =>
  absurd (h '&' hmem) (by decide)

theorem gt_not_mem_of_space {s : Text} (h : ∀ c ∈ s, isSpace c = true) : '>' ∉ s := fun hmem =>
  absurd (h '>' hmem) (by decide)

theorem decodeLoop_append {s : Text} (hs : '&' ∉ s) {name : Option Text} {p v : Text}
    (h : decodeLoop name p = some v) : decodeLoop name (p ++ s) = some (v ++ s) := by
  induction p generalizing name v with
  | nil =>
    cases name with
    | some n => cases h
    | none =>
      cases h
      exact decode_eq_self hs
  | cons c cs ih =>
    rw [List.cons_append]
    cases name with
    | none =>
      rw [decodeLoop] at h ⊢
      split_ifs at h ⊢
      · exact ih h
      · obtain ⟨u, hu, rfl⟩ := Option.map_eq_some_iff.mp h
        rw [ih hu]
        rfl
    | some n =>
      rw [decodeLoop] at h ⊢
      split_ifs at h ⊢
      · obtain ⟨d, hd, h⟩ := Option.bind_eq_some_iff.mp h
        obtain ⟨u, hu, rfl⟩ := Option.map_eq_some_iff.mp h
        rw [hd, ih hu]
        rfl
      · exact ih h

theorem hasCdataEnd_append {s : Text} (hs : '>' ∉ s) {p : Text} (h : hasCdataEnd p = false) :
    hasCdataEnd (p ++ s) = false := by
  fun_induction hasCdataEnd p with
  | case1 => cases h
  | case2 c cs hnot ih =>
    rw [List.cons_append, hasCdataEnd]
    · exact ih h
    · rintro rest rfl he
      rcases cs with _ | ⟨d, _ | ⟨e, ds⟩⟩
      · rw [List.nil_append] at he
        exact hs (by simp [he])
      · rw [List.singleton_append, List.cons.injEq] at he
        exact hs (by simp [he.2])
      · simp only [List.cons_append, List.cons.injEq] at he
        exact hnot ds rfl (by rw [he.1, he.2.1])
  | case3 => exact hasCdataEnd_eq_false hs

theorem Pending.append {piece s : Text} (h : Pending piece) (hs : ∀ c ∈ s, isSpace c = true) :
    Pending (piece ++ s) := by
  obtain ⟨v, hv, hblank⟩ := h
  obtain ⟨value, hend, hdecode, he⟩ := rawTokens_text hv
  cases he
  have hdecode' : decode (piece ++ s) = some (v ++ s) :=
    decodeLoop_append (amp_not_mem_of_space hs) hdecode
  refine ⟨v ++ s, ?_, ?_⟩
  · rw [rawTokens, hasCdataEnd_append (gt_not_mem_of_space hs) hend, if_neg Bool.false_ne_true,
      hdecode']
    rfl
  · rw [List.all_append, hblank, List.all_eq_true.mpr hs]
    rfl

theorem pending_nil : Pending [] := ⟨[], rfl, rfl⟩

/-- Reading a text in an open element adds the elements that the text writes. -/
theorem Writes.readFrom {t : Text} {es : List Element} (h : Writes t es) :
    ∀ {f : Open}, f.Ready → ∀ {piece : Text}, Pending piece → ∀ fs : List Open,
      ∃ g w, g.tag = f.tag ∧ g.children = f.children ++ es ∧ g.Ready ∧ Pending w ∧
        ∀ rest, readFrom (f :: fs) piece (t ++ rest) = readFrom (g :: fs) w rest := by
  induction h with
  | blank h =>
    intro f hf piece hpiece fs
    have hspace := fun c hc => (h c hc).1
    exact ⟨f, _, rfl, (List.append_nil _).symm, hf, hpiece.append hspace, fun rest =>
      readFrom_text (lt_not_mem_of_space hspace) _ _ rest⟩
  | @leaf o raw value ho hraw hcr =>
    intro f hf piece hpiece fs
    obtain ⟨g, htag, hchildren, htext, hstart⟩ := readFrom_start hf hpiece fs
    refine ⟨{ g with children := g.children ++ [.leaf o.tag value] }, [], htag, by simp [hchildren],
      fun h => absurd h (by simp), pending_nil, fun rest => ?_⟩
    have hvalue := hraw.rawTokens
    rw [normalizeLineEnds_eq_self hcr] at hvalue
    rw [TagText.start, TagText.stop, List.append_assoc, List.append_assoc,
      hstart ho.within ho.tagTokens]
    simp only [List.foldlM_nil, Option.pure_def, Option.bind_some]
    rw [readFrom_text hraw.noTag, List.nil_append,
      readFrom_stopTag ho.name_isName, hvalue]
    simp [readToken, Open.element, TagText.tag]
  | @whole o ho =>
    intro f hf piece hpiece fs
    obtain ⟨g, htag, hchildren, htext, hstart⟩ := readFrom_start hf hpiece fs
    refine ⟨{ g with children := g.children ++ [.leaf o.tag []] }, [], htag, by simp [hchildren],
      fun h => absurd h (by simp), pending_nil, fun rest => ?_⟩
    rw [TagText.whole, hstart ho.within_whole ho.tagTokens_whole]
    simp [readToken, Open.element, TagText.tag]
  | @node o inner es ho _ hne ih =>
    intro f hf piece hpiece fs
    obtain ⟨g, htag, hchildren, htext, hstart⟩ := readFrom_start hf hpiece fs
    have hready : ({ tag := o.tag } : Open).Ready := fun _ => rfl
    obtain ⟨k, w, hktag, hkchildren, hkready, hw, hinner⟩ := ih hready pending_nil (g :: fs)
    refine ⟨{ g with children := g.children ++ [.node o.tag es] }, [], htag, by simp [hchildren],
      fun h => absurd h (by simp), pending_nil, fun rest => ?_⟩
    obtain ⟨v, hv, hblank⟩ := hw
    obtain ⟨e, es, rfl⟩ := List.exists_cons_of_ne_nil hne
    obtain ⟨ktag, ktext, kchildren⟩ := k
    obtain rfl : ktag = o.tag := hktag
    obtain rfl : kchildren = e :: es := hkchildren
    rw [TagText.start, TagText.stop, List.append_assoc, List.append_assoc,
      hstart ho.within ho.tagTokens]
    simp only [List.foldlM_nil, Option.pure_def, Option.bind_some]
    rw [hinner, readFrom_stopTag ho.name_isName, hv]
    simp [readToken, Open.element, TagText.tag, hblank]
  | append _ _ ih ih' =>
    intro f hf piece hpiece fs
    obtain ⟨g, w, htag, hchildren, hready, hw, hfirst⟩ := ih hf hpiece fs
    obtain ⟨k, x, htag', hchildren', hready', hx, hsecond⟩ := ih' hready hw fs
    refine ⟨k, x, htag'.trans htag, ?_, hready', hx, fun rest => ?_⟩
    · rw [hchildren', hchildren, List.append_assoc]
    · rw [List.append_assoc, hfirst, hsecond]

theorem readFrom_pending {g : Open} {w : Text} (hg : g.Ready) (hw : Pending w) (fs : List Open) :
    ∃ k, readFrom (g :: fs) w [] = some (k :: fs) ∧ k.children = g.children := by
  obtain ⟨v, hv, hblank⟩ := hw
  obtain ⟨k, hk, -, hchildren, -⟩ := readToken_text hg hblank fs
  exact ⟨k, by simp [readFrom_nil, hv, hk], hchildren⟩

/-- A document is read as it is written, apart from its comments. -/
theorem Writes.parse_of_stripped {doc t : Text} {e : Element} (h : Writes t [e])
    (hdoc : Stripped doc t) : Xml.parse doc = some e := by
  have hready : document.Ready := fun _ => rfl
  obtain ⟨g, w, -, hchildren, hg, hw, hread⟩ := h.readFrom hready pending_nil []
  obtain ⟨k, hk, hkchildren⟩ := readFrom_pending hg hw []
  have hroot : Xml.readFrom [document] [] t = some [k] := by
    have hread' := hread []
    rwa [List.append_nil, hk] at hread'
  rw [Xml.parse, if_pos (normalizeLineEnds_isXmlChar.mpr hdoc.chars),
    normalizeLineEnds_eq_self hdoc.noCr, hdoc.strips.strip_eq, Option.bind_some, hroot,
    Option.bind_some]
  obtain ⟨ktag, ktext, kchildren⟩ := k
  obtain rfl : kchildren = [e] := hkchildren.trans hchildren
  rfl

theorem Writes.parse {t : Text} {e : Element} (h : Writes t [e]) : Xml.parse t = some e :=
  h.parse_of_stripped h.clean

def indent (n : ℕ) : Text := List.replicate n ' '

/-- An element on lines of its own, around the lines of what is in it. -/
def block (n : ℕ) (tag : Tag) (inner : Text) : Text :=
  indent n ++ (((TagText.ofTag tag).start ++
    (('\n' :: (inner ++ indent n)) ++ (TagText.ofTag tag).stop)) ++ ['\n'])

/-- An element and its text on one line. -/
def valueLine (n : ℕ) (tag : Tag) (raw : Text) : Text :=
  indent n ++ (((TagText.ofTag tag).start ++ (raw ++ (TagText.ofTag tag).stop)) ++ ['\n'])

def wholeLine (n : ℕ) (tag : Tag) : Text := indent n ++ ((TagText.ofTag tag).whole ++ ['\n'])

theorem indent_blank (n : ℕ) : ∀ c ∈ indent n, isSpace c = true ∧ c ≠ '\r' := by
  intro c hc
  rw [List.eq_of_mem_replicate hc]
  decide

theorem writes_indent (n : ℕ) : Writes (indent n) [] := .blank (indent_blank n)

theorem writes_lineFeed : Writes ['\n'] [] := .blank (List.forall_mem_singleton.mpr (by decide))

/-- An element behind blanks, with the end of its line. -/
theorem Writes.line {t : Text} {es : List Element} (h : Writes t es) (n : ℕ) :
    Writes (indent n ++ (t ++ ['\n'])) es := by
  have hline := (writes_indent n).append (h.append writes_lineFeed)
  rwa [List.append_nil, List.nil_append] at hline

theorem writes_flatMap {α : Type*} {l : List α} {f : α → Text} {g : α → Element}
    (h : ∀ a ∈ l, Writes (f a) [g a]) : Writes (l.flatMap f) (l.map g) := by
  induction l with
  | nil => exact .blank nofun
  | cons a l ih =>
    rw [List.forall_mem_cons] at h
    exact h.1.append (ih h.2)

theorem writes_block {tag : Tag} (htag : tag.Plain) {inner : Text} {es : List Element}
    (h : Writes inner es) (hne : es ≠ []) (n : ℕ) : Writes (block n tag inner) [.node tag es] := by
  have hinner : Writes ('\n' :: (inner ++ indent n)) es := by
    have happend := writes_lineFeed.append (h.append (writes_indent n))
    rwa [List.append_nil, List.nil_append] at happend
  have hnode := Writes.node (TagText.ok_ofTag htag) hinner hne
  rw [TagText.tag_ofTag] at hnode
  exact hnode.line n

theorem writes_valueLine {tag : Tag} (htag : tag.Plain) {raw value : Text} (h : Reads raw value)
    (hcr : '\r' ∉ raw) (n : ℕ) : Writes (valueLine n tag raw) [.leaf tag value] := by
  have hleaf := Writes.leaf (TagText.ok_ofTag htag) h hcr
  rw [TagText.tag_ofTag] at hleaf
  exact hleaf.line n

theorem writes_wholeLine {tag : Tag} (htag : tag.Plain) (n : ℕ) :
    Writes (wholeLine n tag) [.leaf tag []] := by
  have hwhole := Writes.whole (TagText.ok_ofTag htag)
  rw [TagText.tag_ofTag] at hwhole
  exact hwhole.line n

end AbacMiddleLayer.Xml
