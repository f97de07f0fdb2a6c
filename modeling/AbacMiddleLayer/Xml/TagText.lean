import AbacMiddleLayer.Xml.Comments

/-! # Tags as they are spelled

The attributes of a start tag may be set apart by any white space. However a tag is spelled, the
scanner takes it for the tag that it is, and dropping comments leaves it alone.
-/
namespace AbacMiddleLayer.Xml

def stopTag (n : Text) : Text := '<' :: (('/' :: n) ++ ['>'])

/-- A start tag with the white space in front of each of its attributes. -/
structure TagText where
  name : Text
  attrs : List (Text × Text × Text) := []

namespace TagText

def tag (o : TagText) : Tag := ⟨o.name, o.attrs.map Prod.snd⟩

def attrText (a : Text × Text × Text) : Text := a.1 ++ (a.2.1 ++ '=' :: '"' :: (a.2.2 ++ ['"']))

def body (o : TagText) : Text := o.name ++ o.attrs.flatMap attrText

def start (o : TagText) : Text := '<' :: (o.body ++ ['>'])

def stop (o : TagText) : Text := stopTag o.name

/-- The empty-element tag. -/
def whole (o : TagText) : Text := '<' :: ((o.body ++ ['/']) ++ ['>'])

structure Ok (o : TagText) : Prop where
  plain : o.tag.Plain
  gaps : ∀ a ∈ o.attrs, a.1 ≠ [] ∧ ∀ c ∈ a.1, isSpace c = true ∧ c ≠ '\r'

/-- A tag with one blank in front of each attribute. -/
def ofTag (t : Tag) : TagText := ⟨t.name, t.attrs.map fun a => ([' '], a)⟩

@[simp] theorem tag_ofTag (t : Tag) : (ofTag t).tag = t := by
  simp [ofTag, tag, Function.comp_def]

theorem ok_ofTag {t : Tag} (h : t.Plain) : (ofTag t).Ok where
  plain := by rwa [tag_ofTag]
  gaps := List.forall_mem_map.mpr fun _ _ =>
    ⟨List.cons_ne_nil _ _, List.forall_mem_singleton.mpr (by decide)⟩

variable {o : TagText}

theorem Ok.name_isName (h : o.Ok) : isName o.name = true := h.plain.name

theorem Ok.attr (h : o.Ok) {a : Text × Text × Text} (ha : a ∈ o.attrs) :
    isName a.2.1 = true ∧ ∀ c ∈ a.2.2, isPlain c = true :=
  h.plain.attrs a.2 (List.mem_map.mpr ⟨a, ha, rfl⟩)

theorem inTag_name {c : Char} (h : isNameChar c = true) : Mode.tag.inTag c = some .tag := by
  rw [Mode.inTag, if_neg (not_or.mpr ⟨isNameChar_ne h rfl, isNameChar_ne h rfl⟩),
    if_neg (not_or.mpr ⟨isNameChar_ne h rfl, isNameChar_ne h rfl⟩)]

theorem inTag_space {c : Char} (h : isSpace c = true) : Mode.tag.inTag c = some .tag := by
  simp only [isSpace, Bool.or_eq_true, decide_eq_true_eq] at h
  rcases h with ((rfl | rfl) | rfl) | rfl <;> rfl

theorem within_attrText {a : Text × Text × Text} (hgap : ∀ c ∈ a.1, isSpace c = true)
    (hname : isName a.2.1 = true) (hvalue : ∀ c ∈ a.2.2, isPlain c = true) :
    Mode.tag.within (attrText a) = some .tag := by
  have hquoted : ∀ c ∈ a.2.2, (Mode.quoted '"').inTag c = some (.quoted '"') := by
    intro c hc
    rw [Mode.inTag, if_neg (isPlain_ne (hvalue c hc) rfl), if_neg (isPlain_ne (hvalue c hc) rfl)]
  rw [attrText, Mode.within_append, Mode.within_of_forall fun c hc => inTag_space (hgap c hc),
    Option.bind_some, Mode.within_append,
    Mode.within_of_forall fun c hc => inTag_name (isName_all hname c hc), Option.bind_some,
    Mode.within_cons, show Mode.tag.inTag '=' = some .tag from rfl, Option.bind_some,
    Mode.within_cons, show Mode.tag.inTag '"' = some (.quoted '"') from rfl, Option.bind_some,
    Mode.within_append, Mode.within_of_forall hquoted]
  rfl

theorem Ok.within (h : o.Ok) : Mode.tag.within o.body = some .tag := by
  have hattrs : Mode.tag.within (o.attrs.flatMap attrText) = some .tag := by
    have hall : ∀ a ∈ o.attrs, Mode.tag.within (attrText a) = some .tag := fun a ha =>
      within_attrText (fun c hc => ((h.gaps a ha).2 c hc).1) (h.attr ha).1 (h.attr ha).2
    generalize o.attrs = attrs at hall
    induction attrs with
    | nil => rfl
    | cons a attrs ih =>
      rw [List.forall_mem_cons] at hall
      rw [List.flatMap_cons, Mode.within_append, hall.1]
      exact ih hall.2
  rw [body, Mode.within_append,
    Mode.within_of_forall fun c hc => inTag_name (isName_all h.name_isName c hc)]
  exact hattrs

theorem within_stop {n : Text} (h : isName n = true) : Mode.tag.within ('/' :: n) = some .tag := by
  rw [Mode.within_cons, show Mode.tag.inTag '/' = some .tag from rfl]
  exact Mode.within_of_forall fun c hc => inTag_name (isName_all h c hc)

theorem attrLoop_gap {g : Text} (hg : ∀ c ∈ g, isSpace c = true) (space : Bool) (rest : Text)
    (hne : g ≠ [] ∨ space = true) :
    attrLoop (.gap space) (g ++ rest) = attrLoop (.gap true) rest := by
  induction g generalizing space with
  | nil =>
    obtain rfl : space = true := hne.resolve_left fun h => h rfl
    rfl
  | cons c cs ih =>
    rw [List.forall_mem_cons] at hg
    rw [List.cons_append, attrLoop, if_pos hg.1]
    exact ih hg.2 true (.inr rfl)

theorem attrLoop_attrText {a : Text × Text × Text} (hne : a.1 ≠ [])
    (hgap : ∀ c ∈ a.1, isSpace c = true) (hname : isName a.2.1 = true)
    (hvalue : ∀ c ∈ a.2.2, isPlain c = true) (rest : Text) :
    attrLoop (.gap false) (attrText a ++ rest) =
      (attrLoop (.gap false) rest).map (a.2 :: ·) := by
  obtain ⟨g, n, v⟩ := a
  obtain ⟨c, cs, rfl, hc, hcs⟩ := isName_cons hname
  have hcons : attrText (g, c :: cs, v) ++ rest =
      g ++ (c :: (cs ++ '=' :: '"' :: (v ++ '"' :: rest))) := by
    simp [attrText]
  have hspace := isNameChar_not_space (isNameStart_isNameChar hc)
  rw [hcons, attrLoop_gap hgap false _ (.inl hne), attrLoop, hspace, if_neg Bool.false_ne_true,
    if_pos (by simp [hc]), attrLoop_name hcs, attrLoop, if_neg (by decide), if_pos (.inl rfl),
    attrLoop_quoted hvalue, List.nil_append, attrValue_plain hvalue]
  rfl

theorem Ok.attrLoop (h : o.Ok) :
    attrLoop (.gap false) (o.attrs.flatMap attrText) = some (o.attrs.map Prod.snd) := by
  have hall : ∀ a ∈ o.attrs, ∀ rest, Xml.attrLoop (.gap false) (attrText a ++ rest) =
      (Xml.attrLoop (.gap false) rest).map (a.2 :: ·) := fun a ha rest =>
    attrLoop_attrText (h.gaps a ha).1 (fun c hc => ((h.gaps a ha).2 c hc).1) (h.attr ha).1
      (h.attr ha).2 rest
  generalize o.attrs = attrs at hall
  induction attrs with
  | nil => rfl
  | cons a attrs ih =>
    rw [List.forall_mem_cons] at hall
    rw [List.flatMap_cons, hall.1, ih hall.2]
    rfl

/-- What follows the name starts with white space. -/
theorem Ok.takeWhile (h : o.Ok) :
    o.body.takeWhile isNameChar = o.name ∧
      o.body.dropWhile isNameChar = o.attrs.flatMap attrText := by
  rw [body, List.takeWhile_append_of_pos (isName_all h.name_isName),
    List.dropWhile_append_of_pos (isName_all h.name_isName)]
  rcases hattrs : o.attrs with _ | ⟨a, attrs⟩
  · simp
  · obtain ⟨hne, hgap⟩ := h.gaps a (by simp [hattrs])
    obtain ⟨c, cs, hg⟩ := List.exists_cons_of_ne_nil hne
    have hc : isNameChar c = false := by
      by_contra hname
      have hspace := (hgap c (by simp [hg])).1
      rw [isNameChar_not_space (by simpa using hname)] at hspace
      cases hspace
    simp [attrText, hg, hc]

theorem Ok.startTag (h : o.Ok) : startTag o.body = some o.tag := by
  obtain ⟨htake, hdrop⟩ := h.takeWhile
  simp only [Xml.startTag, htake, hdrop, h.name_isName, if_true, h.attrLoop, Option.map_some]
  exact Option.filter_some_pos (decide_eq_true h.plain.nodup)

theorem Ok.body_cons (h : o.Ok) : ∃ c cs, o.body = c :: cs ∧ isNameChar c = true := by
  obtain ⟨c, cs, hname, hc, -⟩ := isName_cons h.name_isName
  exact ⟨c, cs ++ o.attrs.flatMap attrText, by rw [body, hname, List.cons_append],
    isNameStart_isNameChar hc⟩

theorem Ok.getLast (h : o.Ok) : o.body.getLast? ≠ some '/' := by
  rcases List.eq_nil_or_concat o.attrs with hnil | ⟨attrs, a, ha⟩
  · intro hlast
    have hmem : '/' ∈ o.name := by
      have h' : o.name.getLast? = some '/' := by simpa [body, hnil] using hlast
      exact List.mem_of_getLast? h'
    exact isNameChar_ne (isName_all h.name_isName '/' hmem) rfl rfl
  · have hquote : o.body =
        (o.name ++ (attrs.flatMap attrText ++ (a.1 ++ (a.2.1 ++ '=' :: '"' :: a.2.2)))) ++ ['"'] := by
      simp [body, ha, attrText]
    rw [hquote, List.getLast?_concat]
    decide

theorem Ok.tagTokens (h : o.Ok) : tagTokens o.body = some [.markup (.start o.tag)] := by
  have hlast := h.getLast
  have hstart := h.startTag
  obtain ⟨c, cs, hbody, hc⟩ := h.body_cons
  rw [hbody] at hlast hstart ⊢
  rw [Xml.tagTokens]
  · rw [if_neg hlast, hstart]
    rfl
  · rintro _ he
    exact isNameChar_ne hc rfl (List.cons.inj he).1

theorem Ok.tagTokens_whole (h : o.Ok) : Xml.tagTokens (o.body ++ ['/']) =
    some [.markup (.start o.tag), .text [], .markup (.stop o.name)] := by
  have hstart := h.startTag
  obtain ⟨c, cs, hbody, hc⟩ := h.body_cons
  rw [hbody] at hstart ⊢
  rw [List.cons_append, Xml.tagTokens]
  · rw [← List.cons_append, List.getLast?_concat, if_pos rfl, List.dropLast_concat, hstart]
    rfl
  · rintro _ he
    exact isNameChar_ne hc rfl (List.cons.inj he).1

theorem tagTokens_stop {n : Text} (h : isName n = true) :
    Xml.tagTokens ('/' :: n) = some [.markup (.stop n)] :=
  tagTokens_body (m := .stop n) h

end TagText

/-- What the passes over a document need of a text: it has no carriage returns and none of the
characters that XML refuses, and its comments are whole. -/
structure Stripped (t u : Text) : Prop where
  chars : ∀ c ∈ t, isXmlChar c = true
  noCr : '\r' ∉ t
  strips : StripsTo t u

abbrev Clean (t : Text) : Prop := Stripped t t

theorem Stripped.append {t u t' u' : Text} (h : Stripped t u) (h' : Stripped t' u') :
    Stripped (t ++ t') (u ++ u') where
  chars := List.forall_mem_append.mpr ⟨h.chars, h'.chars⟩
  noCr hmem := (List.mem_append.mp hmem).elim h.noCr h'.noCr
  strips := h.strips.append h'.strips

theorem StripsTo.stripped {t u : Text} (h : StripsTo t u)
    (hchars : ∀ c ∈ t, isXmlChar c = true ∧ c ≠ '\r') : Stripped t u :=
  ⟨fun c hc => (hchars c hc).1, fun hmem => (hchars _ hmem).2 rfl, h⟩

theorem clean_text {t : Text} (h : ∀ c ∈ t, isXmlChar c = true) (hcr : '\r' ∉ t) (hlt : '<' ∉ t) :
    Clean t :=
  ⟨h, hcr, kept_text hlt⟩

theorem isSpace_isXmlChar {c : Char} (h : isSpace c = true) : isXmlChar c = true := by
  simp only [isSpace, Bool.or_eq_true, decide_eq_true_eq] at h
  rcases h with ((rfl | rfl) | rfl) | rfl <;> decide

theorem lt_not_mem_of_space {s : Text} (h : ∀ c ∈ s, isSpace c = true) : '<' ∉ s := by
  intro hmem
  exact absurd (h '<' hmem) (by decide)

theorem clean_blank {s : Text} (h : ∀ c ∈ s, isSpace c = true ∧ c ≠ '\r') : Clean s :=
  clean_text (fun c hc => isSpace_isXmlChar (h c hc).1) (fun hmem => (h _ hmem).2 rfl)
    (lt_not_mem_of_space fun c hc => (h c hc).1)

/-- A tag is clean when its characters are. -/
theorem clean_tag {c : Char} {cs : Text} (hbang : c ≠ '!') (hquery : c ≠ '?')
    (hwithin : Mode.tag.within (c :: cs) = some .tag)
    (h : ∀ d ∈ c :: cs, isXmlChar d = true ∧ d ≠ '\r') : Clean ('<' :: ((c :: cs) ++ ['>'])) where
  chars := by
    refine List.forall_mem_cons.mpr ⟨by decide, List.forall_mem_append.mpr
      ⟨fun d hd => (h d hd).1, List.forall_mem_singleton.mpr (by decide)⟩⟩
  noCr hmem := by
    rcases List.mem_cons.mp hmem with he | hmem
    · exact absurd he (by decide)
    rcases List.mem_append.mp hmem with hmem | hmem
    · exact (h _ hmem).2 rfl
    · exact absurd (List.mem_singleton.mp hmem) (by decide)
  strips := kept_tag hbang hquery hwithin

namespace TagText

variable {o : TagText}

theorem name_chars {n : Text} (h : isName n = true) :
    ∀ c ∈ n, isXmlChar c = true ∧ c ≠ '\r' := fun c hc =>
  ⟨isNameChar_isXmlChar (isName_all h c hc), isNameChar_ne (isName_all h c hc) rfl⟩

theorem Ok.body_chars (h : o.Ok) : ∀ c ∈ o.body, isXmlChar c = true ∧ c ≠ '\r' := by
  refine List.forall_mem_append.mpr ⟨name_chars h.name_isName, ?_⟩
  intro c hc
  obtain ⟨a, ha, hc⟩ := List.mem_flatMap.mp hc
  simp only [attrText, List.mem_append, List.mem_cons, List.not_mem_nil, or_false] at hc
  rcases hc with hc | hc | rfl | rfl | hc | rfl
  · exact ⟨isSpace_isXmlChar ((h.gaps a ha).2 c hc).1, ((h.gaps a ha).2 c hc).2⟩
  · exact name_chars (h.attr ha).1 c hc
  · decide
  · decide
  · exact ⟨isPlain_isXmlChar ((h.attr ha).2 c hc), isPlain_ne ((h.attr ha).2 c hc) rfl⟩
  · decide

theorem Ok.clean_start (h : o.Ok) : Clean o.start := by
  have hwithin := h.within
  have hchars := h.body_chars
  obtain ⟨c, cs, hbody, hc⟩ := h.body_cons
  rw [hbody] at hwithin hchars
  rw [start, hbody]
  exact clean_tag (isNameChar_ne hc rfl) (isNameChar_ne hc rfl) hwithin hchars

theorem Ok.within_whole (h : o.Ok) : Mode.tag.within (o.body ++ ['/']) = some .tag := by
  rw [Mode.within_append, h.within]
  rfl

theorem Ok.clean_whole (h : o.Ok) : Clean o.whole := by
  have hwithin := h.within_whole
  have hchars : ∀ c ∈ o.body ++ ['/'], isXmlChar c = true ∧ c ≠ '\r' :=
    List.forall_mem_append.mpr ⟨h.body_chars, List.forall_mem_singleton.mpr (by decide)⟩
  obtain ⟨c, cs, hbody, hc⟩ := h.body_cons
  rw [hbody, List.cons_append] at hwithin hchars
  rw [whole, hbody, List.cons_append]
  exact clean_tag (isNameChar_ne hc rfl) (isNameChar_ne hc rfl) hwithin hchars

theorem clean_stop {n : Text} (h : isName n = true) : Clean (stopTag n) :=
  clean_tag (by decide) (by decide) (within_stop h)
    (List.forall_mem_cons.mpr ⟨by decide, name_chars h⟩)

end TagText

end AbacMiddleLayer.Xml
