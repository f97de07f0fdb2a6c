import AbacMiddleLayer.Xml.Elements

/-! # Elements in front of the last end tag

A program that pastes text in front of the last end tag of a document, without reading the document,
adds elements to its root element. This holds for every document, whatever comments, references and
white space are in it, as long as its last end tag is the place.
-/
namespace AbacMiddleLayer.Xml

theorem scanLoop_before_tag {t u piece : Text} {s : ScanState}
    (h : scanLoop .text piece (t ++ '<' :: u) = some s) :
    ∃ raws piece', scanLoop .text piece t = some (raws, .text, piece') := by
  rw [scanLoop_append, Option.bind_eq_some_iff] at h
  obtain ⟨⟨raws, m, piece'⟩, ht, h⟩ := h
  cases m with
  | text => exact ⟨raws, piece', ht⟩
  | tag => cases h
  | quoted q => cases h

/-- What stands in front of a tag leads to open elements from which anything can be read. -/
theorem readFrom_before_tag {t u piece : Text} {fs final : List Open}
    (h : readFrom fs piece (t ++ '<' :: u) = some final) :
    ∃ gs piece', ∀ rest, readFrom fs piece (t ++ rest) = readFrom gs piece' rest := by
  obtain ⟨s, hs, -⟩ := Option.bind_eq_some_iff.mp h
  obtain ⟨raws, piece', hscan⟩ := scanLoop_before_tag hs
  rw [readFrom_append hscan, Option.bind_eq_some_iff] at h
  obtain ⟨gs, hgs, -⟩ := h
  exact ⟨gs, piece', fun rest => by rw [readFrom_append hscan, hgs, Option.bind_some]⟩

theorem rootOf_eq_some {fs : List Open} {root : Element} (h : rootOf fs = some root) :
    ∃ d : Open, fs = [d] ∧ d.children = [root] := by
  unfold rootOf at h
  split at h
  · cases h
    exact ⟨_, rfl, rfl⟩
  · cases h

theorem readToken_text_cases {fs gs : List Open} {v : Text}
    (h : readToken fs (.text v) = some gs) :
    ∃ f k others, fs = f :: others ∧ gs = k :: others ∧ k.tag = f.tag ∧ k.children = f.children ∧
      ∀ es, k.element.content = some es → f.Ready ∧ v.all isSpace = true ∧ f.children = es := by
  rcases fs with _ | ⟨f, others⟩
  · cases h
  rw [readToken] at h
  rcases hchildren : f.children with _ | ⟨e, es⟩
  · rw [hchildren, List.isEmpty_nil, if_pos rfl] at h
    cases h
    refine ⟨f, _, others, rfl, rfl, rfl, hchildren.symm, fun es hes => ?_⟩
    simp only [Open.element, List.isEmpty_nil, if_true, Element.content, List.all_append,
      Bool.and_eq_true, ite_eq_iff, reduceCtorEq, and_false, or_false] at hes
    exact ⟨fun _ => hes.1.1, hes.1.2, hchildren.trans (Option.some.inj hes.2)⟩
  · rw [hchildren, List.isEmpty_cons, if_neg Bool.false_ne_true] at h
    split_ifs at h with hv
    cases h
    refine ⟨f, f, others, rfl, rfl, rfl, rfl, fun es' hes => ?_⟩
    simp only [Open.element, hchildren, List.isEmpty_cons, Bool.false_eq_true, if_false,
      Element.content, Option.some.injEq] at hes
    exact ⟨fun hnil => absurd (hchildren ▸ hnil) (List.cons_ne_nil _ _), hv, hchildren.trans hes⟩

theorem readToken_stop_cases {fs gs : List Open} {n : Text}
    (h : readToken fs (.markup (.stop n)) = some gs) :
    ∃ k g others, fs = k :: g :: others ∧ n = k.tag.name ∧
      gs = { g with children := g.children ++ [k.element] } :: others := by
  rcases fs with _ | ⟨k, _ | ⟨g, others⟩⟩
  · cases h
  · cases h
  · rw [readToken] at h
    split_ifs at h with hname
    cases h
    exact ⟨k, g, others, rfl, hname, rfl⟩

/-- White space behind the root element changes nothing. -/
theorem rootOf_readFrom_blank {fs final : List Open} {u : Text} {root : Element}
    (hu : ∀ c ∈ u, isSpace c = true) (h : readFrom fs [] u = some final)
    (hroot : rootOf final = some root) : ∃ d : Open, fs = [d] ∧ d.children = [root] := by
  rw [← List.append_nil u, readFrom_text (lt_not_mem_of_space hu), readFrom_nil,
    Option.bind_eq_some_iff] at h
  obtain ⟨us, hus, h⟩ := h
  obtain ⟨w, -, -, rfl⟩ := rawTokens_text hus
  have htext : readToken fs (.text w) = some final := by simpa using h
  obtain ⟨f, k, others, rfl, rfl, -, hchildren, -⟩ := readToken_text_cases htext
  obtain ⟨d, hd, hd'⟩ := rootOf_eq_some hroot
  cases hd
  exact ⟨f, rfl, hchildren ▸ hd'⟩

/-- The open elements in front of the last end tag are the root and the document. -/
theorem readFrom_last_tag {gs final : List Open} {piece n u : Text} {root : Element}
    {es : List Element} (hn : isName n = true) (hu : ∀ c ∈ u, isSpace c = true)
    (h : readFrom gs piece (stopTag n ++ u) = some final)
    (hroot : rootOf final = some root) (hes : root.content = some es) :
    ∃ f g : Open, gs = [f, g] ∧ f.Ready ∧ Pending piece ∧ f.tag = root.tag ∧ n = f.tag.name ∧
      f.children = es ∧ g.children = [] := by
  rw [readFrom_stopTag hn, Option.bind_assoc,
    Option.bind_eq_some_iff] at h
  obtain ⟨ts, hts, h⟩ := h
  obtain ⟨v, -, -, rfl⟩ := rawTokens_text hts
  rw [Option.bind_eq_some_iff] at h
  obtain ⟨closed, hclosed, hblank⟩ := h
  simp only [List.singleton_append, List.foldlM_cons, List.foldlM_nil, Option.bind_eq_bind,
    Option.pure_def, Option.bind_eq_some_iff] at hclosed
  obtain ⟨opened, htext, stopped, hstop, he⟩ := hclosed
  cases he
  obtain ⟨d, rfl, hd⟩ := rootOf_readFrom_blank hu hblank hroot
  obtain ⟨k, g, others, rfl, hname, hgs⟩ := readToken_stop_cases hstop
  obtain ⟨f, k', others', rfl, hk, htag, hchildren, hready⟩ := readToken_text_cases htext
  cases hk
  simp only [List.cons.injEq] at hgs
  obtain ⟨rfl, rfl⟩ := hgs
  have hlast : g.children = [] ∧ k.element = root := by
    have hd' : g.children ++ [k.element] = [] ++ [root] := hd
    exact ⟨List.append_inj_left' hd' rfl, by simpa using List.append_inj_right' hd' rfl⟩
  have htag' : k.element.tag = k.tag := by
    unfold Open.element
    split_ifs <;> rfl
  obtain ⟨hf, hv, hfes⟩ := hready es (by rw [hlast.2, hes])
  exact ⟨f, g, rfl, hf, ⟨v, hts, hv⟩, by rw [← hlast.2, htag', htag], by rw [hname, htag], hfes,
    hlast.1⟩

/-- The last end tag closes an element with elements in it. -/
theorem rootOf_last_tag {f g : Open} {w u : Text} (hw : Pending w) (hne : f.children ≠ [])
    (hn : isName f.tag.name = true) (hg : g.children = []) (hu : ∀ c ∈ u, isSpace c = true) :
    (readFrom [f, g] w (stopTag f.tag.name ++ u)).bind rootOf =
      some (.node f.tag f.children) := by
  obtain ⟨v, hv, hblank⟩ := hw
  have hchildren : f.children.isEmpty = false := by simpa using hne
  have hready : ({ g with children := [f.element] } : Open).Ready := fun h => absurd h (by simp)
  obtain ⟨k, hk, hkchildren⟩ := readFrom_pending hready (pending_nil.append hu) []
  have hclose : readFrom [{ g with children := [f.element] }] [] u = some [k] := by
    have hread := readFrom_text (lt_not_mem_of_space hu) [{ g with children := [f.element] }] [] []
    rwa [List.append_nil, hk] at hread
  have htokens : [Token.text v, .markup (.stop f.tag.name)].foldlM readToken [f, g] =
      some [{ g with children := [f.element] }] := by
    simp [readToken, hchildren, hblank, hg]
  rw [readFrom_stopTag hn, hv, Option.bind_some,
    List.singleton_append, htokens, Option.bind_some, hclose, Option.bind_some]
  obtain ⟨ktag, ktext, kchildren⟩ := k
  obtain rfl : kchildren = [f.element] := hkchildren
  simp [rootOf, Open.element, hchildren]

/-- What stands in front of the last end tag is outside of comments, and the tag is kept. -/
theorem stripsTo_before_stop {t n u d : Text} (hn : isName n = true) (hdash : '-' ∉ n)
    (hu : ∀ c ∈ u, isSpace c = true ∧ c ≠ '\r') (h : strip (t ++ (stopTag n ++ u)) = some d) :
    ∃ p, StripsTo t p ∧ StripsTo (stopTag n ++ u) (stopTag n ++ u) ∧ d = p ++ (stopTag n ++ u) := by
  have hkept : StripsTo (stopTag n ++ u) (stopTag n ++ u) :=
    (TagText.clean_stop hn).strips.append (clean_blank hu).strips
  have hspace {c : Char} (hc : isSpace c = false) : c ∉ u := fun hmem => by
    rw [(hu c hmem).1] at hc
    cases hc
  have hname {c : Char} (hc : isNameChar c = false) : c ∉ n := fun hmem => by
    rw [isName_all hn c hmem] at hc
    cases hc
  obtain ⟨p, q, hp, hq, rfl⟩ := stripLoop_before_tag (u := ('/' :: n) ++ ['>'] ++ u)
    (by simp [hdash, hspace (c := '-') rfl]) (by simp [hname (c := '?') rfl, hspace (c := '?') rfl]) h
  rw [show stripLoop .text ('<' :: (('/' :: n) ++ ['>'] ++ u)) = some (stopTag n ++ u, .text) from
    hkept] at hq
  cases hq
  exact ⟨p, hp, hkept, rfl⟩

theorem readFrom_insert {p n u added : Text} {root : Element} {es fs : List Element}
    (hn : isName n = true) (hu : ∀ c ∈ u, isSpace c = true)
    (h : (readFrom [document] [] (p ++ (stopTag n ++ u))).bind rootOf = some root)
    (hes : root.content = some es) (hadded : Writes added fs) (hfs : fs ≠ []) :
    (readFrom [document] [] (p ++ (added ++ (stopTag n ++ u)))).bind rootOf =
      some (.node root.tag (es ++ fs)) := by
  obtain ⟨final, hfinal, hroot⟩ := Option.bind_eq_some_iff.mp h
  obtain ⟨gs, piece, hgs⟩ := readFrom_before_tag (u := ('/' :: n) ++ ['>'] ++ u) hfinal
  rw [hgs] at hfinal
  obtain ⟨f, g, rfl, hf, hpiece, htag, rfl, rfl, hg⟩ := readFrom_last_tag hn hu hfinal hroot hes
  obtain ⟨k, w, hktag, hkchildren, -, hw, hread⟩ := hadded.readFrom hf hpiece [g]
  have hne : k.children ≠ [] := by simp [hkchildren, hfs]
  rw [hgs, hread, ← hktag, rootOf_last_tag hw hne (hktag ▸ hn) hg hu, hktag, htag, hkchildren]

theorem normalizeLineEnds_append_of_head {t v : Text} (hn : v.head? ≠ some '\n')
    (hr : v.head? ≠ some '\r') :
    normalizeLineEnds (t ++ v) = normalizeLineEnds t ++ normalizeLineEnds v := by
  rcases v with _ | ⟨c, cs⟩
  · simp [normalizeLineEnds]
  · have hr' : c ≠ '\r' := by simpa using hr
    rw [normalizeLineEnds_append (by simpa using hn) hr', normalizeLineEnds_cons hr']

theorem normalizeLineEnds_insert {n : Text} (hn : isName n = true) (t u : Text) {s : Text}
    (hcr : '\r' ∉ s) (hhead : s.head? ≠ some '\n') :
    normalizeLineEnds (t ++ (s ++ (stopTag n ++ u))) =
      normalizeLineEnds t ++ (s ++ (stopTag n ++ normalizeLineEnds u)) := by
  rw [normalizeLineEnds_append_of_head, normalizeLineEnds_append_left hcr,
    normalizeLineEnds_append_left (TagText.clean_stop hn).noCr]
  · rcases s with _ | ⟨c, cs⟩
    · simp [stopTag]
    · simpa using hhead
  · rcases s with _ | ⟨c, cs⟩
    · simp [stopTag]
    · simp only [List.mem_cons, not_or] at hcr
      simpa using Ne.symm hcr.1

theorem normalizeLineEnds_blank {u : Text} (hu : ∀ c ∈ u, isSpace c = true) :
    ∀ c ∈ normalizeLineEnds u, isSpace c = true ∧ c ≠ '\r' := by
  intro c hc
  refine ⟨?_, fun he => cr_not_mem_normalizeLineEnds u (he ▸ hc)⟩
  rcases mem_normalizeLineEnds hc with hc | rfl
  · exact hu c hc
  · rfl

/-- Elements that are written in front of the last end tag of a document are added behind the
elements of its root. -/
theorem parse_insert {t u n added : Text} {root : Element} {es fs : List Element}
    (hn : isName n = true) (hdash : '-' ∉ n) (hu : ∀ c ∈ u, isSpace c = true)
    (h : parse (t ++ (stopTag n ++ u)) = some root) (hes : root.content = some es)
    (hadded : Writes added fs) (hfs : fs ≠ []) (hhead : added.head? ≠ some '\n') :
    parse (t ++ (added ++ (stopTag n ++ u))) = some (.node root.tag (es ++ fs)) := by
  have hu' := normalizeLineEnds_blank hu
  have hold := normalizeLineEnds_insert hn t u (s := []) (by simp) (by simp)
  rw [List.nil_append, List.nil_append] at hold
  rw [parse] at h ⊢
  split_ifs at h with hchars
  have hchars' : (normalizeLineEnds (t ++ (added ++ (stopTag n ++ u)))).all isXmlChar = true := by
    rw [normalizeLineEnds_isXmlChar, List.forall_mem_append] at hchars ⊢
    exact ⟨hchars.1, List.forall_mem_append.mpr ⟨hadded.clean.chars, hchars.2⟩⟩
  rw [hold] at h
  obtain ⟨d, hd, h⟩ := Option.bind_eq_some_iff.mp h
  obtain ⟨p, hp, hkept, rfl⟩ := stripsTo_before_stop hn hdash hu' hd
  rw [if_pos hchars', normalizeLineEnds_insert hn t u hadded.clean.noCr hhead,
    (hp.append (hadded.clean.strips.append hkept)).strip_eq, Option.bind_some]
  exact readFrom_insert hn (fun c hc => (hu' c hc).1) h hes hadded hfs

end AbacMiddleLayer.Xml
