import AbacMiddleLayer.Xml.Insertion

/-! # Text that no document takes

A program that splices strings between tags without escaping them can write a document that is not
one. A string without tags that is not character data, between a start tag and the end tag behind
it, makes every document around it unreadable.
-/
namespace AbacMiddleLayer.Xml

/-- Text between two tags that is not character data: there is a reference in it that is none, or
the end of a CDATA section. -/
structure Ill (raw : Text) : Prop where
  noTag : '<' ∉ raw
  noCr : '\r' ∉ raw
  refused : rawTokens (.text raw) = none

/-- The text is kept when comments are dropped, and no reader gets over it. -/
structure Stuck (t : Text) : Prop where
  nonempty : t ≠ []
  noCr : '\r' ∉ t
  kept : StripsTo t t
  unread (fs : List Open) (piece a rest : Text) : readFrom fs piece (a ++ (t ++ rest)) = none

theorem Ill.readFrom_eq_none {raw : Text} (h : Ill raw) {o : TagText} (ho : o.Ok) (fs : List Open)
    (piece rest : Text) : readFrom fs piece (o.start ++ (raw ++ (o.stop ++ rest))) = none := by
  rw [TagText.start, TagText.stop, readFrom_tag ho.within ho.tagTokens, Option.bind_eq_none_iff]
  intro gs _
  rw [readFrom_text h.noTag, List.nil_append, readFrom_stopTag ho.name_isName, h.refused]
  rfl

theorem Ill.stuck {raw : Text} (h : Ill raw) {o : TagText} (ho : o.Ok) :
    Stuck (o.start ++ (raw ++ o.stop)) where
  nonempty := List.cons_ne_nil _ _
  noCr := by
    simp only [List.mem_append, not_or]
    exact ⟨ho.clean_start.noCr, h.noCr, (TagText.clean_stop ho.name_isName).noCr⟩
  kept := ho.clean_start.strips.append
    ((kept_text h.noTag).append (TagText.clean_stop ho.name_isName).strips)
  unread fs piece a rest := by
    rw [Option.eq_none_iff_forall_ne_some]
    intro final hfinal
    rw [List.append_assoc, List.append_assoc] at hfinal
    -- what stands in front of the start tag may be anything, so it leads to some open elements
    obtain ⟨gs, piece', hgs⟩ := readFrom_before_tag hfinal
    rw [hgs, h.readFrom_eq_none ho] at hfinal
    cases hfinal

theorem Stuck.behind {t s : Text} (h : Stuck t) (hs : Clean s) : Stuck (s ++ t) where
  nonempty := List.append_ne_nil_of_right_ne_nil _ h.nonempty
  noCr hmem := (List.mem_append.mp hmem).elim hs.noCr h.noCr
  kept := hs.strips.append h.kept
  unread fs piece a rest := by
    rw [List.append_assoc, ← List.append_assoc a]
    exact h.unread fs piece (a ++ s) rest

/-- What a beginning becomes stays in front. -/
theorem StripsTo.strip_append {t p u d : Text} (h : StripsTo t p) (hd : strip (t ++ u) = some d) :
    ∃ q, d = p ++ q := by
  rw [strip, stripLoop_append, show stripLoop .text t = some (p, .text) from h, Option.bind_some,
    Option.bind_eq_some_iff] at hd
  obtain ⟨r, hr, hd⟩ := hd
  obtain ⟨s, -, rfl⟩ := Option.map_eq_some_iff.mp hr
  split_ifs at hd
  cases hd
  exact ⟨s.1, rfl⟩

/-- A document is unreadable wherever the text stands in it. -/
theorem Stuck.parse_eq_none {t s p : Text} (h : Stuck s) (hhead : s.head? ≠ some '\n')
    (hp : StripsTo (normalizeLineEnds t) p) (u : Text) : parse (t ++ (s ++ u)) = none := by
  have hfirst {c : Char} (hc : s.head? ≠ some c) : (s ++ u).head? ≠ some c := by
    rw [List.head?_append_of_ne_nil s h.nonempty]
    exact hc
  have hnorm : normalizeLineEnds (t ++ (s ++ u)) =
      (normalizeLineEnds t ++ s) ++ normalizeLineEnds u := by
    rw [normalizeLineEnds_append_of_head (hfirst hhead)
      (hfirst fun he => h.noCr (List.mem_of_head? he)), normalizeLineEnds_append_left h.noCr,
      List.append_assoc]
  rw [Option.eq_none_iff_forall_ne_some]
  intro root hroot
  rw [parse, hnorm] at hroot
  split_ifs at hroot
  obtain ⟨d, hd, hroot⟩ := Option.bind_eq_some_iff.mp hroot
  obtain ⟨q, rfl⟩ := (hp.append h.kept).strip_append hd
  rw [List.append_assoc, h.unread] at hroot
  cases hroot

/-- The text begins with one that no reader gets over. -/
def Refused (t : Text) : Prop := ∃ s u, Stuck s ∧ t = s ++ u

theorem Refused.append {t : Text} (h : Refused t) (u : Text) : Refused (t ++ u) := by
  obtain ⟨s, v, hs, rfl⟩ := h
  exact ⟨s, v ++ u, hs, List.append_assoc s v u⟩

theorem Refused.behind {t s : Text} (h : Refused t) (hs : Clean s) : Refused (s ++ t) := by
  obtain ⟨t, v, ht, rfl⟩ := h
  exact ⟨s ++ t, v, ht.behind hs, (List.append_assoc s t v).symm⟩

theorem Refused.block {t : Text} (h : Refused t) {tag : Tag} (htag : tag.Plain) (n : ℕ) :
    Refused (block n tag t) := by
  have hinner : Refused ('\n' :: (t ++ indent n)) :=
    (h.append (indent n)).behind writes_lineFeed.clean
  have helement := (hinner.append (TagText.ofTag tag).stop).behind (TagText.ok_ofTag htag).clean_start
  exact (helement.append ['\n']).behind (writes_indent n).clean

theorem refused_valueLine {tag : Tag} (htag : tag.Plain) {raw : Text} (h : Ill raw) (n : ℕ) :
    Refused (valueLine n tag raw) :=
  ⟨_, ['\n'], (h.stuck (TagText.ok_ofTag htag)).behind (writes_indent n).clean,
    (List.append_assoc _ _ _).symm⟩

/-- A document that ends with an end tag is unreadable when the text is pasted in front of it. -/
theorem Refused.parse_insert {t u n added : Text} {root : Element} (hadded : Refused added)
    (hhead : added.head? ≠ some '\n') (hn : isName n = true) (hdash : '-' ∉ n)
    (hu : ∀ c ∈ u, isSpace c = true) (h : parse (t ++ (stopTag n ++ u)) = some root) :
    parse (t ++ (added ++ (stopTag n ++ u))) = none := by
  have hold := normalizeLineEnds_insert hn t u (s := []) (by simp) (by simp)
  rw [List.nil_append, List.nil_append] at hold
  rw [parse, hold] at h
  split_ifs at h
  obtain ⟨d, hd, -⟩ := Option.bind_eq_some_iff.mp h
  obtain ⟨p, hp, -, -⟩ := stripsTo_before_stop hn hdash (normalizeLineEnds_blank hu) hd
  obtain ⟨s, v, hs, rfl⟩ := hadded
  rw [List.head?_append_of_ne_nil s hs.nonempty] at hhead
  rw [List.append_assoc]
  exact hs.parse_eq_none hhead hp _

end AbacMiddleLayer.Xml
