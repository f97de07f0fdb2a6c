import AbacMiddleLayer.Xml.Segments

/-! # Escaping by replacement

Programs escape text by one replacement after the other, the ampersand first. That
writes every character as its entity, and the text between two tags then says what was
escaped, up to the line ends that XML rewrites.
-/
namespace AbacMiddleLayer.Xml

def replace (c : Char) (by' s : Text) : Text := s.flatMap fun d => if d = c then by' else [d]

/-- Replacements, one after the other. -/
def replaceAll (rs : List (Char × String)) (s : Text) : Text :=
  rs.foldl (fun t r => replace r.1 r.2.toList t) s

/-- The replacements of the five characters with a predefined entity. -/
def markupReplacements : List (Char × String) :=
  [('&', "&amp;"), ('<', "&lt;"), ('>', "&gt;"), ('"', "&quot;"), ('\'', "&apos;")]

theorem replaceAll_flatMap (rs : List (Char × String)) (s : Text) (f : Char → Text) :
    replaceAll rs (s.flatMap f) = s.flatMap fun c => replaceAll rs (f c) := by
  induction rs generalizing f with
  | nil => rfl
  | cons r rs ih =>
    have hreplace : replace r.1 r.2.toList (s.flatMap f) =
        s.flatMap fun c => replace r.1 r.2.toList (f c) := by
      rw [replace, List.flatMap_assoc]
      rfl
    simp only [replaceAll, List.foldl_cons, hreplace] at ih ⊢
    exact ih _

theorem replaceAll_markup_singleton (c : Char) : replaceAll markupReplacements [c] = entity c := by
  by_cases h : c ∈ ['&', '<', '>', '"', '\'']
  · simp only [List.mem_cons, List.not_mem_nil, or_false] at h
    rcases h with rfl | rfl | rfl | rfl | rfl <;> decide +kernel
  · simp only [List.mem_cons, List.not_mem_nil, or_false, not_or] at h
    obtain ⟨h1, h2, h3, h4, h5⟩ := h
    simp only [replaceAll, markupReplacements, replace, entity, List.foldl_cons, List.foldl_nil,
      List.flatMap_singleton, h1, h2, h3, h4, h5, if_false]

/-- Replacing after one another writes each character as its entity. -/
theorem replaceAll_markup (s : Text) : replaceAll markupReplacements s = s.flatMap entity := by
  have h := replaceAll_flatMap markupReplacements s fun c => [c]
  rw [List.flatMap_singleton'] at h
  rw [h]
  exact List.flatMap_congr fun c _ => replaceAll_markup_singleton c

/-- No entity starts with a line feed but the line feed itself. -/
theorem entity_cons {c : Char} (h : c ≠ '\n') : ∃ d ds, entity c = d :: ds ∧ d ≠ '\n' := by
  unfold entity
  split_ifs with h1 h2 h3 h4 h5
  · exact ⟨'&', ['a', 'm', 'p', ';'], String.toList_ofList, by decide⟩
  · exact ⟨'&', ['l', 't', ';'], String.toList_ofList, by decide⟩
  · exact ⟨'&', ['g', 't', ';'], String.toList_ofList, by decide⟩
  · exact ⟨'&', ['q', 'u', 'o', 't', ';'], String.toList_ofList, by decide⟩
  · exact ⟨'&', ['a', 'p', 'o', 's', ';'], String.toList_ofList, by decide⟩
  · exact ⟨c, [], rfl, h⟩

theorem cr_not_mem_entity {c : Char} (h : c ≠ '\r') : '\r' ∉ entity c := by
  unfold entity
  split_ifs
  · decide
  · decide
  · decide
  · decide
  · decide
  · simpa using Ne.symm h

theorem normalizeLineEnds_flatMap_entity (s : Text) :
    normalizeLineEnds (s.flatMap entity) = (normalizeLineEnds s).flatMap entity := by
  fun_induction normalizeLineEnds s with
  | case1 => rfl
  | case2 cs ih =>
    have hcr : entity '\r' = ['\r'] := by decide
    have hlf : entity '\n' = ['\n'] := by decide
    simp only [List.flatMap_cons, hcr, hlf, List.singleton_append, normalizeLineEnds, ih]
  | case3 c cs hne ih =>
    rw [List.flatMap_cons, List.flatMap_cons, ← ih]
    by_cases hc : c = '\r'
    · subst hc
      have hcr : entity '\r' = ['\r'] := by decide
      have hlf : entity '\n' = ['\n'] := by decide
      rw [if_pos rfl, hcr, hlf, List.singleton_append, List.singleton_append]
      -- what follows the carriage return does not start with a line feed once it is escaped
      cases cs with
      | nil => rfl
      | cons d ds =>
        have hd : d ≠ '\n' := fun he => hne ds rfl (by rw [he])
        obtain ⟨e, es, he, hlf⟩ := entity_cons hd
        rw [List.flatMap_cons, he, List.cons_append, normalizeLineEnds, if_pos rfl]
        exact fun _ _ h => hlf (List.cons.inj h).1
    · rw [if_neg hc, normalizeLineEnds_append_left (cr_not_mem_entity hc)]

theorem reads_flatMap_entity {s : Text} (h : ∀ c ∈ s, isXmlChar c = true) :
    Reads (s.flatMap entity) (normalizeLineEnds s) where
  noTag := by
    intro hmem
    rcases mem_flatMap_entity hmem with hc | hc
    · exact hc.2.1 rfl
    · exact absurd hc (by decide)
  chars := by
    intro c hmem
    rcases mem_flatMap_entity hmem with hc | hc
    · exact h c hc.1
    · have hall : entityChars.all isXmlChar = true := by decide
      exact List.all_eq_true.mp hall c hc
  noCdataEnd := by
    rw [normalizeLineEnds_flatMap_entity]
    refine hasCdataEnd_eq_false fun hmem => ?_
    rcases mem_flatMap_entity hmem with hc | hc
    · exact hc.2.2 rfl
    · exact absurd hc (by decide)
  value := by
    rw [readText, normalizeLineEnds_flatMap_entity, decode_flatMap_entity]

/-- A character of a text is left as it is, or is one of the five that XML has. -/
theorem isXmlChar_of_flatMap_entity {s : Text}
    (h : ∀ c ∈ s.flatMap entity, isXmlChar c = true) : ∀ c ∈ s, isXmlChar c = true := by
  intro c hc
  by_cases hmarkup : c ∈ ['&', '<', '>', '"', '\'']
  · have hall : ['&', '<', '>', '"', '\''].all isXmlChar = true := by decide
    exact List.all_eq_true.mp hall c hmarkup
  · refine h c (List.mem_flatMap.mpr ⟨c, hc, ?_⟩)
    simp only [List.mem_cons, List.not_mem_nil, or_false, not_or] at hmarkup
    obtain ⟨h1, h2, h3, h4, h5⟩ := hmarkup
    simp [entity, h1, h2, h3, h4, h5]

/-- The five predefined entities. -/
def entities : List Text := markupReplacements.map fun r => r.2.toList

/-- The five entities replaced from left to right, everything else left as it is. -/
def replaceEntities : Text → Text
  | '&' :: 'a' :: 'm' :: 'p' :: ';' :: cs => '&' :: replaceEntities cs
  | '&' :: 'l' :: 't' :: ';' :: cs => '<' :: replaceEntities cs
  | '&' :: 'g' :: 't' :: ';' :: cs => '>' :: replaceEntities cs
  | '&' :: 'q' :: 'u' :: 'o' :: 't' :: ';' :: cs => '"' :: replaceEntities cs
  | '&' :: 'a' :: 'p' :: 'o' :: 's' :: ';' :: cs => '\'' :: replaceEntities cs
  | c :: cs => c :: replaceEntities cs
  | [] => []

/-- What escaping does to every text: each character is written by itself, no markup is left,
an ampersand always begins an entity, and replacing the entities gives the text back. -/
structure Escapes (escape : Text → Text) : Prop where
  charwise : ∀ s, escape s = s.flatMap entity
  noMarkup : ∀ s, ∀ c ∈ escape s, c ≠ '<' ∧ c ≠ '>' ∧ c ≠ '"' ∧ c ≠ '\''
  ampersand : ∀ s front rest, escape s = front ++ '&' :: rest → ∃ e ∈ entities, e <+: '&' :: rest
  inverse : ∀ s, replaceEntities (escape s) = s

/-- An escaped character is an entity, with an ampersand in front only, or stands for itself. -/
theorem entity_cases (c : Char) :
    (entity c ∈ entities ∧ ∃ t, entity c = '&' :: t ∧ '&' ∉ t) ∨
      (entity c = [c] ∧ c ≠ '&' ∧ c ≠ '<' ∧ c ≠ '>' ∧ c ≠ '"' ∧ c ≠ '\'') := by
  unfold entity
  split_ifs with h1 h2 h3 h4 h5
  · exact .inl ⟨by simp [entities, markupReplacements], ['a', 'm', 'p', ';'],
      String.toList_ofList, by decide⟩
  · exact .inl ⟨by simp [entities, markupReplacements], ['l', 't', ';'],
      String.toList_ofList, by decide⟩
  · exact .inl ⟨by simp [entities, markupReplacements], ['g', 't', ';'],
      String.toList_ofList, by decide⟩
  · exact .inl ⟨by simp [entities, markupReplacements], ['q', 'u', 'o', 't', ';'],
      String.toList_ofList, by decide⟩
  · exact .inl ⟨by simp [entities, markupReplacements], ['a', 'p', 'o', 's', ';'],
      String.toList_ofList, by decide⟩
  · exact .inr ⟨rfl, h1, h2, h3, h4, h5⟩

theorem mem_entities {e : Text} (h : e ∈ entities) {c : Char} (hc : c ∈ e) : c ∈ entityChars := by
  simp only [entities, markupReplacements, List.map_cons, List.map_nil, List.mem_cons,
    List.not_mem_nil, or_false] at h
  rcases h with rfl | rfl | rfl | rfl | rfl <;> exact forall_toList (by decide) c hc

theorem flatMap_entity_noMarkup {s : Text} {c : Char} (h : c ∈ s.flatMap entity) :
    c ≠ '<' ∧ c ≠ '>' ∧ c ≠ '"' ∧ c ≠ '\'' := by
  obtain ⟨d, -, hc⟩ := List.mem_flatMap.mp h
  rcases entity_cases d with ⟨he, -⟩ | ⟨he, -, hmarkup⟩
  · have hall : entityChars.all (fun c => decide (c ≠ '<' ∧ c ≠ '>' ∧ c ≠ '"' ∧ c ≠ '\'')) = true := by
      decide
    exact of_decide_eq_true (List.all_eq_true.mp hall c (mem_entities he hc))
  · rw [he, List.mem_singleton] at hc
    rw [hc]
    exact hmarkup

/-- Inside of an escaped character there is no ampersand. -/
theorem entity_eq_append {c : Char} {front rest : Text} (h : entity c = front ++ '&' :: rest) :
    front = [] ∧ entity c ∈ entities := by
  rcases entity_cases c with ⟨hmem, t, ht, hamp⟩ | ⟨he, hc, -⟩
  · refine ⟨?_, hmem⟩
    cases front with
    | nil => rfl
    | cons d front =>
      rw [ht, List.cons_append, List.cons.injEq] at h
      exact absurd (by simp [h.2]) hamp
  · have hmem : '&' ∈ entity c := by simp [h]
    rw [he, List.mem_singleton] at hmem
    exact absurd hmem.symm hc

theorem flatMap_entity_ampersand {s front rest : Text} (h : s.flatMap entity = front ++ '&' :: rest) :
    ∃ e ∈ entities, e <+: '&' :: rest := by
  induction s generalizing front with
  | nil => simp at h
  | cons c cs ih =>
    rw [List.flatMap_cons] at h
    -- the ampersand stands in the text of `c`, or behind it
    rcases List.append_eq_append_iff.mp h with ⟨mid, -, hcs⟩ | ⟨mid, hc, hrest⟩
    · exact ih hcs
    · cases mid with
      | nil =>
        have hcs : cs.flatMap entity = [] ++ '&' :: rest := hrest.symm
        exact ih hcs
      | cons d mid =>
        rw [List.cons_append, List.cons.injEq] at hrest
        obtain ⟨rfl, rfl⟩ := hrest
        obtain ⟨rfl, hmem⟩ := entity_eq_append hc
        refine ⟨entity c, hmem, ?_⟩
        rw [hc, List.nil_append, ← List.cons_append]
        exact List.prefix_append _ _

theorem replaceEntities_cons {c : Char} (h : c ≠ '&') (cs : Text) :
    replaceEntities (c :: cs) = c :: replaceEntities cs := by
  rw [replaceEntities] <;> exact fun _ he => absurd he h

theorem replaceEntities_entity (c : Char) (rest : Text) :
    replaceEntities (entity c ++ rest) = c :: replaceEntities rest := by
  unfold entity
  split_ifs with h1 h2 h3 h4 h5
  · subst h1
    rfl
  · subst h2
    rfl
  · subst h3
    rfl
  · subst h4
    rfl
  · subst h5
    rfl
  · exact replaceEntities_cons h1 rest

theorem replaceEntities_flatMap_entity (s : Text) : replaceEntities (s.flatMap entity) = s := by
  induction s with
  | nil => rfl
  | cons c cs ih => rw [List.flatMap_cons, replaceEntities_entity, ih]

/-- Writing each character as its entity is an escaping. -/
theorem escapes_of_eq {escape : Text → Text} (h : ∀ s, escape s = s.flatMap entity) :
    Escapes escape where
  charwise := h
  noMarkup := fun s c hc => flatMap_entity_noMarkup (s := s) (h s ▸ hc)
  ampersand := fun s front rest hs => flatMap_entity_ampersand (s := s) ((h s).symm.trans hs)
  inverse := fun s => by rw [h, replaceEntities_flatMap_entity]

end AbacMiddleLayer.Xml
