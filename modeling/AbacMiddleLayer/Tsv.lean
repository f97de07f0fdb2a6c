import AbacMiddleLayer.Text

/-! # Separated values

Texts joined by a separator, and cut at it again. A file is lines that each end in a
line feed; a table has named columns.
-/
namespace AbacMiddleLayer.Tsv

def join (sep : Char) : List Text → Text
  | [] => []
  | [s] => s
  | s :: t :: ts => s ++ sep :: join sep (t :: ts)

/-- The pieces between the separators, empty ones included. -/
def split (sep : Char) : Text → List Text
  | [] => [[]]
  | c :: cs =>
    if c = sep then [] :: split sep cs
    else match split sep cs with
      | [] => [[c]]
      | s :: ss => (c :: s) :: ss

def unlines (lines : List Text) : Text := lines.flatMap fun l => l ++ ['\n']

/-- The lines of a file without the empty ones. -/
def lines (s : Text) : List Text := (split '\n' s).filter fun l => l ≠ []

/-- The columns by name; of two columns with one name the last counts. -/
def indexHeader (header : List Text) : List (Text × ℕ) := header.zipIdx.reverse

variable {sep : Char}

theorem split_cons_of_ne {c : Char} (h : c ≠ sep) {cs s : Text} {ss : List Text}
    (hcs : split sep cs = s :: ss) : split sep (c :: cs) = (c :: s) :: ss := by
  rw [split, if_neg h, hcs]

theorem split_append {s t : Text} (h : sep ∉ s) : split sep (s ++ sep :: t) = s :: split sep t := by
  induction s with
  | nil => rw [List.nil_append, split, if_pos rfl]
  | cons c cs ih =>
    rw [List.mem_cons, not_or] at h
    exact split_cons_of_ne (Ne.symm h.1) (ih h.2)

theorem split_of_notMem {s : Text} (h : sep ∉ s) : split sep s = [s] := by
  induction s with
  | nil => rfl
  | cons c cs ih =>
    rw [List.mem_cons, not_or] at h
    exact split_cons_of_ne (Ne.symm h.1) (ih h.2)

theorem split_ne_nil (sep : Char) (s : Text) : split sep s ≠ [] := by
  cases s with
  | nil => exact List.cons_ne_nil _ _
  | cons c cs =>
    rw [split]
    split_ifs
    · exact List.cons_ne_nil _ _
    · cases split sep cs <;> exact List.cons_ne_nil _ _

theorem split_append_sep (s t : Text) :
    split sep (s ++ sep :: t) = split sep s ++ split sep t := by
  induction s with
  | nil => simp [split]
  | cons c cs ih =>
    rw [List.cons_append, split, ih, split]
    split_ifs
    · rfl
    · obtain ⟨u, us, hu⟩ := List.exists_cons_of_ne_nil (split_ne_nil sep cs)
      rw [hu]
      rfl

theorem sep_notMem_of_mem_split {s t : Text} (h : t ∈ split sep s) : sep ∉ t := by
  induction s generalizing t with
  | nil => simp_all [split]
  | cons c cs ih =>
    rw [split] at h
    split_ifs at h with hc
    · rcases List.mem_cons.mp h with rfl | h
      · simp
      · exact ih h
    · cases hcs : split sep cs with
      | nil => simp_all [Ne.symm hc]
      | cons u us =>
        rw [hcs] at h
        rcases List.mem_cons.mp h with rfl | h
        · rw [List.mem_cons, not_or]
          exact ⟨Ne.symm hc, ih (by simp [hcs])⟩
        · exact ih (by simp [hcs, h])

/-- The pieces have no characters but those of the text. -/
theorem mem_of_mem_split {s t : Text} (h : t ∈ split sep s) {c : Char} (hc : c ∈ t) : c ∈ s := by
  induction s generalizing t with
  | nil => simp_all [split]
  | cons d ds ih =>
    rw [split] at h
    split_ifs at h with hd
    · rcases List.mem_cons.mp h with rfl | h
      · simp at hc
      · exact List.mem_cons_of_mem _ (ih h hc)
    · obtain ⟨u, us, hu⟩ := List.exists_cons_of_ne_nil (split_ne_nil sep ds)
      rw [hu] at h ih
      rcases List.mem_cons.mp h with rfl | h
      · rcases List.mem_cons.mp hc with rfl | hc
        · exact List.mem_cons_self
        · exact List.mem_cons_of_mem _ (ih List.mem_cons_self hc)
      · exact List.mem_cons_of_mem _ (ih (List.mem_cons_of_mem _ h) hc)

/-- A change of characters that leaves the separator alone changes piece by piece. -/
theorem split_map {f : Char → Char} (hf : ∀ c, f c = sep ↔ c = sep) (s : Text) :
    split sep (s.map f) = (split sep s).map (List.map f) := by
  induction s with
  | nil => rfl
  | cons c cs ih =>
    rw [List.map_cons, split, split, ih]
    by_cases hc : c = sep
    · rw [if_pos ((hf c).mpr hc), if_pos hc]
      rfl
    · rw [if_neg fun h => hc ((hf c).mp h), if_neg hc]
      cases split sep cs <;> rfl

/-- Joined texts are cut into the same texts. -/
theorem split_join {ts : List Text} (hne : ts ≠ []) (h : ∀ t ∈ ts, sep ∉ t) :
    split sep (join sep ts) = ts := by
  induction ts with
  | nil => exact absurd rfl hne
  | cons s ts ih =>
    cases ts with
    | nil => exact split_of_notMem (h s (by simp))
    | cons t ts =>
      rw [join, split_append (h s (by simp)), ih (by simp) fun u hu => h u (by simp [hu])]

theorem mem_join {ts : List Text} {c : Char} (h : c ∈ join sep ts) : c = sep ∨ ∃ t ∈ ts, c ∈ t := by
  induction ts with
  | nil => simp [join] at h
  | cons s ts ih =>
    cases ts with
    | nil => exact .inr ⟨s, by simp, h⟩
    | cons t ts =>
      rw [join, List.mem_append, List.mem_cons] at h
      rcases h with h | h | h
      · exact .inr ⟨s, by simp, h⟩
      · exact .inl h
      · exact (ih h).imp_right fun ⟨u, hu, hc⟩ => ⟨u, by simp [hu], hc⟩

theorem join_ne_nil {ts : List Text} (h : 2 ≤ ts.length) : join sep ts ≠ [] := by
  match ts with
  | s :: t :: ts => exact List.append_ne_nil_of_right_ne_nil _ (List.cons_ne_nil _ _)

/-- A file is read as the lines it was written from. -/
theorem lines_unlines {ls : List Text} (h : ∀ l ∈ ls, l ≠ [] ∧ '\n' ∉ l) : lines (unlines ls) = ls := by
  induction ls with
  | nil => rfl
  | cons l ls ih =>
    have hcons : unlines (l :: ls) = l ++ '\n' :: unlines ls := by simp [unlines]
    obtain ⟨hne, hlf⟩ := h l (by simp)
    rw [lines, hcons, split_append hlf, List.filter_cons_of_pos (by simpa using hne), ← lines,
      ih fun m hm => h m (by simp [hm])]

/-- A table is read as the rows it was written from. -/
theorem split_lines_unlines {rows : List (List Text)} (hne : ∀ r ∈ rows, join '\t' r ≠ [])
    (h : ∀ r ∈ rows, ∀ c ∈ r, '\t' ∉ c ∧ '\n' ∉ c) :
    (lines (unlines (rows.map (join '\t')))).map (split '\t') = rows := by
  have hlines : ∀ l ∈ rows.map (join '\t'), l ≠ [] ∧ '\n' ∉ l := by
    intro l hl
    obtain ⟨r, hr, rfl⟩ := List.mem_map.mp hl
    refine ⟨hne r hr, fun hmem => ?_⟩
    rcases mem_join hmem with hc | ⟨c, hc, hmem⟩
    · exact absurd hc (by decide)
    · exact (h r hr c hc).2 hmem
  rw [lines_unlines hlines, List.map_map]
  conv_rhs => rw [← List.map_id rows]
  refine List.map_congr_left fun r hr => ?_
  have hr' : r ≠ [] := by
    rintro rfl
    exact hne [] hr rfl
  exact split_join hr' fun c hc => (h r hr c hc).1

theorem lookup_map_value {α β γ : Type*} [BEq α] (f : β → γ) (l : List (α × β)) (k : α) :
    (l.map fun a => (a.1, f a.2)).lookup k = (l.lookup k).map f := by
  induction l with
  | nil => rfl
  | cons a l ih =>
    obtain ⟨x, y⟩ := a
    rw [List.map_cons, List.lookup_cons, List.lookup_cons, ih]
    cases k == x <;> rfl

theorem lookup_of_mem {α β : Type*} [BEq α] [LawfulBEq α] {l : List (α × β)} {k : α} {v : β}
    (hnodup : (l.map Prod.fst).Nodup) (h : (k, v) ∈ l) : l.lookup k = some v := by
  induction l with
  | nil => simp at h
  | cons a l ih =>
    obtain ⟨x, y⟩ := a
    rw [List.map_cons, List.nodup_cons] at hnodup
    rcases List.mem_cons.mp h with he | hmem
    · rw [Prod.mk.injEq] at he
      rw [he.1, he.2, List.lookup_cons_self]
    · have hne : (k == x) = false := by
        rw [beq_eq_false_iff_ne]
        rintro rfl
        exact hnodup.1 (List.mem_map.mpr ⟨(k, v), hmem, rfl⟩)
      rw [List.lookup_cons, hne]
      exact ih hnodup.2 hmem

/-- A column is found at its place when no name stands twice in the header. -/
theorem lookup_indexHeader {header : List Text} (hnodup : header.Nodup) {i : ℕ}
    (hi : i < header.length) : (indexHeader header).lookup header[i] = some i := by
  apply lookup_of_mem
  · rw [indexHeader, List.map_reverse, List.nodup_reverse, List.zipIdx_map_fst]
    exact hnodup
  · rw [indexHeader, List.mem_reverse, List.mk_mem_zipIdx_iff_getElem?]
    exact List.getElem?_eq_getElem hi

/-- The value of a column is the one at its index. -/
theorem lookup_zip (header row : List Text) (h : header.length = row.length) (k : Text) :
    (header.zip row).reverse.lookup k =
      ((indexHeader header).lookup k).map fun i => row.getD i [] := by
  have hzip : header.zip row = header.zipIdx.map fun a => (a.1, row.getD a.2 []) := by
    refine List.ext_getElem (by simp [h]) fun i h1 h2 => ?_
    simp only [List.length_zip, h, min_self] at h1
    simp [h1]
  rw [hzip, indexHeader, ← List.map_reverse, lookup_map_value fun i => row.getD i []]

end AbacMiddleLayer.Tsv
