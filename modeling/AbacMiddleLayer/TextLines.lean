import AbacMiddleLayer.Tsv
import AbacMiddleLayer.Xml.References

/-! # The lines of a text file

A reader that takes line feeds, carriage returns and both in a row for line ends, and the
cut at every one of these characters, which differs from it in empty lines only.
-/
namespace AbacMiddleLayer.TextLines
open Tsv

/-- The lines of `BufferedReader.readLine` and of a Python text file. -/
def textLines (t : Text) : List Text := split '\n' (Xml.normalizeLineEnds t)

/-- The text cut at every line feed and carriage return. -/
def pieces (t : Text) : List Text := (split '\n' t).flatMap (split '\r')

def IsBreak (c : Char) : Prop := c = '\n' ∨ c = '\r'

instance (c : Char) : Decidable (IsBreak c) := inferInstanceAs (Decidable (_ ∨ _))

variable {c d : Char} {s t p : Text}

theorem pieces_cons_of_isBreak (hc : IsBreak c) (s : Text) : pieces (c :: s) = [] :: pieces s := by
  obtain ⟨u, us, hu⟩ := List.exists_cons_of_ne_nil (split_ne_nil '\n' s)
  rcases hc with rfl | rfl
  · rw [pieces, split, if_pos rfl]
    rfl
  · rw [pieces, split_cons_of_ne (by decide) hu, List.flatMap_cons, split, if_pos rfl, pieces, hu]
    rfl

theorem pieces_cons_of_not_isBreak (hc : ¬ IsBreak c) {ps : List Text} (h : pieces s = p :: ps) :
    pieces (c :: s) = (c :: p) :: ps := by
  rw [IsBreak, not_or] at hc
  obtain ⟨u, us, hu⟩ := List.exists_cons_of_ne_nil (split_ne_nil '\n' s)
  obtain ⟨x, xs, hx⟩ := List.exists_cons_of_ne_nil (split_ne_nil '\r' u)
  rw [pieces, hu, List.flatMap_cons, hx, List.cons_append, List.cons.injEq] at h
  rw [pieces, split_cons_of_ne hc.1 hu, List.flatMap_cons, split_cons_of_ne hc.2 hx,
    List.cons_append, h.1, h.2]

theorem pieces_ne_nil (s : Text) : pieces s ≠ [] := by
  obtain ⟨u, us, hu⟩ := List.exists_cons_of_ne_nil (split_ne_nil '\n' s)
  rw [pieces, hu, List.flatMap_cons]
  exact List.append_ne_nil_of_left_ne_nil (split_ne_nil '\r' u) _

theorem pieces_append (hc : IsBreak c) (s t : Text) :
    pieces (s ++ c :: t) = pieces s ++ pieces t := by
  induction s with
  | nil => exact pieces_cons_of_isBreak hc t
  | cons d s ih =>
    by_cases hd : IsBreak d
    · rw [List.cons_append, pieces_cons_of_isBreak hd, pieces_cons_of_isBreak hd, ih,
        List.cons_append]
    · obtain ⟨p, ps, hp⟩ := List.exists_cons_of_ne_nil (pieces_ne_nil s)
      rw [hp, List.cons_append] at ih
      rw [List.cons_append, pieces_cons_of_not_isBreak hd ih, pieces_cons_of_not_isBreak hd hp,
        List.cons_append]

theorem pieces_of_no_break (h : ∀ c ∈ s, ¬ IsBreak c) : pieces s = [s] := by
  induction s with
  | nil => rfl
  | cons c s ih =>
    exact pieces_cons_of_not_isBreak (h c (by simp)) (ih fun d hd => h d (by simp [hd]))

theorem exists_mem_pieces (hc : c ∈ s) (hbreak : ¬ IsBreak c) : ∃ p ∈ pieces s, c ∈ p := by
  obtain ⟨a, b, rfl⟩ := List.append_of_mem hc
  induction a with
  | nil =>
    obtain ⟨p, ps, hp⟩ := List.exists_cons_of_ne_nil (pieces_ne_nil b)
    exact ⟨c :: p, by simp [pieces_cons_of_not_isBreak hbreak hp], by simp⟩
  | cons d a ih =>
    obtain ⟨q, hq, hcq⟩ := ih (by simp)
    by_cases hd : IsBreak d
    · exact ⟨q, by simp [pieces_cons_of_isBreak hd, hq], hcq⟩
    · obtain ⟨p, ps, hp⟩ := List.exists_cons_of_ne_nil (pieces_ne_nil (a ++ c :: b))
      rw [List.cons_append, pieces_cons_of_not_isBreak hd hp]
      rw [hp] at hq
      rcases List.mem_cons.mp hq with rfl | hq
      · exact ⟨d :: q, by simp, by simp [hcq]⟩
      · exact ⟨q, by simp [hq], hcq⟩

/-- The two ways to cut a text at its line ends differ in empty lines only. -/
theorem exists_pieces (t : Text) :
    ∃ first lines lines', textLines t = first :: lines ∧ pieces t = first :: lines' ∧
      lines.filter (fun l => l ≠ []) = lines'.filter fun l => l ≠ [] := by
  unfold textLines
  fun_induction Xml.normalizeLineEnds t with
  | case1 => exact ⟨[], [], [], rfl, rfl, rfl⟩
  | case2 cs ih =>
    obtain ⟨first, lines, lines', hlines, hpieces, hsame⟩ := ih
    refine ⟨[], first :: lines, [] :: first :: lines', ?_, ?_, ?_⟩
    · rw [split, if_pos rfl, hlines]
    · rw [pieces_cons_of_isBreak (.inr rfl), pieces_cons_of_isBreak (.inl rfl), hpieces]
    · rw [List.filter_cons_of_neg (l := first :: lines') (by simp), List.filter_cons,
        List.filter_cons, hsame]
  | case3 c cs _ ih =>
    obtain ⟨first, lines, lines', hlines, hpieces, hsame⟩ := ih
    by_cases hc : IsBreak c
    · have hfeed : (if c = '\r' then '\n' else c) = '\n' := by
        rcases hc with rfl | rfl <;> rfl
      refine ⟨[], first :: lines, first :: lines', ?_, ?_, ?_⟩
      · rw [hfeed, split, if_pos rfl, hlines]
      · rw [pieces_cons_of_isBreak hc, hpieces]
      · rw [List.filter_cons, List.filter_cons, hsame]
    · refine ⟨c :: first, lines, lines', ?_, pieces_cons_of_not_isBreak hc hpieces, hsame⟩
      rw [IsBreak, not_or] at hc
      rw [if_neg hc.2, split_cons_of_ne hc.1 hlines]

/-- What ignores empty lines does not see the difference. -/
theorem filterMap_textLines {β : Type*} {e : Text → Option β} (he : e [] = none) (t : Text) :
    (textLines t).filterMap e = (pieces t).filterMap e := by
  have hfilter (l : List Text) : l.filterMap e = (l.filter fun s => s ≠ []).filterMap e := by
    rw [List.filterMap_filter]
    apply List.filterMap_congr
    intro s _
    by_cases hs : s = []
    · simp [hs, he]
    · simp [hs]
  obtain ⟨first, lines, lines', hlines, hpieces, hsame⟩ := exists_pieces t
  rw [hlines, hpieces, List.filterMap_cons, List.filterMap_cons, hfilter lines, hfilter lines',
    hsame]

end AbacMiddleLayer.TextLines
