import AbacMiddleLayer.Tsv
import Mathlib.Data.List.TakeWhile

/-! # Words of a text

The words of a text are its longest pieces without blanks. Only the blank separates
words: tabs and line ends are characters of a word like any other.
-/
namespace AbacMiddleLayer.Words
open Tsv

def words (q : Text) : List Text := (split ' ' q).filter fun w => w ≠ []

/-- What stands behind the blanks in front of a text. -/
def trimStart (q : Text) : Text := q.dropWhile fun c => decide (c = ' ')

theorem words_nil : words [] = [] := rfl

theorem words_cons_blank (q : Text) : words (' ' :: q) = words q := by
  rw [words, split, if_pos rfl, List.filter_cons_of_neg (by simp)]
  rfl

theorem words_append_blank {w : Text} (hw : ' ' ∉ w) (hne : w ≠ []) (q : Text) :
    words (w ++ ' ' :: q) = w :: words q := by
  rw [words, split_append hw, List.filter_cons_of_pos (by simpa using hne)]
  rfl

theorem words_of_notMem {w : Text} (hw : ' ' ∉ w) (hne : w ≠ []) : words w = [w] := by
  rw [words, split_of_notMem hw]
  simpa using hne

theorem words_blanks_append {b : Text} (hb : ∀ c ∈ b, c = ' ') (q : Text) :
    words (b ++ q) = words q := by
  induction b with
  | nil => rfl
  | cons c b ih =>
    obtain rfl := hb c (by simp)
    rw [List.cons_append, words_cons_blank, ih fun d hd => hb d (by simp [hd])]

/-- No word reaches over a blank. -/
theorem words_append_cons_blank (p q : Text) : words (p ++ ' ' :: q) = words p ++ words q := by
  rw [words, split_append_sep, List.filter_append]
  rfl

/-- Blanks between two texts count as one. -/
theorem words_append_blanks {b : Text} (hb : ∀ c ∈ b, c = ' ') (hne : b ≠ []) (p q : Text) :
    words (p ++ (b ++ q)) = words p ++ words q := by
  obtain ⟨c, b, rfl⟩ := List.exists_cons_of_ne_nil hne
  obtain rfl := hb c (by simp)
  rw [List.cons_append, words_append_cons_blank, words_blanks_append fun d hd => hb d (by simp [hd])]

theorem words_append_blanks_end {b : Text} (hb : ∀ c ∈ b, c = ' ') (p : Text) :
    words (p ++ b) = words p := by
  by_cases hne : b = []
  · rw [hne, List.append_nil]
  · have h := words_append_blanks hb hne p []
    rwa [List.append_nil, words_nil, List.append_nil] at h

/-- A blank-free text in front of blanks is a word. -/
theorem words_append {w b : Text} (hw : ' ' ∉ w) (hne : w ≠ []) (hb : ∀ c ∈ b, c = ' ')
    (hbne : b ≠ []) (q : Text) : words (w ++ (b ++ q)) = w :: words q := by
  obtain ⟨c, b, rfl⟩ := List.exists_cons_of_ne_nil hbne
  obtain rfl := hb c (by simp)
  rw [List.cons_append, words_append_blank hw hne, words_blanks_append fun d hd => hb d (by simp [hd])]

theorem blank_notMem_takeWhile (q : Text) : ' ' ∉ q.takeWhile fun c => decide (c ≠ ' ') := by
  intro h
  simpa using List.mem_takeWhile_imp h

/-- The first word ends at the first blank behind it. -/
theorem words_cons {c : Char} (hc : c ≠ ' ') (q : Text) :
    words (c :: q) = (c :: q.takeWhile fun d => decide (d ≠ ' ')) ::
      words (q.dropWhile fun d => decide (d ≠ ' ')) := by
  have hsplit := List.takeWhile_append_dropWhile (p := fun d => decide (d ≠ ' ')) (l := q)
  have hword : ' ' ∉ c :: q.takeWhile fun d => decide (d ≠ ' ') := by
    rw [List.mem_cons, not_or]
    exact ⟨Ne.symm hc, blank_notMem_takeWhile q⟩
  conv_lhs => rw [← hsplit]
  cases hrest : q.dropWhile fun d => decide (d ≠ ' ') with
  | nil =>
    rw [List.append_nil, words_of_notMem hword (List.cons_ne_nil _ _)]
    rfl
  | cons d rest =>
    have hne : q.dropWhile (fun d => decide (d ≠ ' ')) ≠ [] := hrest ▸ List.cons_ne_nil d rest
    have hd := List.head_dropWhile_not _ hne
    simp only [hrest, List.head_cons, decide_eq_false_iff_not, not_not] at hd
    subst hd
    rw [words_cons_blank]
    exact words_append_blank hword (List.cons_ne_nil _ _) rest

/-- There is no word in a text of blanks. -/
theorem words_eq_nil_iff {q : Text} : words q = [] ↔ ∀ c ∈ q, c = ' ' := by
  induction q with
  | nil => simp [words_nil]
  | cons c q ih =>
    by_cases hc : c = ' '
    · subst hc
      simp [words_cons_blank, ih]
    · simp [words_cons hc, hc]

theorem mem_words {q w : Text} (h : w ∈ words q) : w ≠ [] ∧ ' ' ∉ w := by
  obtain ⟨hw, hne⟩ := List.mem_filter.mp h
  exact ⟨by simpa using hne, sep_notMem_of_mem_split hw⟩

/-- The first character of the first word is the first that is no blank. -/
theorem head_words (q : Text) : (words q).head?.bind List.head? = (trimStart q).head? := by
  induction q with
  | nil => rfl
  | cons c q ih =>
    by_cases hc : c = ' '
    · subst hc
      rw [words_cons_blank, ih]
      rfl
    · simp [words_cons hc, trimStart, hc]

/-- A change of characters that leaves blanks alone changes words one by one. -/
theorem words_map {f : Char → Char} (hf : ∀ c, f c = ' ' ↔ c = ' ') (q : Text) :
    words (q.map f) = (words q).map (List.map f) := by
  rw [words, split_map hf, List.filter_map, words]
  congr 1
  refine List.filter_congr fun w _ => ?_
  simp

end AbacMiddleLayer.Words
