import AbacMiddleLayer.Json.Object
import AbacMiddleLayer.KeyValue
import AbacMiddleLayer.TextLines

/-! # Files of objects, one a line

A reader that strips the lines of a file, skips those that are blank and loads the others.
A line end inside an object makes two lines of it, neither of them blank, so that there are
more lines than objects.
-/
namespace AbacMiddleLayer.Json
open KeyValue TextLines Tsv

theorem mapM_eq_some_iff {α β : Type*} {f : α → Option β} {l : List α} {r : List β} :
    l.mapM f = some r ↔ List.Forall₂ (fun a b => f a = some b) l r := by
  induction l generalizing r with
  | nil => simp [eq_comm]
  | cons a l ih =>
    rw [List.mapM_cons]
    constructor
    · intro h
      obtain ⟨b, hb, h⟩ := Option.bind_eq_some_iff.mp h
      obtain ⟨bs, hbs, h⟩ := Option.bind_eq_some_iff.mp h
      cases h
      exact .cons hb (ih.mp hbs)
    · intro h
      cases h with
      | cons hb hbs => simp [hb, ih.mpr hbs]

section
variable (blank : Char → Bool)

def nonblank (line : Text) : Option Text :=
  let line := trim blank line
  if line = [] then none else some line

def loadLines (t : Text) : Option (List Value) :=
  ((textLines t).filterMap (nonblank blank)).mapM loads

end

variable {blank : Char → Bool} {s : Text}

/-- The lines that the reader makes of a text. -/
def stripped (blank : Char → Bool) (s : Text) : List Text := (pieces s).filterMap (nonblank blank)

theorem stripped_append {c : Char} (hc : IsBreak c) (s t : Text) :
    stripped blank (s ++ c :: t) = stripped blank s ++ stripped blank t := by
  rw [stripped, pieces_append hc, List.filterMap_append]
  rfl

theorem stripped_ne_nil {c : Char} (hc : c ∈ s) (hbreak : ¬ IsBreak c) (hblank : blank c = false) :
    stripped blank s ≠ [] := by
  obtain ⟨p, hp, hcp⟩ := exists_mem_pieces hc hbreak
  have hmem := mem_trim hcp hblank
  apply List.ne_nil_of_mem (a := trim blank p)
  refine List.mem_filterMap.mpr ⟨p, hp, ?_⟩
  exact if_neg (List.ne_nil_of_mem hmem)

theorem stripped_unlines (lines : List Text) :
    stripped blank (unlines lines) = lines.flatMap (stripped blank) := by
  induction lines with
  | nil => rfl
  | cons l lines ih =>
    have hunlines : unlines (l :: lines) = l ++ '\n' :: unlines lines := by simp [unlines]
    rw [hunlines, stripped_append (.inl rfl), ih, List.flatMap_cons]

theorem loadLines_eq (t : Text) : loadLines blank t = (stripped blank t).mapM loads := by
  rw [loadLines, filterMap_textLines (by rfl), stripped]

/-- A text between braces that are not blank. -/
structure Braced (blank : Char → Bool) (s : Text) : Prop where
  head : s.head? = some '\x7b'
  last : s.getLast? = some '\x7d'
  leftVisible : blank '\x7b' = false
  rightVisible : blank '\x7d' = false

theorem braced_object (hleft : blank '\x7b' = false) (hright : blank '\x7d' = false)
    (ms : List (Text × Text)) : Braced blank (object ms) where
  head := rfl
  last := List.getLast?_concat
  leftVisible := hleft
  rightVisible := hright

theorem Braced.stripped_ne_nil (h : Braced blank s) : stripped blank s ≠ [] :=
  Json.stripped_ne_nil (List.mem_of_mem_head? h.head) (by decide) h.leftVisible

/-- A line end inside makes two lines. -/
theorem Braced.two_le_length (h : Braced blank s) {c : Char} (hc : c ∈ s) (hbreak : IsBreak c) :
    2 ≤ (stripped blank s).length := by
  obtain ⟨a, b, rfl⟩ := List.append_of_mem hc
  have hleft : '\x7b' ∈ a := by
    cases a with
    | nil =>
      have hhead : c = '\x7b' := by simpa using h.head
      rw [hhead] at hbreak
      exact absurd hbreak (by decide)
    | cons d a =>
      have hhead : d = '\x7b' := by simpa using h.head
      simp [hhead]
  have hright : '\x7d' ∈ b := by
    have hlast := h.last
    rw [List.getLast?_append, List.getLast?_cons, Option.some_or, Option.some.injEq] at hlast
    cases hb : b.getLast? with
    | none =>
      have hc' : c = '\x7d' := by simpa [hb] using hlast
      rw [hc'] at hbreak
      exact absurd hbreak (by decide)
    | some d =>
      have hd : d = '\x7d' := by simpa [hb] using hlast
      rw [← hd]
      exact List.mem_of_mem_getLast? hb
  have ha := Json.stripped_ne_nil hleft (by decide) h.leftVisible
  have hb := Json.stripped_ne_nil hright (by decide) h.rightVisible
  rw [stripped_append hbreak, List.length_append]
  have hposa := List.length_pos_iff.mpr ha
  have hposb := List.length_pos_iff.mpr hb
  omega

theorem Braced.stripped_eq (h : Braced blank s) (hbreak : ∀ c ∈ s, ¬ IsBreak c) :
    stripped blank s = [s] := by
  have htrim : trim blank s = s := by
    apply trim_eq_self
    · intro c hc
      rw [h.head, Option.some.injEq] at hc
      exact hc ▸ h.leftVisible
    · intro c hc
      rw [h.last, Option.some.injEq] at hc
      exact hc ▸ h.rightVisible
  have hne : s ≠ [] := by
    rintro rfl
    cases h.head
  simp [stripped, pieces_of_no_break hbreak, nonblank, htrim, hne]

theorem flatMap_stripped_eq {lines : List Text} (h : ∀ l ∈ lines, Braced blank l)
    (hbreak : ∀ l ∈ lines, ∀ c ∈ l, ¬ IsBreak c) : lines.flatMap (stripped blank) = lines := by
  induction lines with
  | nil => rfl
  | cons l lines ih =>
    rw [List.flatMap_cons, (h l (by simp)).stripped_eq (hbreak l (by simp)),
      ih (fun k hk => h k (by simp [hk])) fun k hk => hbreak k (by simp [hk])]
    rfl

theorem length_le_flatMap_stripped {lines : List Text} (h : ∀ l ∈ lines, Braced blank l) :
    lines.length ≤ (lines.flatMap (stripped blank)).length := by
  induction lines with
  | nil => exact le_rfl
  | cons l lines ih =>
    have hrest := ih fun k hk => h k (by simp [hk])
    have hpos := List.length_pos_iff.mpr (h l (by simp)).stripped_ne_nil
    rw [List.flatMap_cons, List.length_append, List.length_cons]
    omega

/-- As many lines as objects means that no object has a line end inside. -/
theorem not_isBreak_of_length {lines : List Text} (h : ∀ l ∈ lines, Braced blank l)
    (hlength : (lines.flatMap (stripped blank)).length = lines.length) :
    ∀ l ∈ lines, ∀ c ∈ l, ¬ IsBreak c := by
  intro l hl c hc hbreak
  obtain ⟨front, rest, rfl⟩ := List.append_of_mem hl
  have htwo := (h l hl).two_le_length hc hbreak
  have hfront : front.length ≤ (front.flatMap (stripped blank)).length :=
    length_le_flatMap_stripped fun k hk => h k (by simp [hk])
  have hrest : rest.length ≤ (rest.flatMap (stripped blank)).length :=
    length_le_flatMap_stripped fun k hk => h k (by simp [hk])
  rw [List.flatMap_append, List.flatMap_cons, List.length_append, List.length_append,
    List.length_append, List.length_cons] at hlength
  omega

theorem not_isBreak_of_noControl (h : NoControl s) {c : Char} (hc : c ∈ s) : ¬ IsBreak c := by
  have hle := h c hc
  rintro (rfl | rfl) <;> exact absurd hle (by decide)

theorem not_isBreak_of_isWordChar {c : Char} (h : isWordChar c = true) : ¬ IsBreak c := by
  rintro (rfl | rfl) <;> exact absurd h (by decide)

theorem not_isBreak_quoted (h : ∀ c ∈ s, ¬ IsBreak c) : ∀ c ∈ quoted s, ¬ IsBreak c := by
  intro c hc
  simp only [quoted, List.cons_append, List.mem_cons, List.mem_append, List.not_mem_nil,
    or_false] at hc
  rcases hc with rfl | hc | rfl
  · decide
  · exact h c hc
  · decide

theorem mem_of_mem_escape {c : Char} (hc : c ∈ escape s) : c = '\\' ∨ c ∈ s := by
  obtain ⟨d, hd, hc⟩ := List.mem_flatMap.mp hc
  split_ifs at hc
  · rcases List.mem_cons.mp hc with rfl | hc
    · exact .inl rfl
    · exact .inr (by simpa using List.mem_singleton.mp hc ▸ hd)
  · exact .inr (by simpa using List.mem_singleton.mp hc ▸ hd)

theorem Plain.noControl (h : Plain s) : NoControl s := fun c hc => (h c hc).1

theorem Field.not_isBreak {f : Field} (h : f.Clean) : ∀ c ∈ f.text, ¬ IsBreak c := by
  cases f with
  | word w => exact fun c hc => not_isBreak_of_isWordChar (w.chars c hc)
  | raw s =>
    have hs : Plain s := h
    exact not_isBreak_quoted fun c hc => not_isBreak_of_noControl hs.noControl hc
  | escaped s =>
    apply not_isBreak_quoted
    intro c hc
    rcases mem_of_mem_escape hc with rfl | hc
    · decide
    · exact not_isBreak_of_noControl h hc

variable {fs : List (Text × Field)}

/-- An object stands on one line when its values do. -/
theorem not_isBreak_members {ms : List (Text × Text)} (hnames : ∀ m ∈ ms, IsName m.1)
    (hvalues : ∀ m ∈ ms, ∀ c ∈ m.2, ¬ IsBreak c) : ∀ c ∈ object ms, ¬ IsBreak c := by
  intro c hc
  simp only [object, List.cons_append, List.mem_cons, List.mem_append, List.not_mem_nil,
    or_false] at hc
  rcases hc with rfl | hc | rfl
  · decide
  · rcases mem_join hc with rfl | ⟨t, ht, hc⟩
    · decide
    · obtain ⟨m, hm, rfl⟩ := List.mem_map.mp ht
      rcases List.mem_append.mp hc with hc | hc
      · have hname := (hnames m hm).plain.noControl
        exact not_isBreak_quoted (fun d hd => not_isBreak_of_noControl hname hd) c hc
      · rcases List.mem_cons.mp hc with rfl | hc
        · decide
        · exact hvalues m hm c hc
  · decide

theorem not_isBreak_object (h : WellFormed fs) (hclean : ∀ f ∈ fs, f.2.Clean) :
    ∀ c ∈ object (texts fs), ¬ IsBreak c :=
  not_isBreak_members (names_texts h)
    (List.forall_mem_map.mpr fun f hf => Field.not_isBreak (hclean f hf))

/-- A file of objects, each given by its fields. -/
def writeLines (written : List (List (Text × Field))) : Text :=
  unlines (written.map fun fs => object (texts fs))

/-- The object that is meant by its fields. -/
def meant (fs : List (Text × Field)) : Value :=
  .object (fs.map fun f => (codes f.1, .scalar f.2.scalar))

theorem braced_of_mem_map (written : List (List (Text × Field))) (hleft : blank '\x7b' = false)
    (hright : blank '\x7d' = false) :
    ∀ l ∈ written.map fun fs => object (texts fs), Braced blank l := by
  intro l hl
  obtain ⟨fs, -, rfl⟩ := List.mem_map.mp hl
  exact braced_object hleft hright _

section
variable {written : List (List (Text × Field))} (hleft : blank '\x7b' = false)
  (hright : blank '\x7d' = false) (hwritten : ∀ fs ∈ written, WellFormed fs)
include hleft hright hwritten

theorem loadLines_of_clean (hclean : ∀ fs ∈ written, ∀ f ∈ fs, f.2.Clean) :
    loadLines blank (writeLines written) = some (written.map meant) := by
  have hbraced := braced_of_mem_map written hleft hright
  have hbreak : ∀ l ∈ written.map fun fs => object (texts fs), ∀ c ∈ l, ¬ IsBreak c := by
    intro l hl
    obtain ⟨fs, hfs, rfl⟩ := List.mem_map.mp hl
    exact not_isBreak_object (hwritten fs hfs) (hclean fs hfs)
  rw [loadLines_eq, writeLines, stripped_unlines, flatMap_stripped_eq hbraced hbreak,
    mapM_eq_some_iff, List.forall₂_map_left_iff, List.forall₂_map_right_iff, List.forall₂_same]
  exact fun fs hfs => loads_of_clean (hwritten fs hfs) (hclean fs hfs)

/-- A file that is loaded with one value an object, each with the raw strings that were meant,
has clean fields only. -/
theorem clean_of_loadLines {rows : List Value}
    (hload : loadLines blank (writeLines written) = some rows)
    (hraw : List.Forall₂ (fun v fs => ∀ k s, (k, Field.raw s) ∈ fs →
      Value.field k v = some (.scalar (.str (codes s)))) rows written) :
    ∀ fs ∈ written, ∀ f ∈ fs, f.2.Clean := by
  have hbraced := braced_of_mem_map written hleft hright
  rw [loadLines_eq, writeLines, stripped_unlines, mapM_eq_some_iff] at hload
  have hlength : ((written.map fun fs => object (texts fs)).flatMap (stripped blank)).length =
      (written.map fun fs => object (texts fs)).length := by
    rw [hload.length_eq, hraw.length_eq, List.length_map]
  rw [flatMap_stripped_eq hbraced (not_isBreak_of_length hbraced hlength),
    List.forall₂_map_left_iff] at hload
  intro fs hfs
  obtain ⟨i, hi, rfl⟩ := List.getElem_of_mem hfs
  have hrow : i < rows.length := hload.length_eq ▸ hi
  exact clean_of_loads (hwritten _ hfs) (hload.get hi hrow) (hraw.get hrow hi)

end

end AbacMiddleLayer.Json
