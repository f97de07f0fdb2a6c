import AbacMiddleLayer.CString
import AbacMiddleLayer.Gate.Request

/-! # The buffers of the simple query

`PostgresMain` copies the query, stores its words in `parse[50]` and writes the uri
into `temp[100]` and `uri[100]`, each without a look at the size. Characters are bytes
here.
-/
namespace AbacMiddleLayer.Gate
open Words CString

/-- The loop over the tokens: each is stored at the next index. -/
def storeWords (i : ℕ) : List Text → List (ℕ × Text)
  | [] => []
  | w :: ws => (i, w) :: storeWords (i + 1) ws

def stores (q : Text) : List (ℕ × Text) := storeWords 0 (parse q)

/-- What stands in `parse[j]` behind the loop, if the loop has stored there. -/
def slot (q : Text) (j : ℕ) : Option Text := (stores q).lookup j

/-- The elements of `parse` that are read behind the loop, each with the string found there.
The semicolon is cut off in place, between the first and the second read of `parse[3]`. -/
def reads (stale : Char) (q : Text) : List (ℕ × Option Text) :=
  (0, slot q 0) ::
    if command stale q = 'S' ∧ 4 ≤ (stores q).length then
      [(3, slot q 3), (3, (slot q 3).map stripSemicolon), (1, slot q 1)]
    else []

/-- Every store is in the array, and every element read was stored and is not empty. -/
def WithinBounds (stale : Char) (q : Text) : Prop :=
  (∀ s ∈ stores q, s.1 < 50) ∧ ∀ r ∈ reads stale q, ∃ w, r.2 = some w ∧ w ≠ []

theorem storeWords_length (i : ℕ) (ws : List Text) : (storeWords i ws).length = ws.length := by
  induction ws generalizing i with
  | nil => rfl
  | cons w ws ih => rw [storeWords, List.length_cons, List.length_cons, ih]

/-- The indices run up from the first one. -/
theorem forall_storeWords_lt {i n : ℕ} {ws : List Text} (hi : i ≤ n) :
    (∀ s ∈ storeWords i ws, s.1 < n) ↔ i + ws.length ≤ n := by
  induction ws generalizing i with
  | nil => simpa [storeWords] using hi
  | cons w ws ih =>
    rw [storeWords, List.forall_mem_cons, List.length_cons]
    constructor
    · rintro ⟨hlt, hall⟩
      have h := (ih (i := i + 1) (by omega)).mp hall
      omega
    · intro h
      exact ⟨by omega, (ih (by omega)).mpr (by omega)⟩

theorem lookup_storeWords (i j : ℕ) (ws : List Text) :
    (storeWords i ws).lookup (i + j) = ws[j]? := by
  induction ws generalizing i j with
  | nil => rfl
  | cons w ws ih =>
    cases j with
    | zero => simp [storeWords]
    | succ j =>
      have hne : (i + (j + 1) == i) = false := by simp
      rw [storeWords, List.lookup_cons, hne, List.getElem?_cons_succ, ← ih (i + 1) j]
      simp [Nat.add_comm, Nat.add_left_comm]

theorem slot_eq (q : Text) (j : ℕ) : slot q j = (words q)[j]?.map upperCase := by
  have h := lookup_storeWords 0 j (parse q)
  rw [Nat.zero_add] at h
  rw [slot, stores, h, parse_eq, List.getElem?_map]

theorem stores_length (q : Text) : (stores q).length = (words q).length := by
  rw [stores, storeWords_length, parse_eq, List.length_map]

theorem forall_stores_lt (q : Text) (n : ℕ) :
    (∀ s ∈ stores q, s.1 < n) ↔ (words q).length ≤ n := by
  rw [stores, forall_storeWords_lt (Nat.zero_le n), Nat.zero_add, parse_eq, List.length_map]

/-- Only a lone semicolon leaves nothing behind when its semicolon is cut off. -/
theorem stripSemicolon_eq_nil {w : Text} (hne : w ≠ []) : stripSemicolon w = [] ↔ w = [';'] := by
  constructor
  · intro h
    rw [stripSemicolon] at h
    split_ifs at h with hlast
    · rw [← List.dropLast_append_getLast? ';' hlast, h, List.nil_append]
    · exact absurd h hne
  · rintro rfl
    rfl

theorem slot_isWord {q : Text} {j : ℕ} (h : j < (words q).length) :
    ∃ w, slot q j = some w ∧ w ≠ [] := by
  refine ⟨upperCase (words q)[j], ?_, ?_⟩
  · rw [slot_eq, List.getElem?_eq_getElem h, Option.map_some]
  · simpa [upperCase] using (mem_words (List.getElem_mem h)).1

/-- The word that the second read of `parse[3]` finds. -/
theorem slot_cut {q : Text} (h : 3 < (words q).length) :
    (∃ w, (slot q 3).map stripSemicolon = some w ∧ w ≠ []) ↔ (words q)[3]? ≠ some [';'] := by
  have hword : (words q)[3] ≠ [] := (mem_words (List.getElem_mem h)).1
  rw [slot_eq, List.getElem?_eq_getElem h, Option.map_some, Option.map_some,
    stripSemicolon_upperCase]
  simp only [Option.some.injEq, exists_eq_left', ne_eq]
  rw [← stripSemicolon_eq_nil hword, upperCase, List.map_eq_nil_iff]

/-- The word table is used within its bounds exactly for queries of one to fifty words, unless
the gate cuts the semicolon off a fourth word that is nothing else. -/
theorem withinBounds_iff (stale : Char) (q : Text) :
    WithinBounds stale q ↔
      words q ≠ [] ∧ (words q).length ≤ 50 ∧ ¬(BeginsWithS q ∧ (words q)[3]? = some [';']) := by
  rw [WithinBounds, forall_stores_lt]
  by_cases hq : words q = []
  · simp [reads, slot_eq, hq]
  have hzero : 0 < (words q).length := List.length_pos_iff.mpr hq
  have hread : (∀ r ∈ reads stale q, ∃ w, r.2 = some w ∧ w ≠ []) ↔
      ¬(BeginsWithS q ∧ (words q)[3]? = some [';']) := by
    have hcond : (command stale q = 'S' ∧ 4 ≤ (stores q).length) ↔
        BeginsWithS q ∧ 4 ≤ (words q).length := by
      rw [command_eq_S_iff hq, stores_length]
    rw [reads, List.forall_mem_cons]
    by_cases hS : BeginsWithS q ∧ 4 ≤ (words q).length
    · have hlong : 3 < (words q).length := by omega
      have hone : 1 < (words q).length := by omega
      rw [if_pos (hcond.mpr hS)]
      simp only [List.forall_mem_cons, slot_isWord hzero, slot_isWord hlong, slot_cut hlong,
        slot_isWord hone, hS.1, true_and]
      simp
    · have hshort : BeginsWithS q → (words q)[3]? = none := fun h =>
        List.getElem?_eq_none (Nat.lt_succ_iff.mp (Nat.not_le.mp fun hlong => hS ⟨h, hlong⟩))
      rw [if_neg fun h => hS (hcond.mp h)]
      refine iff_of_true ⟨slot_isWord hzero, by simp⟩ fun h => ?_
      rw [hshort h.1] at h
      exact absurd h.2 (by simp)
  rw [hread, and_iff_right hq]

/-- A query of blanks reads `parse[0]`, which was never stored, and an INSERT of 97 words
stores outside the array. -/
theorem blank_and_long_query_out_of_bounds :
    ¬WithinBounds ' ' "  ".toList ∧
      ¬WithinBounds ' ' ("INSERT INTO t VALUES (0".toList ++
        (List.replicate 46 " , 1".toList).flatten ++ ")".toList) := by
  constructor
  · intro h
    obtain ⟨w, hw, -⟩ := h.2 (0, slot "  ".toList 0) List.mem_cons_self
    have hnone : slot "  ".toList 0 = none := by decide +kernel
    rw [hnone] at hw
    cases hw
  · intro h
    have hlong := (forall_stores_lt _ 50).mp h.1
    revert hlong
    decide +kernel

/-- The text that `sprintf` writes into `temp`, if it is called. -/
def tempText (stale : Char) (q : Text) : Option Text :=
  if command stale q = 'S' then (resource q).map ('/' :: ·) else none

/-- Both texts and their terminators fit into a hundred bytes. -/
def BuffersSuffice (stale : Char) (dbname q : Text) : Prop :=
  (∀ t, tempText stale q = some t → t.length + 1 ≤ 100) ∧
    (deriveRequest stale dbname q).2.length + 1 ≤ 100

theorem baseUri_length (dbname : Text) : (baseUri dbname).length = 16 + dbname.length := by
  have hstart : "/UOA_CANVAS_LMS/".toList.length = 16 := by
    rw [String.toList_ofList]
    rfl
  unfold baseUri
  rw [List.length_append, hstart]

/-- `strcat` appends what `sprintf` has written. -/
theorem uri_eq (stale : Char) (dbname q : Text) :
    (deriveRequest stale dbname q).2 = baseUri dbname ++ (tempText stale q).getD [] := by
  unfold deriveRequest tempText
  split_ifs <;> simp

theorem tempText_eq_none {stale : Char} {q : Text} (h : ¬(BeginsWithS q ∧ 4 ≤ (words q).length)) :
    tempText stale q = none := by
  rw [tempText]
  split_ifs with hcmd
  · rw [resource_eq]
    rcases tableColumn_cases (words q) with ⟨-, hnone⟩ | ⟨w₁, column, w₃, table, ws, hws, -⟩
    · rw [hnone, Option.map_none]
    · have hS := (command_eq_S_iff (by simp [hws]) stale).mp hcmd
      exact absurd ⟨hS, by simp [hws]⟩ h
  · rfl

/-- The query begins with S and has a fourth word. -/
theorem tempText_eq_some {stale : Char} {q w₁ column w₃ table : Text} {ws : List Text}
    (hS : BeginsWithS q) (hwords : words q = w₁ :: column :: w₃ :: table :: ws) :
    tempText stale q = some ('/' :: (upperCase (stripSemicolon table) ++ '/' :: upperCase column)) := by
  have hcmd : command stale q = 'S' := (command_eq_S_iff (by simp [hwords]) stale).mpr hS
  rw [tempText, if_pos hcmd, resource_eq, hwords]
  rfl

/-- Name, table and column together may have 81 bytes. -/
theorem buffersSuffice_iff (stale : Char) {dbname : Text} (hdb : dbname.length ≤ 63) (q : Text) :
    BuffersSuffice stale dbname q ↔
      ∀ w₁ column w₃ table ws, BeginsWithS q → words q = w₁ :: column :: w₃ :: table :: ws →
        dbname.length + (stripSemicolon table).length + column.length ≤ 81 := by
  rw [BuffersSuffice, uri_eq, List.length_append, baseUri_length]
  by_cases h : BeginsWithS q ∧ 4 ≤ (words q).length
  · obtain ⟨hS, hlong⟩ := h
    rcases hwords : words q with _ | ⟨w₁, _ | ⟨column, _ | ⟨w₃, _ | ⟨table, ws⟩⟩⟩⟩
    case cons.cons.cons.cons =>
      rw [tempText_eq_some hS hwords]
      simp only [Option.some.injEq, forall_eq', Option.getD_some, List.length_cons,
        List.length_append, upperCase, List.length_map]
      constructor
      · rintro ⟨-, huri⟩ v₁ column' v₃ table' vs - hsame
        cases hsame
        omega
      · intro hall
        have hsize := hall w₁ column w₃ table ws hS rfl
        omega
    all_goals simp [hwords] at hlong
  · rw [tempText_eq_none h]
    refine iff_of_true ⟨by simp, by simpa using by omega⟩ ?_
    intro w₁ column w₃ table ws hS hwords
    exact absurd ⟨hS, by simp [hwords]⟩ h

theorem buffersSuffice_course_score :
    ("lms".toList.length ≤ 63) ∧ BuffersSuffice ' ' "lms".toList "SELECT score FROM course;".toList := by
  have hdb : "lms".toList.length ≤ 63 := by decide
  refine ⟨hdb, (buffersSuffice_iff ' ' hdb _).mpr ?_⟩
  have hwords : words "SELECT score FROM course;".toList =
      ["SELECT".toList, "score".toList, "FROM".toList, "course;".toList] := by decide +kernel
  intro w₁ column w₃ table ws _ h
  rw [hwords] at h
  cases h
  decide +kernel

/-- With a name of 63 bytes and a table of 30, the text for `temp` has 36 bytes and fits,
the uri has 115 and does not. -/
theorem long_names_overflow_uri :
    tempText ' ' ("SELECT name FROM ".toList ++ List.replicate 30 'T') =
        some ('/' :: (List.replicate 30 'T' ++ "/NAME".toList)) ∧
      ¬BuffersSuffice ' ' (List.replicate 63 'd')
        ("SELECT name FROM ".toList ++ List.replicate 30 'T') := by
  have htemp : tempText ' ' ("SELECT name FROM ".toList ++ List.replicate 30 'T') =
      some ('/' :: (List.replicate 30 'T' ++ "/NAME".toList)) := by decide +kernel
  refine ⟨htemp, fun h => ?_⟩
  have huri := h.2
  rw [uri_eq, htemp, List.length_append, baseUri_length] at huri
  revert huri
  decide +kernel

/-- The size that `malloc` is asked for: `strlen(query_string+1)`, the query being in the
buffer of the message with other bytes behind it. -/
def copySize (q : CText) (behind : Text) : Option ℕ := strlen ((q.inMemory behind).drop 1)

/-- The bytes of the copy that `strcpy`, the loop over `strlen(new_query_string)` bytes and
`strtok` touch: all up to the terminator. -/
def copyTouches (q : CText) : List ℕ := strcpyWrites q

/-- The size does not depend on bytes behind the string, and what is touched is inside it. -/
def CopyFits (q : CText) (behind : Text) : Prop :=
  (∀ other, copySize q other = copySize q behind) ∧
    ∃ size, copySize q behind = some size ∧ q.text.length + 1 ≤ size ∧
      ∀ i ∈ copyTouches q, i < size

/-- For a query that is not empty the copy is two bytes too short. -/
theorem copySize_eq {q : CText} (h : q.text ≠ []) (behind : Text) :
    copySize q behind = some (q.text.length - 1) :=
  strlen_drop_one h behind

theorem copySize_nil {q : CText} (h : q.text = []) (behind : Text) :
    copySize q behind = strlen behind :=
  strlen_drop_one_nil h behind

/-- The copy never fits: of the empty query the size is read behind the string, of every other
one it is too small. -/
theorem copy_never_fits (q : CText) (behind : Text) : ¬CopyFits q behind := by
  rintro ⟨hinside, size, hsize, hroom, -⟩
  by_cases hq : q.text = []
  · have h := (hinside []).trans (hinside [nul]).symm
    rw [copySize_nil hq, copySize_nil hq] at h
    cases h
  · rw [copySize_eq hq, Option.some.injEq] at hsize
    omega

def selectOne : CText := ⟨"SELECT 1".toList, by decide +kernel⟩

/-- The copy of eight bytes and a terminator gets seven bytes. -/
theorem selectOne_copy_too_short :
    copySize selectOne [nul] = some 7 ∧ ¬CopyFits selectOne [nul] := by
  have hsize : copySize selectOne [nul] = some 7 := copySize_eq (by decide +kernel) [nul]
  refine ⟨hsize, fun h => ?_⟩
  obtain ⟨-, size, hsome, hroom, -⟩ := h
  rw [hsize] at hsome
  cases hsome
  revert hroom
  decide +kernel

end AbacMiddleLayer.Gate
