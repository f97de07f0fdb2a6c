import AbacMiddleLayer.Text

/-! # C strings

A block of memory from some address on is a list of bytes, each a character. A string
ends at the first NUL; without one `strlen` runs out of the block.
-/
namespace AbacMiddleLayer.CString

def nul : Char := Char.ofNat 0

/-- A string as C has it: its bytes do not include the terminator. -/
structure CText where
  text : Text
  noNul : nul ∉ text

/-- The bytes of a string in memory, with what stands behind its terminator. -/
def CText.inMemory (q : CText) (behind : Text) : Text := q.text ++ nul :: behind

def strlen : Text → Option ℕ
  | [] => none
  | c :: cs => if c = nul then some 0 else (strlen cs).map (· + 1)

/-- The addresses that `strcpy` writes, relative to its target. -/
def strcpyWrites (q : CText) : List ℕ := List.range (q.text.length + 1)

theorem strlen_append {s : Text} (h : nul ∉ s) (behind : Text) :
    strlen (s ++ nul :: behind) = some s.length := by
  induction s with
  | nil => rw [List.nil_append, strlen, if_pos rfl, List.length_nil]
  | cons c s ih =>
    rw [List.mem_cons, not_or] at h
    rw [List.cons_append, strlen, if_neg (Ne.symm h.1), ih h.2]
    rfl

/-- Behind its first byte a string is a string again. -/
theorem strlen_drop_one {q : CText} (h : q.text ≠ []) (behind : Text) :
    strlen ((q.inMemory behind).drop 1) = some (q.text.length - 1) := by
  obtain ⟨c, s, hs⟩ := List.exists_cons_of_ne_nil h
  have hnul := q.noNul
  rw [hs, List.mem_cons, not_or] at hnul
  rw [CText.inMemory, hs, List.cons_append, List.drop_one, List.tail_cons, strlen_append hnul.2]
  rfl

/-- Behind the terminator of the empty string stands another string, or none. -/
theorem strlen_drop_one_nil {q : CText} (h : q.text = []) (behind : Text) :
    strlen ((q.inMemory behind).drop 1) = strlen behind := by
  rw [CText.inMemory, h, List.nil_append, List.drop_one, List.tail_cons]

end AbacMiddleLayer.CString
