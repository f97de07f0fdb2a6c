import AbacMiddleLayer.Xml.Segments

/-! # Comments and processing instructions

Both may stand wherever text does, and both are dropped before a document is cut into tags; an XML
declaration goes the way of the processing instructions. Document types and CDATA sections are
refused. The pass reads one character at a time, so that a document can be cut at any place.
-/
namespace AbacMiddleLayer.Xml

/-- A character of a tag that does not end it. -/
def Mode.inTag : Mode → Char → Option Mode
  | .text, _ => none
  | .tag, c =>
    if c = '<' ∨ c = '>' then none
    else if c = '"' ∨ c = '\'' then some (.quoted c)
    else some .tag
  | .quoted q, c => if c = '<' then none else if c = q then some .tag else some (.quoted q)

def Mode.within (m : Mode) (t : Text) : Option Mode := t.foldlM Mode.inTag m

theorem Mode.within_append (m : Mode) (t u : Text) :
    m.within (t ++ u) = (m.within t).bind fun m' => m'.within u :=
  List.foldlM_append

theorem Mode.within_cons (m : Mode) (c : Char) (t : Text) :
    m.within (c :: t) = (m.inTag c).bind fun m' => m'.within t :=
  List.foldlM_cons

theorem Mode.inTag_lt (m : Mode) : m.inTag '<' = none := by
  cases m <;> rfl

/-- Characters that leave the mode as it is. -/
theorem Mode.within_of_forall {m : Mode} {t : Text} (h : ∀ c ∈ t, m.inTag c = some m) :
    m.within t = some m := by
  induction t with
  | nil => rfl
  | cons c cs ih =>
    rw [List.forall_mem_cons] at h
    rw [Mode.within_cons, h.1]
    exact ih h.2

theorem scanLoop_within {m m' : Mode} {t : Text} (h : m.within t = some m') (piece rest : Text) :
    scanLoop m piece (t ++ rest) = scanLoop m' (piece ++ t) rest := by
  induction t generalizing m piece with
  | nil =>
    cases h
    simp
  | cons c cs ih =>
    rw [Mode.within_cons, Option.bind_eq_some_iff] at h
    obtain ⟨m₁, hm₁, hcs⟩ := h
    have hstep : scanLoop m piece (c :: (cs ++ rest)) = scanLoop m₁ (piece ++ [c]) (cs ++ rest) := by
      cases m with
      | text => cases hm₁
      | tag =>
        simp only [Mode.inTag] at hm₁
        split_ifs at hm₁ with hangle hquote <;> cases hm₁
        · rw [not_or] at hangle
          rw [scanLoop, if_neg hangle.2, if_neg hangle.1, if_pos hquote]
        · rw [not_or] at hangle
          rw [scanLoop, if_neg hangle.2, if_neg hangle.1, if_neg hquote]
      | quoted q =>
        simp only [Mode.inTag] at hm₁
        split_ifs at hm₁ with hlt hq <;> cases hm₁
        · rw [scanLoop, if_neg hlt, if_pos hq]
        · rw [scanLoop, if_neg hlt, if_neg hq]
    rw [List.cons_append, hstep, ih hcs]
    simp

/-- Where the pass is. The characters of a tag that is just starting are kept back until it is clear
that no comment starts there. -/
inductive Pass where
  | text
  | less
  | bang
  | bangDash
  | tag (m : Mode)
  | comment
  | dash
  | dashes
  | instruction
  | instructionEnd
deriving DecidableEq, Repr

def Pass.inTag (m : Mode) (c : Char) : Option (Text × Pass) :=
  if m = .tag ∧ c = '>' then some ([c], .text) else (m.inTag c).map fun m' => ([c], .tag m')

/-- What is kept at a character, and where the pass goes on. -/
def Pass.step : Pass → Char → Option (Text × Pass)
  | .text, c => if c = '<' then some ([], .less) else some ([c], .text)
  | .less, c =>
    if c = '!' then some ([], .bang)
    else if c = '?' then some ([], .instruction)
    else (inTag .tag c).map fun r => ('<' :: r.1, r.2)
  | .bang, c => if c = '-' then some ([], .bangDash) else none
  | .bangDash, c => if c = '-' then some ([], .comment) else none
  | .tag m, c => inTag m c
  | .comment, c => some ([], if c = '-' then .dash else .comment)
  | .dash, c => some ([], if c = '-' then .dashes else .comment)
  | .dashes, c => if c = '>' then some ([], .text) else none
  | .instruction, c => some ([], if c = '?' then .instructionEnd else .instruction)
  | .instructionEnd, c =>
    some ([], if c = '>' then .text else if c = '?' then .instructionEnd else .instruction)

def stripLoop : Pass → Text → Option (Text × Pass)
  | p, [] => some ([], p)
  | p, c :: cs => (p.step c).bind fun r => (stripLoop r.2 cs).map fun s => (r.1 ++ s.1, s.2)

/-- The text of a document without its comments and processing instructions. -/
def strip (t : Text) : Option Text := (stripLoop .text t).bind fun r =>
  if r.2 = .text then some r.1 else none

theorem stripLoop_append (p : Pass) (t u : Text) :
    stripLoop p (t ++ u) =
      (stripLoop p t).bind fun r => (stripLoop r.2 u).map fun s => (r.1 ++ s.1, s.2) := by
  induction t generalizing p with
  | nil => simp [stripLoop]
  | cons c cs ih =>
    rw [List.cons_append, stripLoop, stripLoop]
    cases p.step c with
    | none => rfl
    | some r =>
      simp only [Option.bind_some, ih, Option.map_bind, Option.bind_map]
      congr 1
      funext s
      simp only [Function.comp_apply, Option.map_map]
      congr 1
      funext q
      simp

/-- A text that becomes another one, so that the pass goes on behind it as in front of it. -/
def StripsTo (t u : Text) : Prop := stripLoop .text t = some (u, .text)

theorem StripsTo.append {t u t' u' : Text} (h : StripsTo t u) (h' : StripsTo t' u') :
    StripsTo (t ++ t') (u ++ u') := by
  rw [StripsTo, stripLoop_append, show stripLoop .text t = some (u, .text) from h, Option.bind_some,
    show stripLoop .text t' = some (u', .text) from h']
  rfl

theorem StripsTo.strip_eq {t u : Text} (h : StripsTo t u) : strip t = some u := by
  rw [strip, show stripLoop .text t = some (u, .text) from h]
  rfl

theorem kept_text {t : Text} (h : '<' ∉ t) : StripsTo t t := by
  unfold StripsTo
  induction t with
  | nil => rfl
  | cons c cs ih =>
    rw [List.mem_cons, not_or] at h
    rw [stripLoop, Pass.step, if_neg (Ne.symm h.1), Option.bind_some, ih h.2]
    rfl

theorem stripLoop_within {m m' : Mode} {t : Text} (h : m.within t = some m') :
    stripLoop (.tag m) t = some (t, .tag m') := by
  induction t generalizing m with
  | nil =>
    cases h
    rfl
  | cons c cs ih =>
    rw [Mode.within_cons, Option.bind_eq_some_iff] at h
    obtain ⟨m₁, hm₁, hcs⟩ := h
    have hend : ¬(m = .tag ∧ c = '>') := by
      rintro ⟨rfl, rfl⟩
      cases hm₁
    rw [stripLoop, Pass.step, Pass.inTag, if_neg hend, hm₁, Option.map_some, Option.bind_some,
      ih hcs]
    rfl

/-- A tag is kept, whatever is quoted in it. -/
theorem kept_tag {c : Char} {cs : Text} (hbang : c ≠ '!') (hquery : c ≠ '?')
    (h : Mode.tag.within (c :: cs) = some .tag) :
    StripsTo ('<' :: ((c :: cs) ++ ['>'])) ('<' :: ((c :: cs) ++ ['>'])) := by
  rw [Mode.within_cons, Option.bind_eq_some_iff] at h
  obtain ⟨m, hm, hcs⟩ := h
  have hend : ¬(Mode.tag = .tag ∧ c = '>') := by
    rintro ⟨-, rfl⟩
    cases hm
  have hrest : stripLoop (.tag m) (cs ++ ['>']) = some (cs ++ ['>'], .text) := by
    rw [stripLoop_append, stripLoop_within hcs]
    rfl
  rw [StripsTo, stripLoop, Pass.step, if_pos rfl, Option.bind_some, List.cons_append, stripLoop,
    Pass.step, if_neg hbang, if_neg hquery, Pass.inTag, if_neg hend, hm, Option.map_some,
    Option.map_some, Option.bind_some, hrest]
  rfl

theorem stripLoop_comment {u : Text} (h : '-' ∉ u) : stripLoop .comment u = some ([], .comment) := by
  induction u with
  | nil => rfl
  | cons c cs ih =>
    rw [List.mem_cons, not_or] at h
    rw [stripLoop, Pass.step, if_neg (Ne.symm h.1), Option.bind_some, ih h.2]
    rfl

theorem stripLoop_instruction {u : Text} (h : '?' ∉ u) :
    stripLoop .instruction u = some ([], .instruction) := by
  induction u with
  | nil => rfl
  | cons c cs ih =>
    rw [List.mem_cons, not_or] at h
    rw [stripLoop, Pass.step, if_neg (Ne.symm h.1), Option.bind_some, ih h.2]
    rfl

/-- A comment is dropped unless two dashes stand in it. -/
theorem stripsTo_comment {u : Text} (h : stripLoop .comment u = some ([], .comment)) :
    StripsTo ('<' :: '!' :: '-' :: '-' :: (u ++ ['-', '-', '>'])) [] := by
  have hbody : stripLoop .comment (u ++ ['-', '-', '>']) = some ([], .text) := by
    rw [stripLoop_append, h]
    rfl
  rw [StripsTo, stripLoop, Pass.step, if_pos rfl, Option.bind_some, stripLoop, Pass.step,
    if_pos rfl, Option.bind_some, stripLoop, Pass.step, if_pos rfl, Option.bind_some, stripLoop,
    Pass.step, if_pos rfl, Option.bind_some, hbody]
  rfl

/-- A comment is read line by line. -/
theorem stripLoop_comment_flatten {lines : List Text}
    (h : ∀ l ∈ lines, stripLoop .comment l = some ([], .comment)) :
    stripLoop .comment lines.flatten = some ([], .comment) := by
  induction lines with
  | nil => rfl
  | cons l lines ih =>
    rw [List.forall_mem_cons] at h
    rw [List.flatten_cons, stripLoop_append, h.1, Option.bind_some, ih h.2]
    rfl

/-- What stands in front of the last tag of a document is outside of comments. -/
theorem stripLoop_before_tag {t u d : Text} (hdash : '-' ∉ u) (hquery : '?' ∉ u)
    (h : strip (t ++ '<' :: u) = some d) :
    ∃ p q, stripLoop .text t = some (p, .text) ∧ stripLoop .text ('<' :: u) = some (q, .text) ∧
      d = p ++ q := by
  rw [strip, stripLoop_append, Option.bind_assoc] at h
  obtain ⟨⟨p, state⟩, hp, h⟩ := Option.bind_eq_some_iff.mp h
  obtain ⟨⟨q, final⟩, hq, h⟩ := Option.bind_eq_some_iff.mp h
  obtain ⟨⟨q, final⟩, hq', he⟩ := Option.map_eq_some_iff.mp hq
  cases he
  split_ifs at h with hfinal
  cases h
  subst hfinal
  -- from anywhere else, the `<` is refused or does not lead back to text
  have hstate : state = .text := by
    rw [stripLoop] at hq'
    cases state with
    | text => rfl
    | less => cases hq'
    | bang => cases hq'
    | bangDash => cases hq'
    | tag m =>
      rw [Pass.step, Pass.inTag, if_neg (fun h => absurd h.2 (by decide)), m.inTag_lt] at hq'
      cases hq'
    | comment =>
      rw [Pass.step, if_neg (by decide), Option.bind_some, stripLoop_comment hdash] at hq'
      cases hq'
    | dash =>
      rw [Pass.step, if_neg (by decide), Option.bind_some, stripLoop_comment hdash] at hq'
      cases hq'
    | dashes => cases hq'
    | instruction =>
      rw [Pass.step, if_neg (by decide), Option.bind_some, stripLoop_instruction hquery] at hq'
      cases hq'
    | instructionEnd =>
      rw [Pass.step, if_neg (by decide), if_neg (by decide), Option.bind_some,
        stripLoop_instruction hquery] at hq'
      cases hq'
  subst hstate
  exact ⟨p, q, hp, hq', rfl⟩

end AbacMiddleLayer.Xml
