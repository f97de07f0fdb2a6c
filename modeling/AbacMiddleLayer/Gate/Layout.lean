import AbacMiddleLayer.Gate.Request

/-! # How a query is laid out

PostgreSQL's scanner drops white space and comments and folds the case of keywords and
unquoted identifiers. The gate looks at blanks only. A layout is a sequence of tokens
with what stands between them.
-/
namespace AbacMiddleLayer.Gate
open Words

/-- The characters of `space` in scan.l. -/
def isSqlSpace (c : Char) : Bool :=
  c = ' ' || c = '\t' || c = '\n' || c = '\r' || c = '\x0c' || c = '\x0b'

def isNewline (c : Char) : Bool := c = '\n' || c = '\r'

/-- The text ends where a comment does that is open to the given depth. -/
def blockEnds : ℕ → Text → Bool
  | _, [] => false
  | depth, '*' :: '/' :: cs => if depth = 0 then cs = [] else blockEnds (depth - 1) cs
  | depth, '/' :: '*' :: cs => blockEnds (depth + 1) cs
  | depth, _ :: cs => blockEnds depth cs

/-- White space, a comment up to the end of its line, or a comment between slashes and stars. -/
inductive Trivia where
  | space (c : Char) (isSpace : isSqlSpace c = true)
  | lineComment (text : Text) (newline : Char) (oneLine : text.all fun c => !isNewline c)
      (ends : isNewline newline = true)
  | blockComment (text : Text) (ends : blockEnds 0 text = true)

def Trivia.text : Trivia → Text
  | .space c _ => [c]
  | .lineComment text newline _ _ => '-' :: '-' :: (text ++ [newline])
  | .blockComment text _ => '/' :: '*' :: text

def triviaText (gap : List Trivia) : Text := gap.flatMap Trivia.text

def isIdentStart (c : Char) : Bool := c.isAlpha || c = '_' || 128 ≤ c.toNat

def isIdentCont (c : Char) : Bool := isIdentStart c || c.isDigit || c = '$'

def opensComment : Text → Bool
  | '-' :: '-' :: _ => true
  | '/' :: '*' :: _ => true
  | _ => false

/-- A token. The case of `folded` tokens, keywords and unquoted identifiers, does not count. -/
structure Token where
  head : Char
  tail : Text
  folded : Bool
  notSpace : isSqlSpace head = false
  notComment : opensComment (head :: tail) = false
  identifier : folded = true → isIdentStart head = true ∧ tail.all isIdentCont = true

def Token.text (t : Token) : Text := t.head :: t.tail

/-- The scanner tells the two tokens not apart. -/
def Token.Same (t u : Token) : Prop :=
  t.folded = u.folded ∧
    if t.folded = true then upperCase t.text = upperCase u.text else t.text = u.text

/-- Tokens, each with what stands in front of it, what stands behind them, and the text of a
comment that is open at the end. -/
structure Layout where
  items : List (List Trivia × Token)
  behind : List Trivia
  openComment : Option Text

def itemsText (items : List (List Trivia × Token)) : Text :=
  items.flatMap fun i => triviaText i.1 ++ i.2.text

def Layout.text (l : Layout) : Text :=
  itemsText l.items ++ (triviaText l.behind ++
    (l.openComment.map fun t => '-' :: '-' :: t).getD [])

/-- Behind the first token: the same tokens, with something between the same pairs. -/
def SameRest (items items' : List (List Trivia × Token)) : Prop :=
  List.Forall₂ (fun i j => (i.1 = [] ↔ j.1 = []) ∧ i.2.Same j.2) items items'

/-- The same tokens. In front of the first one anything may stand. -/
def SameTokens (l l' : Layout) : Prop :=
  match l.items, l'.items with
  | [], [] => True
  | i :: is, j :: js => i.2.Same j.2 ∧ SameRest is js
  | _, _ => False

theorem Token.Same.upperCase_eq {t u : Token} (h : t.Same u) :
    upperCase t.text = upperCase u.text := by
  obtain ⟨-, h⟩ := h
  split_ifs at h with hfolded
  · exact h
  · rw [h]

theorem Token.same_refl (t : Token) : t.Same t := ⟨rfl, by split_ifs <;> rfl⟩

theorem sameRest_refl (items : List (List Trivia × Token)) : SameRest items items :=
  List.forall₂_same.mpr fun i _ => ⟨Iff.rfl, i.2.same_refl⟩

theorem Token.Same.toUpper_head {t u : Token} (h : t.Same u) :
    t.head.toUpper = u.head.toUpper := by
  have heq := h.upperCase_eq
  simp only [upperCase, Token.text, List.map_cons, List.cons.injEq] at heq
  exact heq.1

theorem Token.head_ne_blank (t : Token) : t.head ≠ ' ' := by
  intro h
  have hspace := t.notSpace
  rw [h] at hspace
  exact absurd hspace (by decide)

/-- What stands between tokens is a blank or begins with a character that is neither a blank
nor an S. -/
theorem Trivia.text_cases (t : Trivia) :
    t.text = [' '] ∨ ∃ c cs, t.text = c :: cs ∧ c ≠ ' ' ∧ c ≠ 's' ∧ c ≠ 'S' := by
  cases t with
  | space c isSpace =>
    by_cases hc : c = ' '
    · subst hc
      exact Or.inl rfl
    · refine Or.inr ⟨c, [], rfl, hc, ?_, ?_⟩
      · rintro rfl
        exact absurd isSpace (by decide)
      · rintro rfl
        exact absurd isSpace (by decide)
  | lineComment text newline oneLine ends =>
    exact Or.inr ⟨'-', _, rfl, by decide, by decide, by decide⟩
  | blockComment text ends => exact Or.inr ⟨'/', _, rfl, by decide, by decide, by decide⟩

theorem beginsWithS_cons_blank (q : Text) : BeginsWithS (' ' :: q) ↔ BeginsWithS q := Iff.rfl

theorem beginsWithS_cons {c : Char} (hc : c ≠ ' ') (q : Text) :
    BeginsWithS (c :: q) ↔ c = 's' ∨ c = 'S' := by
  simp [BeginsWithS, trimStart, hc]

/-- Only blanks may stand in front of the S. -/
theorem beginsWithS_trivia_append (gap : List Trivia) (q : Text) :
    BeginsWithS (triviaText gap ++ q) ↔ (∀ c ∈ triviaText gap, c = ' ') ∧ BeginsWithS q := by
  induction gap with
  | nil => simp [triviaText]
  | cons t gap ih =>
    rw [triviaText, List.flatMap_cons, ← triviaText, List.append_assoc]
    rcases t.text_cases with ht | ⟨c, cs, ht, hblank, hs, hS⟩
    · rw [ht, List.singleton_append, List.singleton_append, beginsWithS_cons_blank, ih,
        List.forall_mem_cons]
      simp only [true_and]
    · rw [ht, List.cons_append, List.cons_append, beginsWithS_cons hblank, List.forall_mem_cons]
      simp only [hs, hS, hblank, or_self, false_and]

theorem Layout.text_eq {l : Layout} {gap : List Trivia} {t : Token}
    {items : List (List Trivia × Token)} (h : l.items = (gap, t) :: items) :
    ∃ rest, l.text = triviaText gap ++ (t.head :: rest) := by
  refine ⟨t.tail ++ itemsText items ++ (triviaText l.behind ++
    (l.openComment.map fun t => '-' :: '-' :: t).getD []), ?_⟩
  simp [Layout.text, h, itemsText, Token.text]

/-- The gate sees a command that begins with S when the first token does and only blanks stand
in front of it. -/
theorem Layout.beginsWithS_iff {l : Layout} {gap : List Trivia} {t : Token}
    {items : List (List Trivia × Token)} (h : l.items = (gap, t) :: items) :
    BeginsWithS l.text ↔ (∀ c ∈ triviaText gap, c = ' ') ∧ (t.head = 's' ∨ t.head = 'S') := by
  obtain ⟨rest, htext⟩ := Layout.text_eq h
  rw [htext, beginsWithS_trivia_append, beginsWithS_cons t.head_ne_blank]

theorem Layout.words_ne_nil {l : Layout} (h : l.items ≠ []) : words l.text ≠ [] := by
  obtain ⟨⟨gap, t⟩, items, hitems⟩ := List.exists_cons_of_ne_nil h
  obtain ⟨rest, htext⟩ := Layout.text_eq hitems
  rw [Ne, words_eq_nil_iff, htext]
  intro hblank
  exact t.head_ne_blank (hblank t.head (by simp))

/-- Nothing but blanks stands around the tokens. -/
def Layout.OnlyBlanks (l : Layout) : Prop :=
  (∀ i ∈ l.items, ∀ c ∈ triviaText i.1, c = ' ') ∧ (∀ c ∈ triviaText l.behind, c = ' ') ∧
    l.openComment = none

theorem upperCase_append (a b : Text) : upperCase (a ++ b) = upperCase a ++ upperCase b :=
  List.map_append

theorem blanks_upperCase {b : Text} (hb : ∀ c ∈ b, c = ' ') : ∀ c ∈ upperCase b, c = ' ' := by
  intro c hc
  obtain ⟨d, hd, rfl⟩ := List.mem_map.mp hc
  rw [hb d hd]
  rfl

theorem triviaText_ne_nil {gap : List Trivia} (h : gap ≠ []) : triviaText gap ≠ [] := by
  obtain ⟨t, gap, rfl⟩ := List.exists_cons_of_ne_nil h
  rw [triviaText, List.flatMap_cons]
  rcases t.text_cases with ht | ⟨c, cs, ht, -⟩
  · rw [ht]
    exact List.cons_ne_nil _ _
  · rw [ht]
    exact List.cons_ne_nil _ _

theorem itemsText_cons (gap : List Trivia) (t : Token) (items : List (List Trivia × Token)) :
    itemsText ((gap, t) :: items) = triviaText gap ++ (t.text ++ itemsText items) := by
  simp [itemsText]

/-- A gap of blanks separates the words around it, no matter how long it is. -/
theorem words_gap_append {gap gap' : List Trivia} (hgap : ∀ c ∈ triviaText gap, c = ' ')
    (hgap' : ∀ c ∈ triviaText gap', c = ' ') (hsame : gap = [] ↔ gap' = []) {a b : Text}
    (h : ∀ p, words (p ++ a) = words (p ++ b)) (p : Text) :
    words (p ++ (upperCase (triviaText gap) ++ a)) =
      words (p ++ (upperCase (triviaText gap') ++ b)) := by
  by_cases hnil : gap = []
  · rw [hnil, hsame.mp hnil]
    exact h p
  · have hne : upperCase (triviaText gap) ≠ [] := by
      simpa [upperCase] using triviaText_ne_nil hnil
    have hne' : upperCase (triviaText gap') ≠ [] := by
      simpa [upperCase] using triviaText_ne_nil fun h' => hnil (hsame.mpr h')
    rw [words_append_blanks (blanks_upperCase hgap) hne,
      words_append_blanks (blanks_upperCase hgap') hne', ← List.nil_append a, h [],
      List.nil_append]

/-- Behind any text, items that differ in case and in the number of blanks add the same words. -/
theorem words_items_append {items items' : List (List Trivia × Token)}
    (hsame : SameRest items items') (hitems : ∀ i ∈ items, ∀ c ∈ triviaText i.1, c = ' ')
    (hitems' : ∀ i ∈ items', ∀ c ∈ triviaText i.1, c = ' ') {e e' : Text}
    (he : ∀ c ∈ e, c = ' ') (he' : ∀ c ∈ e', c = ' ') (p : Text) :
    words (p ++ (upperCase (itemsText items) ++ e)) =
      words (p ++ (upperCase (itemsText items') ++ e')) := by
  induction hsame generalizing p with
  | nil =>
    have hnone : upperCase (itemsText []) = [] := rfl
    rw [hnone, List.nil_append, List.nil_append, words_append_blanks_end he,
      words_append_blanks_end he']
  | @cons i j is js hij hrest ih =>
    obtain ⟨gap, t⟩ := i
    obtain ⟨gap', u⟩ := j
    obtain ⟨hgap, htok⟩ := hij
    rw [List.forall_mem_cons] at hitems hitems'
    simp only [itemsText_cons, upperCase_append, List.append_assoc]
    refine words_gap_append hitems.1 hitems'.1 hgap (fun p => ?_) p
    rw [htok.upperCase_eq, ← List.append_assoc, ← List.append_assoc p]
    exact ih hitems.2 hitems'.2 _

/-- With blanks only the gate's words depend on the tokens alone. -/
theorem parse_eq_of_onlyBlanks {l l' : Layout} (hsame : SameTokens l l') (hl : l.OnlyBlanks)
    (hl' : l'.OnlyBlanks) : parse l.text = parse l'.text := by
  obtain ⟨hitems, hbehind, hopen⟩ := hl
  obtain ⟨hitems', hbehind', hopen'⟩ := hl'
  rw [parse_eq_words, parse_eq_words]
  unfold SameTokens at hsame
  simp only [Layout.text, hopen, hopen', Option.map_none, Option.getD_none, List.append_nil,
    upperCase_append]
  rcases hil : l.items with _ | ⟨⟨gap, t⟩, is⟩ <;> rcases hjl : l'.items with _ | ⟨⟨gap', u⟩, js⟩ <;>
    simp only [hil, hjl] at hsame hitems hitems'
  · exact words_items_append List.Forall₂.nil hitems hitems' (blanks_upperCase hbehind)
      (blanks_upperCase hbehind') []
  · rw [List.forall_mem_cons] at hitems hitems'
    -- In front of the first token no word has begun.
    simp only [itemsText_cons, upperCase_append, List.append_assoc]
    rw [words_blanks_append (blanks_upperCase hitems.1),
      words_blanks_append (blanks_upperCase hitems'.1), hsame.1.upperCase_eq]
    exact words_items_append hsame.2 hitems.2 hitems'.2 (blanks_upperCase hbehind)
      (blanks_upperCase hbehind') _

/-- Every query with the same tokens gives the same request. -/
def LayoutIndependent (dbname : Text) (l : Layout) : Prop :=
  ∀ l' stale stale', SameTokens l l' →
    deriveRequest stale dbname l.text = deriveRequest stale' dbname l'.text

theorem get_ne_nil : "Get".toList ≠ [] := by decide

/-- A query without tokens may be sent as an empty string, and the gate then reads a word that
was never stored. -/
theorem not_layoutIndependent_of_nil (dbname : Text) {l : Layout} (h : l.items = []) :
    ¬LayoutIndependent dbname l := by
  intro hind
  have hsame : SameTokens l ⟨[], [], none⟩ := by simp [SameTokens, h]
  have hS := hind ⟨[], [], none⟩ ' ' 'S' hsame
  have hblank := hind ⟨[], [], none⟩ ' ' ' ' hsame
  exact get_ne_nil (congrArg Prod.fst (hS.symm.trans hblank))

def lineFeed : Trivia := .space '\n' rfl

/-- A line feed in front hides an S from the gate. -/
theorem not_layoutIndependent_of_S (dbname : Text) {l : Layout} {gap : List Trivia} {t : Token}
    {items : List (List Trivia × Token)} (h : l.items = (gap, t) :: items)
    (hS : t.head = 's' ∨ t.head = 'S') : ¬LayoutIndependent dbname l := by
  intro hind
  let bare : Layout := { l with items := ([], t) :: items }
  let fed : Layout := { l with items := ([lineFeed], t) :: items }
  have hsame (g : List Trivia) : SameTokens l { l with items := (g, t) :: items } := by
    simp only [SameTokens, h]
    exact ⟨t.same_refl, sameRest_refl items⟩
  have hbare : BeginsWithS bare.text :=
    (Layout.beginsWithS_iff rfl).mpr ⟨by simp [triviaText], hS⟩
  have hfed : ¬BeginsWithS fed.text := by
    intro hcontra
    have hblank := ((Layout.beginsWithS_iff rfl).mp hcontra).1 '\n' (List.mem_singleton.mpr rfl)
    exact absurd hblank (by decide)
  have heq := (hind bare ' ' ' ' (hsame [])).symm.trans (hind fed ' ' ' ' (hsame [lineFeed]))
  rw [deriveRequest_of_beginsWithS hbare, deriveRequest_of_not_beginsWithS
    (Layout.words_ne_nil (List.cons_ne_nil _ _)) hfed] at heq
  exact get_ne_nil (congrArg Prod.fst heq)

theorem layoutIndependent_of_not_S (dbname : Text) {l : Layout} {gap : List Trivia} {t : Token}
    {items : List (List Trivia × Token)} (h : l.items = (gap, t) :: items)
    (hS : ¬(t.head = 's' ∨ t.head = 'S')) : LayoutIndependent dbname l := by
  intro l' stale stale' hsame
  rw [SameTokens, h] at hsame
  rcases h' : l'.items with _ | ⟨⟨gap', u⟩, items'⟩
  · rw [h'] at hsame
    exact hsame.elim
  · rw [h'] at hsame
    have hu : ¬(u.head = 's' ∨ u.head = 'S') := by
      rwa [← toUpper_eq_S, ← hsame.1.toUpper_head, toUpper_eq_S]
    rw [deriveRequest_of_not_beginsWithS (Layout.words_ne_nil (by simp [h]))
        fun hl => hS ((Layout.beginsWithS_iff h).mp hl).2,
      deriveRequest_of_not_beginsWithS (Layout.words_ne_nil (by simp [h']))
        fun hl => hu ((Layout.beginsWithS_iff h').mp hl).2]

/-- The first, second and fourth words of two texts name the same request. -/
def SameRequest (q s : Text) : Prop :=
  words q ≠ [] ∧ words s ≠ [] ∧ (BeginsWithS q ↔ BeginsWithS s) ∧
    (BeginsWithS q → tableColumn (words q) = tableColumn (words s))

/-- For a text without words the gate's answer changes with the word that was never stored. -/
theorem words_ne_nil_of_deriveRequest_eq {dbname q : Text} {request : Text × Text}
    (h : ∀ stale, deriveRequest stale dbname q = request) : words q ≠ [] := by
  intro hq
  have hparse : parse q = [] := by rw [parse_eq, hq, List.map_nil]
  have hS : (deriveRequest 'S' dbname q).1 = (deriveRequest ' ' dbname q).1 := by
    rw [h 'S', h ' ']
  have haction (stale : Char) : command stale q = stale := by
    rw [command, verb, hparse]
    rfl
  rw [deriveRequest, deriveRequest, haction, haction, if_pos rfl, if_neg (by decide)] at hS
  exact get_ne_nil hS

theorem deriveRequest_eq_iff_sameRequest (dbname q s : Text) :
    (∀ stale stale', deriveRequest stale dbname q = deriveRequest stale' dbname s) ↔
      SameRequest q s := by
  constructor
  · intro h
    have hq : words q ≠ [] := words_ne_nil_of_deriveRequest_eq fun stale => h stale ' '
    have hs : words s ≠ [] := words_ne_nil_of_deriveRequest_eq fun stale => (h ' ' stale).symm
    exact ⟨hq, hs, (deriveRequest_eq_iff hq hs ' ' ' ' dbname).mp (h ' ' ' ')⟩
  · rintro ⟨hq, hs, h⟩ stale stale'
    exact (deriveRequest_eq_iff hq hs stale stale' dbname).mpr h

/-- Every layout of a query gives the same request exactly when its first token does not begin
with S. A pair of layouts does exactly when both have a word, both or neither begin with S behind
blanks and, if they do, their fourth and second words spell the same; so do layouts of a query
with blanks only. -/
theorem layoutIndependent_iff (dbname : Text) (l : Layout) :
    (LayoutIndependent dbname l ↔
        ∃ gap t items, l.items = (gap, t) :: items ∧ ¬(t.head = 's' ∨ t.head = 'S')) ∧
      ∀ l', SameTokens l l' →
        ((∀ stale stale', deriveRequest stale dbname l.text = deriveRequest stale' dbname l'.text) ↔
            SameRequest l.text l'.text) ∧
          (l.items ≠ [] → l.OnlyBlanks → l'.OnlyBlanks → SameRequest l.text l'.text) := by
  refine ⟨⟨fun hind => ?_, fun ⟨gap, t, items, h, hS⟩ => layoutIndependent_of_not_S dbname h hS⟩,
    fun l' hsame => ⟨deriveRequest_eq_iff_sameRequest dbname l.text l'.text, fun hne hl hl' => ?_⟩⟩
  · rcases h : l.items with _ | ⟨⟨gap, t⟩, items⟩
    · exact (not_layoutIndependent_of_nil dbname h hind).elim
    · exact ⟨gap, t, items, rfl, fun hS => not_layoutIndependent_of_S dbname h hS hind⟩
  · rw [← deriveRequest_eq_iff_sameRequest dbname]
    exact fun stale stale' => deriveRequest_eq_of_parse_eq (Layout.words_ne_nil hne)
      (parse_eq_of_onlyBlanks hsame hl hl') stale stale' dbname

def blank : Trivia := .space ' ' rfl

def selectToken : Token := ⟨'S', ['E', 'L', 'E', 'C', 'T'], true, rfl, rfl, fun _ => ⟨rfl, rfl⟩⟩

def fromToken : Token := ⟨'F', ['R', 'O', 'M'], true, rfl, rfl, fun _ => ⟨rfl, rfl⟩⟩

theorem upperCase_selectToken : upperCase selectToken.text = ['S', 'E', 'L', 'E', 'C', 'T'] := rfl

theorem upperCase_fromToken : upperCase fromToken.text = ['F', 'R', 'O', 'M'] := rfl

/-- Identifiers of one letter. -/
def letterToken (c : Char) (h : isSqlSpace c = false ∧ isIdentStart c = true) : Token :=
  ⟨c, [], true, h.1, by simp [opensComment], fun _ => ⟨h.2, rfl⟩⟩

theorem isLetter_a : isSqlSpace 'a' = false ∧ isIdentStart 'a' = true := ⟨rfl, rfl⟩

theorem isLetter_t : isSqlSpace 't' = false ∧ isIdentStart 't' = true := ⟨rfl, rfl⟩

theorem folded_t : (letterToken 't' isLetter_t).folded = true := rfl

def comma : Token := ⟨',', [], false, rfl, rfl, fun h => nomatch h⟩

/-- The query `SELECT a FROM t` with the given text in front. -/
def selectLayout (gap : List Trivia) : Layout where
  items := [(gap, selectToken), ([blank], letterToken 'a' isLetter_a), ([blank], fromToken),
    ([blank], letterToken 't' isLetter_t)]
  behind := []
  openComment := none

/-- Behind a line feed the query asks for nothing on the whole database. -/
theorem lineFeed_changes_request :
    SameTokens (selectLayout []) (selectLayout [lineFeed]) ∧
      deriveRequest ' ' "lms".toList (selectLayout []).text =
        ("Get".toList, "/UOA_CANVAS_LMS/lms/T/A".toList) ∧
      deriveRequest ' ' "lms".toList (selectLayout [lineFeed]).text =
        ([], "/UOA_CANVAS_LMS/lms".toList) := by
  refine ⟨⟨selectToken.same_refl, sameRest_refl _⟩, ?_⟩
  decide +kernel

/-- One SELECT over one table: the keyword, the tokens of the target list, FROM, the unquoted
name of the table and the tokens of the clauses behind it. -/
structure SelectQuery where
  before : List Trivia
  select : Token
  isSelect : upperCase select.text = ['S', 'E', 'L', 'E', 'C', 'T']
  targets : List (List Trivia × Token)
  beforeFrom : List Trivia
  fromKeyword : Token
  isFrom : upperCase fromKeyword.text = ['F', 'R', 'O', 'M']
  beforeTable : List Trivia
  table : Token
  unquoted : table.folded = true
  clauses : List (List Trivia × Token)
  behind : List Trivia
  openComment : Option Text

def SelectQuery.layout (s : SelectQuery) : Layout where
  items := (s.before, s.select) :: (s.targets ++
    (s.beforeFrom, s.fromKeyword) :: (s.beforeTable, s.table) :: s.clauses)
  behind := s.behind
  openComment := s.openComment

theorem head_of_upperCase {t : Token} {cs : Text} (h : upperCase t.text = 'S' :: cs) :
    t.head = 's' ∨ t.head = 'S' := by
  simp only [upperCase, Token.text, List.map_cons, List.cons.injEq] at h
  exact (toUpper_eq_S _).mp h.1

theorem SelectQuery.beginsWithS_iff (s : SelectQuery) :
    BeginsWithS s.layout.text ↔ ∀ c ∈ triviaText s.before, c = ' ' := by
  rw [Layout.beginsWithS_iff rfl, and_iff_left (head_of_upperCase s.isSelect)]

/-- An identifier consists of letters, digits, underscores and dollar signs. -/
theorem notMem_of_folded {t : Token} (h : t.folded = true) {c : Char} (hc : isIdentCont c = false) :
    c ∉ t.text := by
  intro hmem
  obtain ⟨hhead, htail⟩ := t.identifier h
  rcases List.mem_cons.mp hmem with rfl | hmem
  · simp [isIdentCont, hhead] at hc
  · rw [List.all_eq_true.mp htail c hmem] at hc
    cases hc

theorem slash_notMem_of_folded {t : Token} (h : t.folded = true) : '/' ∉ upperCase t.text := by
  intro hmem
  obtain ⟨c, hc, hslash⟩ := List.mem_map.mp hmem
  obtain rfl := (toUpper_eq_iff (by decide) c).mp hslash
  exact notMem_of_folded h rfl hc

/-- The table of the uri is what stands in front of the first slash. -/
theorem exists_segment_iff {t : Text} (ht : '/' ∉ t) (a b : Text) :
    (∃ x, a ++ '/' :: b = t ++ '/' :: x) ↔ a.takeWhile (fun c => decide (c ≠ '/')) = t := by
  have hfirst (u v : Text) : (u ++ '/' :: v).takeWhile (fun c => decide (c ≠ '/')) =
      u.takeWhile fun c => decide (c ≠ '/') := by
    induction u with
    | nil => simp
    | cons c u ih =>
      rw [List.cons_append, List.takeWhile_cons, List.takeWhile_cons, ih]
  constructor
  · rintro ⟨x, h⟩
    rw [← hfirst a b, h, hfirst, List.takeWhile_eq_self_iff]
    intro c hc
    exact decide_eq_true fun hslash => ht (hslash ▸ hc)
  · intro h
    have hsplit := List.takeWhile_append_dropWhile (p := fun c => decide (c ≠ '/')) (l := a)
    rw [h] at hsplit
    cases hrest : a.dropWhile fun c => decide (c ≠ '/') with
    | nil =>
      rw [hrest, List.append_nil] at hsplit
      exact ⟨b, by rw [hsplit]⟩
    | cons d rest =>
      have hd := List.head_dropWhile_not (fun c => decide (c ≠ '/'))
        (hrest ▸ List.cons_ne_nil d rest)
      simp only [hrest, List.head_cons, decide_eq_false_iff_not, not_not] at hd
      subst hd
      rw [hrest] at hsplit
      exact ⟨rest ++ '/' :: b, by rw [← hsplit, List.append_assoc, List.cons_append]⟩

/-- The uri names the table exactly when nothing but blanks stands in front of SELECT and the
fourth word, without a semicolon at its end and up to its first slash, is the table. The arrays and
buffers of the gate are taken to be long enough for the query. -/
theorem table_named_iff (stale : Char) (dbname : Text) (s : SelectQuery) :
    (∃ x, (deriveRequest stale dbname s.layout.text).2 =
        baseUri dbname ++ '/' :: (upperCase s.table.text ++ '/' :: x)) ↔
      (∀ c ∈ triviaText s.before, c = ' ') ∧ ∃ w, (words s.layout.text)[3]? = some w ∧
        (upperCase (stripSemicolon w)).takeWhile (fun c => decide (c ≠ '/')) =
          upperCase s.table.text := by
  rw [← s.beginsWithS_iff]
  have hwords : words s.layout.text ≠ [] := Layout.words_ne_nil (List.cons_ne_nil _ _)
  by_cases hS : BeginsWithS s.layout.text
  · rw [deriveRequest_of_beginsWithS hS]
    simp only [hS, true_and, List.append_cancel_left_eq]
    rcases tableColumn_cases (words s.layout.text) with ⟨hshort, hnone⟩ | ⟨w₁, w₂, w₃, w₄, ws, hws, hsome⟩
    · have hfourth : (words s.layout.text)[3]? = none := List.getElem?_eq_none (by omega)
      simp [hnone, hfourth]
    · rw [hsome, hws]
      simp only [Option.map_some, Option.getD_some, List.cons.injEq, true_and,
        List.getElem?_cons_succ, List.getElem?_cons_zero, Option.some.injEq, exists_eq_left']
      exact exists_segment_iff (slash_notMem_of_folded s.unquoted) _ _
  · rw [deriveRequest_of_not_beginsWithS hwords hS]
    simp [hS]

/-- The blank behind the comma moves FROM to the place of the table. -/
def selectTwo : SelectQuery where
  before := []
  select := selectToken
  isSelect := upperCase_selectToken
  targets := [([blank], letterToken 'a' isLetter_a), ([], comma),
    ([blank], letterToken 'b' ⟨rfl, rfl⟩)]
  beforeFrom := [blank]
  fromKeyword := fromToken
  isFrom := upperCase_fromToken
  beforeTable := [blank]
  table := letterToken 't' isLetter_t
  unquoted := folded_t
  clauses := []
  behind := []
  openComment := none

theorem selectTwo_names_from :
    selectTwo.layout.text = "SELECT a, b FROM t".toList ∧
      deriveRequest ' ' "lms".toList selectTwo.layout.text =
        ("Get".toList, "/UOA_CANVAS_LMS/lms/FROM/A,".toList) ∧
      ¬∃ x, (deriveRequest ' ' "lms".toList selectTwo.layout.text).2 =
        baseUri "lms".toList ++ '/' :: (upperCase selectTwo.table.text ++ '/' :: x) := by
  have hrun : selectTwo.layout.text = "SELECT a, b FROM t".toList ∧
      deriveRequest ' ' "lms".toList selectTwo.layout.text =
        ("Get".toList, "/UOA_CANVAS_LMS/lms/FROM/A,".toList) ∧
      ¬(baseUri "lms".toList ++ ['/', 'T', '/'] <+:
        (deriveRequest ' ' "lms".toList selectTwo.layout.text).2) := by decide +kernel
  refine ⟨hrun.1, hrun.2.1, ?_⟩
  rintro ⟨x, hx⟩
  refine hrun.2.2 ⟨x, ?_⟩
  rw [hx, List.append_assoc]
  rfl

/-- The first word between white space of any kind, empty if there is none. -/
def firstWord (q : Text) : Text := (q.dropWhile isSqlSpace).takeWhile fun c => !isSqlSpace c

theorem words_ne_nil_of_firstWord {q : Text} (h : firstWord q ≠ []) : words q ≠ [] := by
  intro hq
  have hblank := words_eq_nil_iff.mp hq
  have hnone : q.dropWhile isSqlSpace = [] := by
    rw [List.dropWhile_eq_nil_iff]
    intro c hc
    rw [hblank c hc]
    rfl
  exact h (by rw [firstWord, hnone, List.takeWhile_nil])

theorem get_ne_upperCase (w : Text) : "Get".toList ≠ upperCase w := by
  intro h
  have hlower : 'e' ∈ upperCase w := by
    rw [← h]
    decide
  obtain ⟨c, -, hc⟩ := List.mem_map.mp hlower
  have hupper := toNat_toUpper c
  have he : 'e'.toNat = 101 := rfl
  rw [hc] at hupper
  split_ifs at hupper <;> omega

/-- The action is Get or empty. -/
theorem action_ne_upperCase {w : Text} (hw : w ≠ []) (stale : Char) (dbname q : Text) :
    (deriveRequest stale dbname q).1 ≠ upperCase w := by
  rw [deriveRequest]
  split_ifs
  · exact get_ne_upperCase w
  · intro h
    exact hw (List.map_eq_nil_iff.mp h.symm)

/-- The requests differ and some policy permits the first and denies the second. -/
def ToldApart (username dbname : Text) (stale stale' : Char) (q s : Text) : Prop :=
  deriveRequest stale dbname q ≠ deriveRequest stale' dbname s ∧
    ∃ policy, permits policy username dbname stale q = true ∧
      permits policy username dbname stale' s = false

theorem toldApart_iff_ne (username dbname : Text) (stale stale' : Char) (q s : Text) :
    ToldApart username dbname stale stale' q s ↔
      deriveRequest stale dbname q ≠ deriveRequest stale' dbname s := by
  rw [ToldApart, and_iff_left_iff_imp, Ne, ← permits_imp_iff username, not_forall]
  rintro ⟨policy, h⟩
  rw [Classical.not_imp, Bool.not_eq_true] at h
  exact ⟨policy, h⟩

/-- The action is never the verb. Whatever their verbs are, two queries are told apart exactly
when one of them begins with S and the other does not, or both do and the fourth and second
words, in capital letters, spell different tables and columns. The arrays and buffers of the gate are
taken to be long enough for both. -/
theorem toldApart_iff (username dbname : Text) (stale stale' : Char) {q s : Text}
    (hq : firstWord q ≠ []) (hs : firstWord s ≠ []) :
    (deriveRequest stale dbname q).1 ≠ upperCase (firstWord q) ∧
      (ToldApart username dbname stale stale' q s ↔
        ¬(BeginsWithS q ↔ BeginsWithS s) ∨
          (BeginsWithS q ∧ BeginsWithS s ∧ tableColumn (words q) ≠ tableColumn (words s))) := by
  refine ⟨action_ne_upperCase hq stale dbname q, ?_⟩
  rw [toldApart_iff_ne, Ne,
    deriveRequest_eq_iff (words_ne_nil_of_firstWord hq) (words_ne_nil_of_firstWord hs)]
  by_cases hSq : BeginsWithS q <;> by_cases hSs : BeginsWithS s <;> simp [hSq, hSs]

/-- SELECT and DELETE are told apart. -/
theorem toldApart_select_delete :
    ToldApart "user".toList "lms".toList ' ' ' ' "SELECT 1".toList "DELETE FROM t".toList := by
  have hwords : firstWord "SELECT 1".toList ≠ [] ∧ firstWord "DELETE FROM t".toList ≠ [] ∧
      ¬(BeginsWithS "SELECT 1".toList ↔ BeginsWithS "DELETE FROM t".toList) := by
    decide +kernel
  exact (toldApart_iff _ _ _ _ hwords.1 hwords.2.1).2.mpr (Or.inl hwords.2.2)

/-- INSERT and DROP give one request, SELECT and SHOW another. -/
theorem verbs_confused :
    deriveRequest ' ' "lms".toList "INSERT INTO t DEFAULT VALUES".toList =
        ([], "/UOA_CANVAS_LMS/lms".toList) ∧
      deriveRequest ' ' "lms".toList "DROP TABLE t".toList =
        ([], "/UOA_CANVAS_LMS/lms".toList) ∧
      deriveRequest ' ' "lms".toList "SELECT 1".toList =
        ("Get".toList, "/UOA_CANVAS_LMS/lms".toList) ∧
      deriveRequest ' ' "lms".toList "SHOW ALL".toList =
        ("Get".toList, "/UOA_CANVAS_LMS/lms".toList) := by
  decide +kernel

end AbacMiddleLayer.Gate
