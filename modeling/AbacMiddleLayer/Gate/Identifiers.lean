import AbacMiddleLayer.Gate.Layout

/-! # The tables and columns that queries denote

PostgreSQL folds unquoted identifiers to small letters and takes quoted ones as they are.
The gate joins the name of the database and two words of the query by slashes. Here the
two are compared, for queries that read one column of one table and for queries that
compute an expression. Texts are bytes, and databases have the encoding UTF8.
-/
namespace AbacMiddleLayer.Gate
open Words

/-- The length of the character that a byte begins, as `pg_utf_mblen` gives it. -/
def mblen (byte : Char) : ℕ :=
  if byte.toNat < 128 then 1
  else if byte.toNat / 32 = 6 then 2
  else if byte.toNat / 16 = 14 then 3
  else if byte.toNat / 8 = 30 then 4
  else 1

/-- The whole characters that fit, as `pg_mbcliplen` finds them. Of the character under way
`pending` bytes are still to come. -/
def mbclip : (room pending : ℕ) → Text → Text
  | _, _, [] => []
  | room, pending + 1, c :: cs => c :: mbclip room pending cs
  | room, 0, c :: cs =>
    if mblen c ≤ room then c :: mbclip (room - mblen c) (mblen c - 1) cs else []

/-- Names are cut to `NAMEDATALEN - 1` bytes. -/
def truncateIdentifier (name : Text) : Text := mbclip 63 0 name

/-- What stands behind an opening quote, if the text ends with the closing one. -/
def closeQuote : Text → Option Text
  | [] => none
  | ['"'] => some []
  | '"' :: '"' :: cs => (closeQuote cs).map ('"' :: ·)
  | '"' :: _ :: _ => none
  | c :: cs => (closeQuote cs).map (c :: ·)

inductive Identifier where
  | unquoted (t : Token) (folded : t.folded = true)
  | quoted (t : Token) (content : Text) (opens : t.head = '"')
      (closes : closeQuote t.tail = some content) (nonempty : content ≠ [])

def Identifier.token : Identifier → Token
  | .unquoted t _ => t
  | .quoted t _ _ _ _ => t

/-- The name that PostgreSQL looks up. -/
def Identifier.name : Identifier → Text
  | .unquoted t _ => truncateIdentifier (t.text.map Char.toLower)
  | .quoted _ content _ _ _ => truncateIdentifier content

def semicolon : Token := ⟨';', [], false, rfl, rfl, fun h => nomatch h⟩

/-- A query that reads one column of one table, with or without a semicolon at the end. -/
structure ColumnQuery where
  before : List Trivia
  select : Token
  isSelect : upperCase select.text = ['S', 'E', 'L', 'E', 'C', 'T']
  beforeColumn : List Trivia
  column : Identifier
  beforeFrom : List Trivia
  fromKeyword : Token
  isFrom : upperCase fromKeyword.text = ['F', 'R', 'O', 'M']
  beforeTable : List Trivia
  table : Identifier
  beforeSemicolon : Option (List Trivia)
  behind : List Trivia
  openComment : Option Text

def ColumnQuery.layout (c : ColumnQuery) : Layout where
  items := (c.before, c.select) :: (c.beforeColumn, c.column.token) ::
    (c.beforeFrom, c.fromKeyword) :: (c.beforeTable, c.table.token) ::
    (c.beforeSemicolon.map fun gap => (gap, semicolon)).toList
  behind := c.behind
  openComment := c.openComment

/-- A query that computes an expression and reads no table. -/
structure ExpressionQuery where
  before : List Trivia
  select : Token
  isSelect : upperCase select.text = ['S', 'E', 'L', 'E', 'C', 'T']
  expression : List (List Trivia × Token)
  noFrom : ∀ i ∈ expression, i.2.folded = true → upperCase i.2.text ≠ ['F', 'R', 'O', 'M']
  behind : List Trivia
  openComment : Option Text

def ExpressionQuery.layout (e : ExpressionQuery) : Layout where
  items := (e.before, e.select) :: e.expression
  behind := e.behind
  openComment := e.openComment

inductive Query where
  | column (c : ColumnQuery)
  | expression (e : ExpressionQuery)

def Query.text : Query → Text
  | .column c => c.layout.text
  | .expression e => e.layout.text

/-- Table and column, if the query reads any. -/
def Query.denotes : Query → Option (Text × Text)
  | .column c => some (c.table.name, c.column.name)
  | .expression _ => none

/-- If two queries on two databases get one uri, the databases are one and the queries denote
the same table and column. -/
def Resolved (stale stale' : Char) (d₁ : Text) (q₁ : Query) (d₂ : Text) (q₂ : Query) : Prop :=
  (deriveRequest stale d₁ q₁.text).2 = (deriveRequest stale' d₂ q₂.text).2 →
    d₁ = d₂ ∧ q₁.denotes = q₂.denotes

/-- Table and column as the gate takes them from the words, each behind a slash. -/
def spelled (q : Text) : Text :=
  if BeginsWithS q then ((tableColumn (words q)).map ('/' :: ·)).getD [] else []

theorem uri_eq_spelled {q : Text} (hq : words q ≠ []) (stale : Char) (dbname : Text) :
    (deriveRequest stale dbname q).2 = baseUri dbname ++ spelled q := by
  by_cases hS : BeginsWithS q
  · rw [deriveRequest_of_beginsWithS hS, spelled, if_pos hS]
  · rw [deriveRequest_of_not_beginsWithS hq hS, spelled, if_neg hS, List.append_nil]

theorem Query.words_ne_nil (q : Query) : words q.text ≠ [] := by
  cases q with
  | column c => exact Layout.words_ne_nil (List.cons_ne_nil _ _)
  | expression e => exact Layout.words_ne_nil (List.cons_ne_nil _ _)

theorem baseUri_append_inj {d₁ d₂ s₁ s₂ : Text} :
    baseUri d₁ ++ s₁ = baseUri d₂ ++ s₂ ↔ d₁ ++ s₁ = d₂ ++ s₂ := by
  unfold baseUri
  rw [List.append_assoc, List.append_assoc, List.append_cancel_left_eq]

theorem uri_eq_iff (stale stale' : Char) (d₁ d₂ : Text) (q₁ q₂ : Query) :
    (deriveRequest stale d₁ q₁.text).2 = (deriveRequest stale' d₂ q₂.text).2 ↔
      d₁ ++ spelled q₁.text = d₂ ++ spelled q₂.text := by
  rw [uri_eq_spelled q₁.words_ne_nil, uri_eq_spelled q₂.words_ne_nil, baseUri_append_inj]

def delimiter (tag : Text) : Text := '$' :: (tag ++ ['$'])

/-- A dollar-quoted constant: its delimiter does not occur in front of its end. -/
structure DollarQuoted where
  tag : Text
  body : Text
  isTag : tag.all isIdentStart = true
  fresh : ¬delimiter tag <:+: body ++ '$' :: tag

def DollarQuoted.token (k : DollarQuoted) : Token where
  head := '$'
  tail := k.tag ++ '$' :: (k.body ++ delimiter k.tag)
  folded := false
  notSpace := rfl
  notComment := by simp [opensComment]
  identifier := fun h => nomatch h

/-- The constant on a line of its own. -/
def constantQuery (k : DollarQuoted) : ExpressionQuery where
  before := []
  select := selectToken
  isSelect := upperCase_selectToken
  expression := [([lineFeed], k.token)]
  noFrom := by simp [DollarQuoted.token]
  behind := []
  openComment := none

theorem constantQuery_text (k : DollarQuoted) :
    (constantQuery k).layout.text = ['S', 'E', 'L', 'E', 'C', 'T', '\n'] ++
      (delimiter k.tag ++ (k.body ++ delimiter k.tag)) := by
  simp [constantQuery, ExpressionQuery.layout, Layout.text, itemsText, triviaText, lineFeed,
    Trivia.text, selectToken, Token.text, DollarQuoted.token, delimiter]

/-- A tag that is as long as the body is fresh: between two dollar signs there is no room for it. -/
theorem fresh_replicate {body : Text} {n : ℕ} (hn : body.length ≤ n) :
    ¬delimiter (List.replicate n 'a') <:+: body ++ '$' :: List.replicate n 'a' := by
  rintro ⟨front, back, h⟩
  have hdollar : (body ++ '$' :: List.replicate n 'a')[front.length + (n + 1)]? = some '$' := by
    rw [← h, List.append_assoc, List.getElem?_append_right (by omega), Nat.add_sub_cancel_left]
    simp [delimiter]
  have hindex : front.length + (n + 1) - body.length = (front.length + n - body.length) + 1 := by
    omega
  rw [List.getElem?_append_right (by omega), hindex, List.getElem?_cons_succ,
    List.getElem?_replicate] at hdollar
  split_ifs at hdollar
  simp at hdollar

/-- A text whose words are the given ones, with an `x` between them. -/
def spell (column table : Text) : Text := ' ' :: (column ++ ' ' :: 'x' :: ' ' :: table)

theorem words_spell {p column table : Text} (hp : p ≠ [] ∧ ' ' ∉ p)
    (hcolumn : column ≠ [] ∧ ' ' ∉ column) (htable : table ≠ [] ∧ ' ' ∉ table) (rest : Text) :
    words (p ++ (spell column table ++ ' ' :: rest)) = p :: column :: ['x'] :: table :: words rest := by
  have hspell : spell column table ++ ' ' :: rest =
      ' ' :: (column ++ ' ' :: (['x'] ++ ' ' :: (table ++ ' ' :: rest))) := by
    simp [spell]
  rw [hspell, words_append_blank hp.2 hp.1, words_append_blank hcolumn.2 hcolumn.1,
    words_append_blank (by simp) (by simp), words_append_blank htable.2 htable.1]

/-- What a query with the given words spells. -/
theorem spelled_of_words {q w₁ column w₃ table : Text} {ws : List Text} (hS : BeginsWithS q)
    (hwords : words q = w₁ :: column :: w₃ :: table :: ws) :
    spelled q = '/' :: (upperCase (stripSemicolon table) ++ '/' :: upperCase column) := by
  rw [spelled, if_pos hS, hwords]
  rfl

theorem spelled_of_notMem {q : Text} (hq : ' ' ∉ q) : spelled q = [] := by
  rw [spelled]
  split_ifs with hS
  · have hne : q ≠ [] := by
      rintro rfl
      exact hS.words_ne_nil rfl
    rw [words_of_notMem hq hne]
    rfl
  · rfl

/-- A constant whose words are the given ones. -/
def constantOf (column table : Text) : DollarQuoted :=
  let body := spell column table ++ [' ']
  { tag := List.replicate body.length 'a'
    body := body
    isTag := by
      rw [List.all_replicate]
      rfl
    fresh := fresh_replicate (le_refl _) }

theorem beginsWithS_constantQuery (k : DollarQuoted) :
    BeginsWithS (constantQuery k).layout.text := by
  rw [constantQuery_text]
  exact Or.inr rfl

theorem spelled_constantOf {column table : Text} (hcolumn : column ≠ [] ∧ ' ' ∉ column)
    (htable : table ≠ [] ∧ ' ' ∉ table) :
    spelled (constantQuery (constantOf column table)).layout.text =
      '/' :: (upperCase (stripSemicolon table) ++ '/' :: upperCase column) := by
  have hfirst : ['S', 'E', 'L', 'E', 'C', 'T', '\n'] ++ delimiter (constantOf column table).tag ≠ [] ∧
      ' ' ∉ ['S', 'E', 'L', 'E', 'C', 'T', '\n'] ++ delimiter (constantOf column table).tag := by
    simp [delimiter, constantOf]
  have hbody (rest : Text) :
      (constantOf column table).body ++ rest = spell column table ++ ' ' :: rest := by
    simp [constantOf]
  have hwords := words_spell hfirst hcolumn htable (delimiter (constantOf column table).tag)
  rw [← hbody, List.append_assoc, ← constantQuery_text] at hwords
  exact spelled_of_words (beginsWithS_constantQuery _) hwords

/-- The constant `$$$$`. -/
def emptyConstant : DollarQuoted where
  tag := []
  body := []
  isTag := rfl
  fresh := by
    intro h
    exact absurd h.length_le (by decide)

theorem spelled_emptyConstant : spelled (constantQuery emptyConstant).layout.text = [] := by
  apply spelled_of_notMem
  rw [constantQuery_text]
  simp [emptyConstant, delimiter]

theorem spelled_cases (q : Text) : spelled q = [] ∨ ∃ column ∈ words q, ∃ table ∈ words q,
    spelled q = '/' :: (upperCase (stripSemicolon table) ++ '/' :: upperCase column) := by
  rw [spelled]
  split_ifs
  · rcases tableColumn_cases (words q) with ⟨-, hnone⟩ | ⟨w₁, column, w₃, table, ws, hws, hsome⟩
    · exact Or.inl (by rw [hnone]; rfl)
    · exact Or.inr ⟨column, by simp [hws], table, by simp [hws], by rw [hsome]; rfl⟩
  · exact Or.inl rfl

/-- Whatever a query spells, some constant spells it too. -/
theorem exists_constant_spelled (q : Text) :
    ∃ k, spelled (constantQuery k).layout.text = spelled q := by
  rcases spelled_cases q with h | ⟨column, hcolumn, table, htable, h⟩
  · exact ⟨emptyConstant, by rw [h, spelled_emptyConstant]⟩
  · exact ⟨constantOf column table,
      by rw [h, spelled_constantOf (mem_words hcolumn) (mem_words htable)]⟩

/-- The beginnings of `n` nested comments. -/
def opened : ℕ → Text
  | 0 => []
  | n + 1 => '/' :: '*' :: opened n

/-- The ends of `n` nested comments. -/
def closed : ℕ → Text
  | 0 => []
  | n + 1 => '*' :: '/' :: closed n

theorem blockEnds_opened (depth n : ℕ) (t : Text) :
    blockEnds depth (opened n ++ t) = blockEnds (depth + n) t := by
  induction n generalizing depth with
  | zero => rfl
  | succ n ih =>
    have hstep : blockEnds depth (opened (n + 1) ++ t) = blockEnds (depth + 1) (opened n ++ t) := rfl
    rw [hstep, ih, Nat.add_right_comm, Nat.add_assoc]

theorem blockEnds_closed (n : ℕ) : blockEnds n (closed (n + 1)) = true := by
  induction n with
  | zero => rfl
  | succ n ih => exact ih

/-- In a comment that is deep enough every text with a blank behind it can stand. -/
theorem blockEnds_body {body : Text} {depth : ℕ} (h : body.length ≤ depth) :
    ∃ depth', ∀ rest, blockEnds depth (body ++ ' ' :: rest) = blockEnds depth' rest := by
  fun_induction blockEnds depth body with
  | case1 depth => exact ⟨depth, fun _ => rfl⟩
  | case2 cs => simp at h
  | case3 depth cs hdepth ih =>
    obtain ⟨depth', hrest⟩ := ih (by rw [List.length_cons, List.length_cons] at h; omega)
    refine ⟨depth', fun rest => ?_⟩
    rw [← hrest]
    simp [blockEnds, hdepth]
  | case4 depth cs ih =>
    obtain ⟨depth', hrest⟩ := ih (by rw [List.length_cons, List.length_cons] at h; omega)
    exact ⟨depth', fun rest => (hrest rest).symm ▸ rfl⟩
  | case5 depth c cs hclose hopen ih =>
    obtain ⟨depth', hrest⟩ := ih (by rw [List.length_cons] at h; omega)
    refine ⟨depth', fun rest => ?_⟩
    rw [List.cons_append, ← hrest, blockEnds]
    · intro ds hc hds
      cases cs with
      | nil => simp at hds
      | cons d cs => exact hclose cs hc (by simp_all)
    · intro ds hc hds
      cases cs with
      | nil => simp at hds
      | cons d cs => exact hopen cs hc (by simp_all)

/-- Every text can be written into a comment. -/
theorem exists_comment (body : Text) :
    ∃ n m, blockEnds 0 (opened n ++ (body ++ ' ' :: closed m)) = true := by
  obtain ⟨depth, h⟩ := blockEnds_body (le_refl body.length)
  refine ⟨body.length, depth + 1, ?_⟩
  rw [blockEnds_opened, Nat.zero_add, h, blockEnds_closed]

theorem blank_notMem_opened (n : ℕ) : ' ' ∉ opened n := by
  induction n with
  | zero => simp [opened]
  | succ n ih => simp [opened, ih]

/-- A query that reads a column, with the given gaps and without a semicolon. -/
def gappedQuery (beforeColumn beforeFrom beforeTable : List Trivia) (column table : Identifier) :
    ColumnQuery where
  before := []
  select := selectToken
  isSelect := upperCase_selectToken
  beforeColumn := beforeColumn
  column := column
  beforeFrom := beforeFrom
  fromKeyword := fromToken
  isFrom := upperCase_fromToken
  beforeTable := beforeTable
  table := table
  beforeSemicolon := none
  behind := []
  openComment := none

theorem folded_a : (letterToken 'a' isLetter_a).folded = true := rfl

def columnA : Identifier := .unquoted (letterToken 'a' isLetter_a) folded_a

def tableT : Identifier := .unquoted (letterToken 't' isLetter_t) folded_t

/-- Whatever a query spells, some query that reads a column spells it too, by a comment behind its
first keyword. -/
theorem exists_column_spelled (q : Text) :
    ∃ c : ColumnQuery, spelled c.layout.text = spelled q := by
  rcases spelled_cases q with h | ⟨column, hcolumn, table, htable, h⟩
  · refine ⟨gappedQuery [lineFeed] [lineFeed] [lineFeed] columnA tableT, ?_⟩
    rw [h]
    exact spelled_of_notMem (by decide +kernel)
  · obtain ⟨n, m, hcomment⟩ := exists_comment (spell column table)
    refine ⟨gappedQuery [.blockComment _ hcomment] [blank] [blank] columnA tableT, ?_⟩
    have htext :
        (gappedQuery [.blockComment _ hcomment] [blank] [blank] columnA tableT).layout.text =
        (['S', 'E', 'L', 'E', 'C', 'T', '/', '*'] ++ opened n) ++ (spell column table ++
          ' ' :: (closed m ++ ['a', ' ', 'F', 'R', 'O', 'M', ' ', 't'])) := by
      simp [gappedQuery, ColumnQuery.layout, Layout.text, itemsText, triviaText, Trivia.text, blank,
        selectToken, fromToken, letterToken, columnA, tableT, Identifier.token, Token.text]
    have hwords := words_spell (p := ['S', 'E', 'L', 'E', 'C', 'T', '/', '*'] ++ opened n)
      (by simp [blank_notMem_opened]) (mem_words hcolumn) (mem_words htable)
      (closed m ++ ['a', ' ', 'F', 'R', 'O', 'M', ' ', 't'])
    rw [h]
    refine spelled_of_words ?_ (htext ▸ hwords)
    exact htext ▸ Or.inr rfl

/-- No query is free of confusion: on the same database some constant gets the uri of a query that
reads a column, and some query that reads a column gets the uri of an expression. -/
theorem exists_confused (stale stale' : Char) (d : Text) (q : Query) :
    ∃ q', ¬Resolved stale stale' d q d q' := by
  cases q with
  | column c =>
    obtain ⟨k, hk⟩ := exists_constant_spelled c.layout.text
    refine ⟨.expression (constantQuery k), fun h => ?_⟩
    cases (h ((uri_eq_iff ..).mpr (congrArg (d ++ ·) hk.symm))).2
  | expression e =>
    obtain ⟨c, hc⟩ := exists_column_spelled e.layout.text
    refine ⟨.column c, fun h => ?_⟩
    cases (h ((uri_eq_iff ..).mpr (congrArg (d ++ ·) hc.symm))).2

/-- The query with single blanks. -/
def columnQuery (column table : Identifier) : ColumnQuery :=
  gappedQuery [blank] [blank] [blank] column table

def quotedLetter (c : Char) (h : c ≠ '"') : Identifier :=
  .quoted ⟨'"', [c, '"'], false, rfl, by simp [opensComment], fun h => nomatch h⟩ [c] rfl
    (by simp [closeQuote, h]) (List.cons_ne_nil _ _)

/-- Columns whose names differ in case are confused, and so are the column C of the table T of
the database a and the whole database a/T/C. -/
theorem case_and_slash_confused :
    ¬Resolved ' ' ' ' "lms".toList (.column (columnQuery (quotedLetter 'a' (by decide)) tableT))
        "lms".toList (.column (columnQuery (quotedLetter 'A' (by decide)) tableT)) ∧
      ¬Resolved ' ' ' ' "a".toList
        (.column (columnQuery (.unquoted (letterToken 'c' ⟨rfl, rfl⟩) rfl) tableT))
        "a/T/C".toList (.expression (constantQuery emptyConstant)) := by
  unfold Resolved
  decide +kernel

/-- Blanks between the tokens and no quotes. -/
def ColumnQuery.Plain (c : ColumnQuery) : Prop :=
  c.layout.OnlyBlanks ∧ c.beforeColumn ≠ [] ∧ c.beforeFrom ≠ [] ∧ c.beforeTable ≠ [] ∧
    c.column.token.folded = true ∧ c.table.token.folded = true

theorem blank_notMem_of_upperCase {t keyword : Text} (h : upperCase t = keyword)
    (hkeyword : ' ' ∉ keyword) : ' ' ∉ t := by
  intro hmem
  exact hkeyword (h ▸ List.mem_map.mpr ⟨' ', hmem, rfl⟩)

theorem stripSemicolon_append (w : Text) : stripSemicolon (w ++ [';']) = w := by
  simp [stripSemicolon]

theorem stripSemicolon_of_notMem {w : Text} (h : ';' ∉ w) : stripSemicolon w = w := by
  rw [stripSemicolon, if_neg]
  intro hlast
  exact h (List.mem_of_getLast? hlast)

/-- Behind the table at most a semicolon adds to its word. -/
theorem ColumnQuery.tableWord {c : ColumnQuery} (h : c.Plain) :
    ∃ w ws, words (c.table.token.text ++ (itemsText
        (c.beforeSemicolon.map fun gap => (gap, semicolon)).toList ++ triviaText c.behind)) = w :: ws ∧
      stripSemicolon w = c.table.token.text := by
  obtain ⟨⟨hgaps, hend, -⟩, -, -, -, -, htable⟩ := h
  have hbehind : ∀ d ∈ triviaText c.behind, d = ' ' := hend
  have hblank := notMem_of_folded htable (c := ' ') rfl
  have hstrip := stripSemicolon_of_notMem (notMem_of_folded htable (c := ';') rfl)
  have hne : c.table.token.text ≠ [] := List.cons_ne_nil _ _
  cases hsemi : c.beforeSemicolon with
  | none =>
    refine ⟨_, [], ?_, hstrip⟩
    simp only [Option.map_none, Option.toList_none, itemsText, List.flatMap_nil, List.nil_append]
    rw [words_append_blanks_end hbehind, words_of_notMem hblank hne]
  | some gap =>
    have hgap : ∀ d ∈ triviaText gap, d = ' ' := hgaps (gap, semicolon) (by
      simp [ColumnQuery.layout, hsemi])
    simp only [Option.map_some, Option.toList_some, itemsText_cons, List.append_assoc]
    by_cases hnil : gap = []
    · subst hnil
      refine ⟨c.table.token.text ++ [';'], [], ?_, stripSemicolon_append _⟩
      have hword : ' ' ∉ c.table.token.text ++ [';'] := by
        simp [hblank]
      have hwords := words_append_blanks_end hbehind (c.table.token.text ++ [';'])
      rw [words_of_notMem hword (by simp)] at hwords
      rw [← hwords]
      simp [triviaText, itemsText, semicolon, Token.text]
    · exact ⟨_, _, words_append hblank hne hgap (triviaText_ne_nil hnil) _, hstrip⟩

theorem spelled_plain {c : ColumnQuery} (h : c.Plain) : spelled c.layout.text =
    '/' :: (upperCase c.table.token.text ++ '/' :: upperCase c.column.token.text) := by
  obtain ⟨w, ws, htable, hstrip⟩ := c.tableWord h
  obtain ⟨⟨hgaps, -, hopen⟩, hne₁, hne₂, hne₃, hcolumn, -⟩ := h
  have hbefore : ∀ d ∈ triviaText c.before, d = ' ' := hgaps (c.before, c.select) (by
    simp [ColumnQuery.layout])
  have hgap₁ : ∀ d ∈ triviaText c.beforeColumn, d = ' ' :=
    hgaps (c.beforeColumn, c.column.token) (by simp [ColumnQuery.layout])
  have hgap₂ : ∀ d ∈ triviaText c.beforeFrom, d = ' ' :=
    hgaps (c.beforeFrom, c.fromKeyword) (by simp [ColumnQuery.layout])
  have hgap₃ : ∀ d ∈ triviaText c.beforeTable, d = ' ' :=
    hgaps (c.beforeTable, c.table.token) (by simp [ColumnQuery.layout])
  have hselect := blank_notMem_of_upperCase c.isSelect (by decide)
  have hfrom := blank_notMem_of_upperCase c.isFrom (by decide)
  have hwords : words c.layout.text =
      c.select.text :: c.column.token.text :: c.fromKeyword.text :: w :: ws := by
    rw [← htable, Layout.text, hopen]
    simp only [ColumnQuery.layout, itemsText_cons, Option.map_none, Option.getD_none,
      List.append_nil, List.append_assoc]
    rw [words_blanks_append hbefore,
      words_append hselect (List.cons_ne_nil _ _) hgap₁ (triviaText_ne_nil hne₁),
      words_append (notMem_of_folded hcolumn rfl) (List.cons_ne_nil _ _) hgap₂
        (triviaText_ne_nil hne₂),
      words_append hfrom (List.cons_ne_nil _ _) hgap₃ (triviaText_ne_nil hne₃)]
  have hS : BeginsWithS c.layout.text :=
    (Layout.beginsWithS_iff rfl).mpr ⟨hbefore, head_of_upperCase c.isSelect⟩
  rw [spelled, if_pos hS, hwords]
  simp only [tableColumn, Option.map_some, Option.getD_some, hstrip]

/-- An unquoted identifier is known by its capital letters. -/
theorem name_eq_of_upperCase {i j : Identifier} (hi : i.token.folded = true)
    (hj : j.token.folded = true) (h : upperCase i.token.text = upperCase j.token.text) :
    i.name = j.name := by
  have hquoted {t : Token} (hopens : t.head = '"') : t.folded ≠ true := by
    intro hfolded
    have hstart := (t.identifier hfolded).1
    rw [hopens] at hstart
    exact absurd hstart (by decide)
  have hlower (t : Text) : t.map Char.toLower = (upperCase t).map Char.toLower := by
    rw [upperCase, List.map_map]
    exact List.map_congr_left fun c _ => (toLower_toUpper c).symm
  cases i with
  | quoted t content opens closes nonempty => exact absurd hi (hquoted opens)
  | unquoted t folded =>
    cases j with
    | quoted u content opens closes nonempty => exact absurd hj (hquoted opens)
    | unquoted u folded' =>
      simp only [Identifier.token] at h
      rw [Identifier.name, Identifier.name, hlower t.text, h, ← hlower]

/-- Plain queries on databases without a slash in their names are not confused. -/
theorem resolved_of_plain (stale stale' : Char) {d₁ d₂ : Text} (hd₁ : '/' ∉ d₁) (hd₂ : '/' ∉ d₂)
    {c₁ c₂ : ColumnQuery} (h₁ : c₁.Plain) (h₂ : c₂.Plain) :
    Resolved stale stale' d₁ (.column c₁) d₂ (.column c₂) := by
  intro huri
  rw [uri_eq_iff] at huri
  simp only [Query.text, spelled_plain h₁, spelled_plain h₂] at huri
  obtain ⟨-, -, -, -, hcolumn₁, htable₁⟩ := h₁
  obtain ⟨-, -, -, -, hcolumn₂, htable₂⟩ := h₂
  have hparts := congrArg (Tsv.split '/') huri
  rw [Tsv.split_append hd₁, Tsv.split_append hd₂, Tsv.split_append (slash_notMem_of_folded htable₁),
    Tsv.split_append (slash_notMem_of_folded htable₂),
    Tsv.split_of_notMem (slash_notMem_of_folded hcolumn₁),
    Tsv.split_of_notMem (slash_notMem_of_folded hcolumn₂)] at hparts
  simp only [List.cons.injEq, and_true] at hparts
  obtain ⟨hd, htable, hcolumn⟩ := hparts
  refine ⟨hd, ?_⟩
  rw [Query.denotes, Query.denotes, name_eq_of_upperCase htable₁ htable₂ htable,
    name_eq_of_upperCase hcolumn₁ hcolumn₂ hcolumn]

/-- No query on any database is told apart from all others on it by the uri, with buffers taken to
be long enough. Among the queries without quotes and comments on databases without a slash in their
names, those that read a column are. -/
theorem never_resolved (stale stale' : Char) :
    (∀ d q, ∃ q', ¬Resolved stale stale' d q d q') ∧
      ∀ d₁ d₂ (c₁ c₂ : ColumnQuery), '/' ∉ d₁ → '/' ∉ d₂ → c₁.Plain → c₂.Plain →
        Resolved stale stale' d₁ (.column c₁) d₂ (.column c₂) := by
  refine ⟨exists_confused stale stale', fun d₁ d₂ c₁ c₂ hd₁ hd₂ h₁ h₂ => ?_⟩
  exact resolved_of_plain stale stale' hd₁ hd₂ h₁ h₂

end AbacMiddleLayer.Gate
