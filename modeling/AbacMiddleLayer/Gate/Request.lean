import AbacMiddleLayer.Words

/-! # The request derived from a simple query

The words of the upper-cased query, and the action and uri that `PostgresMain`
derives from its first, second and fourth word. A query consists of the bytes
before the terminating NUL. The sizes of the buffers `parse`, `temp` and `uri` are
not part of these functions.
-/
namespace AbacMiddleLayer.Gate
open Words

/-- The loop `new_query_string[i] += ('A'-'a')` over the letters a to z. -/
def upperCase (q : Text) : Text := q.map Char.toUpper

def flushWord (word : Text) (rest : List Text) : List Text :=
  if word = [] then rest else word :: rest

/-- The calls of `strtok` with delimiter blank, `word` being the token under way. -/
def strtokLoop (word : Text) : Text → List Text
  | [] => flushWord word []
  | c :: cs =>
    if c = ' ' then flushWord word (strtokLoop [] cs) else strtokLoop (word ++ [c]) cs

def strtok (q : Text) : List Text := strtokLoop [] q

theorem mem_flushWord {w word : Text} {rest : List Text} :
    w ∈ flushWord word rest ↔ (w = word ∧ word ≠ []) ∨ w ∈ rest := by
  unfold flushWord
  by_cases h : word = [] <;> simp [h]

theorem strtokLoop_ne_nil {w word q : Text} (h : w ∈ strtokLoop word q) : w ≠ [] := by
  induction q generalizing word with
  | nil =>
    rcases mem_flushWord.mp h with ⟨rfl, hne⟩ | h
    · exact hne
    · simp at h
  | cons c cs ih =>
    rw [strtokLoop] at h
    split_ifs at h
    · rcases mem_flushWord.mp h with ⟨rfl, hne⟩ | h
      · exact hne
      · exact ih h
    · exact ih h

/-- No word is empty. -/
theorem strtok_ne_nil {w q : Text} (h : w ∈ strtok q) : w ≠ [] := strtokLoop_ne_nil h

theorem flushWord_filter (w : Text) (ws : List Text) :
    flushWord w (ws.filter fun v => v ≠ []) = (w :: ws).filter fun v => v ≠ [] := by
  unfold flushWord
  by_cases hw : w = [] <;> simp [hw]

/-- The token under way is the beginning of the first piece. -/
theorem strtokLoop_eq {word q s : Text} {ss : List Text} (h : Tsv.split ' ' q = s :: ss) :
    strtokLoop word q = flushWord (word ++ s) (ss.filter fun v => v ≠ []) := by
  induction q generalizing word s ss with
  | nil =>
    cases h
    simp [strtokLoop]
  | cons c cs ih =>
    obtain ⟨t, ts, ht⟩ := List.exists_cons_of_ne_nil (Tsv.split_ne_nil ' ' cs)
    by_cases hc : c = ' '
    · subst hc
      rw [Tsv.split, if_pos rfl] at h
      cases h
      rw [strtokLoop, if_pos rfl, ih ht, ht, List.nil_append, flushWord_filter, List.append_nil]
    · rw [Tsv.split_cons_of_ne hc ht] at h
      cases h
      rw [strtokLoop, if_neg hc, ih ht, List.append_assoc]
      rfl

/-- The tokens are the words. -/
theorem strtok_eq_words (q : Text) : strtok q = words q := by
  obtain ⟨s, ss, h⟩ := List.exists_cons_of_ne_nil (Tsv.split_ne_nil ' ' q)
  rw [strtok, strtokLoop_eq h, List.nil_append, flushWord_filter, words, h]

/-- The array `parse`. -/
def parse (q : Text) : List Text := strtok (upperCase q)

theorem parse_eq_words (q : Text) : parse q = words (upperCase q) := by rw [parse, strtok_eq_words]

/-- The gate's words are the words of the query in capital letters. -/
theorem parse_eq (q : Text) : parse q = (words q).map upperCase := by
  rw [parse_eq_words, upperCase, words_map (toUpper_eq_iff (by decide))]
  rfl

/-- One trailing semicolon is cut off. -/
def stripSemicolon (w : Text) : Text := if w.getLast? = some ';' then w.dropLast else w

/-- The first character of the first word, if there is a word. -/
def verb (q : Text) : Option Char := (parse q).head?.bind List.head?

/-- The character `cmd[0]`; for a query without words `parse[0]` was never stored. -/
def command (stale : Char) (q : Text) : Char := (verb q).getD stale

/-- The text `table/column` of a query with at least four words. -/
def resource (q : Text) : Option Text :=
  match parse q with
  | _ :: column :: _ :: table :: _ => some (stripSemicolon table ++ '/' :: column)
  | _ => none

def baseUri (dbname : Text) : Text := "/UOA_CANVAS_LMS/".toList ++ dbname

/-- The arguments `action` and `uri` of the call. -/
def deriveRequest (stale : Char) (dbname q : Text) : Text × Text :=
  if command stale q = 'S' then
    ("Get".toList, baseUri dbname ++ ((resource q).map ('/' :: ·)).getD [])
  else ([], baseUri dbname)

/-- Behind its blanks the query begins with S. -/
def BeginsWithS (q : Text) : Prop := (trimStart q).head? = some 's' ∨ (trimStart q).head? = some 'S'

instance (q : Text) : Decidable (BeginsWithS q) := inferInstanceAs (Decidable (_ ∨ _))

theorem toUpper_eq_S (c : Char) : c.toUpper = 'S' ↔ c = 's' ∨ c = 'S' := by
  have h := toNat_toUpper c
  have hS : 'S'.toNat = 83 := rfl
  have hs : 's'.toNat = 115 := rfl
  rw [← Char.toNat_inj, ← Char.toNat_inj (c := c), ← Char.toNat_inj (c := c)]
  split_ifs at h <;> omega

theorem verb_eq (q : Text) : verb q = (trimStart q).head?.map Char.toUpper := by
  rw [verb, parse_eq, ← head_words, List.head?_map, Option.bind_map, Option.map_bind]
  cases (words q).head? with
  | none => rfl
  | some w => cases w <;> rfl

theorem verb_eq_S_iff (q : Text) : verb q = some 'S' ↔ BeginsWithS q := by
  rw [verb_eq, BeginsWithS]
  cases (trimStart q).head? with
  | none => simp
  | some c => simp [toUpper_eq_S]

theorem stripSemicolon_upperCase (w : Text) :
    stripSemicolon (upperCase w) = upperCase (stripSemicolon w) := by
  have hlast : (upperCase w).getLast? = some ';' ↔ w.getLast? = some ';' := by
    rw [upperCase, List.getLast?_map]
    cases w.getLast? with
    | none => simp
    | some c => simp [toUpper_eq_iff (d := ';') (by decide)]
  simp only [stripSemicolon, hlast]
  split_ifs
  · rw [upperCase, upperCase, List.map_dropLast]
  · rfl

/-- Table and column, by the fourth and the second word, in capital letters. -/
def tableColumn : List Text → Option Text
  | _ :: column :: _ :: table :: _ =>
    some (upperCase (stripSemicolon table) ++ '/' :: upperCase column)
  | _ => none

/-- Four words are needed, and no more are looked at. -/
theorem tableColumn_cases (ws : List Text) :
    (ws.length < 4 ∧ tableColumn ws = none) ∨ ∃ w₁ column w₃ table rest,
      ws = w₁ :: column :: w₃ :: table :: rest ∧
        tableColumn ws = some (upperCase (stripSemicolon table) ++ '/' :: upperCase column) := by
  rcases ws with _ | ⟨w₁, _ | ⟨column, _ | ⟨w₃, _ | ⟨table, rest⟩⟩⟩⟩
  · exact Or.inl ⟨by decide, rfl⟩
  · exact Or.inl ⟨by simp, rfl⟩
  · exact Or.inl ⟨by simp, rfl⟩
  · exact Or.inl ⟨by simp, rfl⟩
  · exact Or.inr ⟨w₁, column, w₃, table, rest, rfl, rfl⟩

theorem resource_eq (q : Text) : resource q = tableColumn (words q) := by
  rw [resource, parse_eq]
  rcases words q with _ | ⟨w₁, _ | ⟨w₂, _ | ⟨w₃, _ | ⟨w₄, ws⟩⟩⟩⟩
  · rfl
  · rfl
  · rfl
  · rfl
  · simp only [List.map_cons, stripSemicolon_upperCase, tableColumn]

theorem command_eq_iff {q : Text} (h : parse q ≠ []) (stale c : Char) :
    command stale q = c ↔ verb q = some c := by
  obtain ⟨w, ws, hw⟩ := List.exists_cons_of_ne_nil h
  have hmem : w ∈ strtok (upperCase q) := by
    change w ∈ parse q
    simp [hw]
  obtain ⟨d, ds, rfl⟩ := List.exists_cons_of_ne_nil (strtok_ne_nil hmem)
  simp [command, verb, hw]

theorem command_eq_S_iff {q : Text} (h : words q ≠ []) (stale : Char) :
    command stale q = 'S' ↔ BeginsWithS q := by
  have hparse : parse q ≠ [] := by simpa [parse_eq] using h
  rw [command_eq_iff hparse, verb_eq_S_iff]

theorem BeginsWithS.words_ne_nil {q : Text} (h : BeginsWithS q) : words q ≠ [] := by
  intro hq
  have hhead := head_words q
  rw [hq] at hhead
  rw [BeginsWithS, ← hhead] at h
  simp at h

/-- A query that begins with S asks to get the table and column of its words. -/
theorem deriveRequest_of_beginsWithS {q : Text} (h : BeginsWithS q) (stale : Char)
    (dbname : Text) :
    deriveRequest stale dbname q =
      ("Get".toList, baseUri dbname ++ ((tableColumn (words q)).map ('/' :: ·)).getD []) := by
  rw [deriveRequest, if_pos ((command_eq_S_iff h.words_ne_nil stale).mpr h), resource_eq]

/-- Every other query asks for no action on the database as a whole. -/
theorem deriveRequest_of_not_beginsWithS {q : Text} (hq : words q ≠ []) (h : ¬BeginsWithS q)
    (stale : Char) (dbname : Text) : deriveRequest stale dbname q = ([], baseUri dbname) := by
  rw [deriveRequest, if_neg fun hS => h ((command_eq_S_iff hq stale).mp hS)]

private theorem suffix_inj {x y : Option Text} :
    (x.map ('/' :: ·)).getD [] = (y.map ('/' :: ·)).getD [] ↔ x = y := by
  cases x <;> cases y <;> simp

/-- Two queries with words derive the same request when both or neither of them begins with S,
and if both do, when their fourth and second words spell the same table and column. -/
theorem deriveRequest_eq_iff {q s : Text} (hq : words q ≠ []) (hs : words s ≠ [])
    (stale stale' : Char) (dbname : Text) :
    deriveRequest stale dbname q = deriveRequest stale' dbname s ↔
      (BeginsWithS q ↔ BeginsWithS s) ∧
        (BeginsWithS q → tableColumn (words q) = tableColumn (words s)) := by
  simp only [deriveRequest, command_eq_S_iff hq, command_eq_S_iff hs, resource_eq]
  by_cases hSq : BeginsWithS q <;> by_cases hSs : BeginsWithS s <;> simp [hSq, hSs, suffix_inj]

theorem deriveRequest_eq_of_parse_eq {q s : Text} (hq : words q ≠ []) (h : parse q = parse s)
    (stale stale' : Char) (dbname : Text) :
    deriveRequest stale dbname q = deriveRequest stale' dbname s := by
  have hs : words s ≠ [] := by
    intro hnil
    rw [parse_eq, parse_eq, hnil, List.map_nil] at h
    exact hq (List.map_eq_nil_iff.mp h)
  refine (deriveRequest_eq_iff hq hs stale stale' dbname).mpr ⟨?_, fun _ => ?_⟩
  · rw [← verb_eq_S_iff, ← verb_eq_S_iff, verb, verb, h]
  · rw [← resource_eq, ← resource_eq, resource, resource, h]

/-- The splitting of a query into statements by PostgreSQL's parser. Empty statements
are dropped, so that each statement has a word, and a query with a statement too. -/
structure Parser where
  statements : Text → List Text
  words : ∀ q, ∀ s ∈ statements q, words s ≠ []
  blank : ∀ q, Words.words q = [] → statements q = []

theorem Parser.query_words (parser : Parser) {q s : Text} (h : s ∈ parser.statements q) :
    Words.words q ≠ [] := by
  intro hq
  simp [parser.blank q hq] at h

/-- The gate's answer to a query under a policy. -/
def permits (policy : Text → Text → Text → Bool) (username dbname : Text) (stale : Char)
    (q : Text) : Bool :=
  policy username (deriveRequest stale dbname q).1 (deriveRequest stale dbname q).2

/-- Under every policy the gate permits `s` whenever it permits `q`. -/
theorem permits_imp_iff (username dbname : Text) (stale stale' : Char) (q s : Text) :
    (∀ policy, permits policy username dbname stale q = true →
        permits policy username dbname stale' s = true) ↔
      deriveRequest stale dbname q = deriveRequest stale' dbname s := by
  constructor
  · intro h
    -- The policy that permits the request of `q` and nothing else.
    have hs := h (fun _ action uri => decide ((action, uri) = deriveRequest stale dbname q))
      (by simp [permits])
    simpa [permits, eq_comm] using hs
  · intro h policy hq
    rw [permits, ← h]
    exact hq

/-- The gate permits each statement of every query it permits exactly when each statement begins
with S just as the query does and, if they do, has a fourth and a second word that spell the table
and column of the query's. -/
theorem statements_permitted_iff (parser : Parser) (username dbname : Text) (stale stale' : Char)
    (q : Text) :
    (∀ policy, permits policy username dbname stale q = true →
        ∀ s ∈ parser.statements q, permits policy username dbname stale' s = true) ↔
      ∀ s ∈ parser.statements q, (BeginsWithS q ↔ BeginsWithS s) ∧
        (BeginsWithS q → tableColumn (words q) = tableColumn (words s)) := by
  have heq (s : Text) (hs : s ∈ parser.statements q) :=
    deriveRequest_eq_iff (parser.query_words hs) (parser.words q s hs) stale stale' dbname
  constructor
  · intro h s hs
    rw [← heq s hs, ← permits_imp_iff username]
    intro policy hq
    exact h policy hq s hs
  · intro h policy hq s hs
    exact (permits_imp_iff username dbname stale stale' q s).mpr ((heq s hs).mpr (h s hs)) policy hq

/-- The pieces between semicolons that have a word: what the parser gives for a query
without quotes, comments and nested statements. -/
def splitSemicolons : Text → Text → List Text
  | piece, [] => [piece]
  | piece, c :: cs =>
    if c = ';' then piece :: splitSemicolons [] cs else splitSemicolons (piece ++ [c]) cs

def plainParser : Parser where
  statements q := if words q = [] then [] else
    (splitSemicolons [] q).filter fun s => words s ≠ []
  words q s hs := by
    split_ifs at hs
    · simp at hs
    · simpa using (List.mem_filter.mp hs).2
  blank q hq := by simp [hq]

/-- A policy that lets `user` read column A of table T permits the query that also reads
column B of table SECRET, and denies its second statement alone. -/
theorem second_statement_unchecked :
    let policy : Text → Text → Text → Bool := fun _ _ uri =>
      decide (uri = "/UOA_CANVAS_LMS/lms/T/A".toList)
    permits policy "user".toList "lms".toList ' '
        "SELECT a FROM t; SELECT b FROM secret".toList = true ∧
      " SELECT b FROM secret".toList ∈
        plainParser.statements "SELECT a FROM t; SELECT b FROM secret".toList ∧
      permits policy "user".toList "lms".toList ' ' " SELECT b FROM secret".toList = false := by
  decide +kernel

end AbacMiddleLayer.Gate
