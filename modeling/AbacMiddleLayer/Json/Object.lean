import AbacMiddleLayer.Json.Parser
import AbacMiddleLayer.Json.Words

/-! # Objects written by concatenation

A program that writes an object by putting texts together escapes some of its strings and
puts others between quotes as they are. The object is read back exactly when the escaped
strings have no control character and the others nothing that needs an escape.
-/
namespace AbacMiddleLayer.Json

section Infix
variable {α : Type*} {l a b : List α} {x : α}

/-- What does not contain an element stands on one side of it. -/
theorem infix_of_notMem (hx : x ∉ l) (h : l <:+: a ++ x :: b) : l <:+: a ∨ l <:+: b := by
  obtain ⟨p, q, h⟩ := h
  rcases List.append_eq_append_iff.mp h with ⟨c, hc, -⟩ | ⟨c, hpl, hc⟩
  · exact .inl ⟨p, c, hc.symm⟩
  · cases c with
    | nil => exact .inl ⟨p, [], by simpa using hpl⟩
    | cons y c =>
      obtain ⟨rfl, rfl⟩ := List.cons.inj hc
      rcases List.append_eq_append_iff.mp hpl with ⟨d, -, hd⟩ | ⟨d, -, hd⟩
      · exact absurd (by simp [hd]) hx
      · cases d with
        | nil =>
          rw [List.nil_append] at hd
          exact absurd (by simp [← hd]) hx
        | cons z d =>
          obtain ⟨rfl, rfl⟩ := List.cons.inj hd
          exact .inr ⟨d, q, rfl⟩

theorem infix_of_intercalate {ls : List (List α)} (hne : l ≠ []) (hx : x ∉ l)
    (h : l <:+: [x].intercalate ls) : ∃ s ∈ ls, l <:+: s := by
  induction ls with
  | nil => exact absurd (List.infix_nil.mp h) hne
  | cons s ls ih =>
    cases ls with
    | nil => exact ⟨s, by simp, by simpa using h⟩
    | cons t ls =>
      rw [List.intercalate_cons_cons, List.append_assoc] at h
      rcases infix_of_notMem hx h with h | h
      · exact ⟨s, by simp, h⟩
      · obtain ⟨u, hu, hlu⟩ := ih h
        exact ⟨u, by simp [hu], hlu⟩

end Infix

def member (m : Text × Text) : Text := quoted m.1 ++ ':' :: m.2

def object (ms : List (Text × Text)) : Text := '\x7b' :: Tsv.join ',' (ms.map member) ++ ['\x7d']

/-- A key that is no literal outside of quotes. -/
structure IsName (k : Text) : Prop where
  ne_nil : k ≠ []
  word : ∀ c ∈ k, isWordChar c = true
  plain : Plain k
  notLiteral : readWord k = none

def memberTokens (m : Text × Text) : List Token :=
  .scalar (.str (codes m.1)) :: .mark .colon :: (tokens m.2).getD []

variable {ms : List (Text × Text)}

theorem scan_member {m : Text × Text} (hm : IsName m.1) (t : Text) :
    scan .outside (member m ++ t) =
      (scan .outside (m.2 ++ t)).map
        (prepend [.scalar (.str (codes m.1)), .mark .colon]) := by
  rw [member, List.append_assoc, List.cons_append]
  exact scan_append_mark (tokens_plain hm.plain) rfl _

theorem scan_member_mark {m : Text × Text} (hm : IsName m.1) (hvalue : tokens m.2 ≠ none)
    {c : Char} {x : Mark} (hc : Mark.ofChar c = some x) (t : Text) :
    scan .outside (member m ++ c :: t) =
      (scan .outside t).map (prepend (memberTokens m ++ [.mark x])) := by
  obtain ⟨ts, hts⟩ := Option.ne_none_iff_exists'.mp hvalue
  rw [scan_member hm, scan_append_mark hts hc, Option.map_map, memberTokens, hts]
  rfl

/-- A quoted text that does not end as a string takes the quote of the next key for its own. -/
theorem scan_open {s k : Text} (hs : tokens (quoted s) = none) (hk : IsName k) (t : Text) :
    scan .outside (quoted s ++ ',' :: (quoted k ++ t)) = none := by
  have hkey (us : List Token) (acc : List ℕ) :
      ((scan (.inString acc) (',' :: (quoted k ++ t))).map (prepend us)) = none := by
    have hcomma : step (.inString acc) ',' = some ([], .inString (acc ++ [44])) := rfl
    have hclose : step (.inString (acc ++ [44])) '"' =
        some ([.scalar (.str (joinSurrogates (acc ++ [44])))], .outside) := rfl
    have hname : step (.inWord k) '"' = none := by simp [step, isWordChar, hk.notLiteral]
    rw [scan_cons_of_step hcomma, quoted, List.append_assoc, List.cons_append,
      scan_cons_of_step hclose, scan_append, scan_outside_word hk.ne_nil hk.word,
      Option.bind_some, List.cons_append, scan_cons_of_none hname]
    rfl
  have hopen : step .outside '"' = some ([], .inString []) := rfl
  rw [tokens_quoted] at hs
  rw [quoted, List.cons_append, List.cons_append, scan_cons_of_step hopen, List.append_assoc,
    scan_append]
  cases hscan : scan (.inString []) s with
  | none => rfl
  | some r =>
    obtain ⟨ts, m⟩ := r
    rw [hscan] at hs
    have hquote (us : List Token) (acc : List ℕ) (h : step m '"' = some (us, .inString acc)) :
        ((scan m ('"' :: ',' :: (quoted k ++ t))).map (prepend ts)) = none := by
      rw [scan_cons_of_step h, hkey]
      rfl
    rw [Option.bind_some, List.cons_append, List.nil_append, Option.map_eq_none_iff]
    cases m with
    | outside => exact hquote [] [] rfl
    | inWord w =>
      cases hw : readWord w with
      | none =>
        have hstep : step (.inWord w) '"' = none := by simp [step, isWordChar, hw]
        rw [scan_cons_of_none hstep]
        rfl
      | some x =>
        apply hquote [.scalar x] []
        rw [step, if_neg (by decide), hw]
        rfl
    | inString acc => cases hs
    | escaped acc => exact hquote [] (acc ++ [34]) rfl
    | unicode acc digits =>
      rw [scan_cons_of_none (by simp [step, hexDigit, Char.isDigit])]
      rfl

theorem scan_members (hne : ms ≠ []) (hkeys : ∀ m ∈ ms, IsName m.1)
    (hvalues : ∀ m ∈ ms, tokens m.2 ≠ none) :
    scan .outside (Tsv.join ',' (ms.map member) ++ ['\x7d']) =
      some ([.mark .comma].intercalate (ms.map memberTokens) ++ [.mark .rightBrace], .outside) := by
  induction ms with
  | nil => exact absurd rfl hne
  | cons m ms ih =>
    have hm := hkeys m (by simp)
    have hv := hvalues m (by simp)
    cases ms with
    | nil =>
      rw [List.map_singleton, Tsv.join, scan_member_mark hm hv rfl]
      simp [scan, prepend]
    | cons m' ms =>
      have hrest := ih (by simp) (fun n hn => hkeys n (by simp [hn]))
        fun n hn => hvalues n (by simp [hn])
      rw [List.map_cons, List.map_cons, Tsv.join, List.append_assoc, List.cons_append,
        ← List.map_cons, scan_member_mark hm hv rfl, hrest]
      simp [prepend, List.intercalate_cons_cons]

/-- Texts that do not end by themselves, among values between quotes, leave no tokens. -/
theorem tokens_ne_none_of_scan (hkeys : ∀ m ∈ ms, IsName m.1)
    (hvalues : ∀ m ∈ ms, tokens m.2 ≠ none ∨ ∃ s, m.2 = quoted s)
    (hlast : ∀ m, ms.getLast? = some m → tokens m.2 ≠ none)
    (h : scan .outside (Tsv.join ',' (ms.map member) ++ ['\x7d']) ≠ none) :
    ∀ m ∈ ms, tokens m.2 ≠ none := by
  induction ms with
  | nil => simp
  | cons m ms ih =>
    have hm := hkeys m (by simp)
    cases ms with
    | nil => simpa using hlast m rfl
    | cons m' ms =>
      rw [List.map_cons, List.map_cons, Tsv.join, List.append_assoc, List.cons_append,
        ← List.map_cons] at h
      have hv : tokens m.2 ≠ none := by
        intro hnone
        obtain ⟨s, hs⟩ := (hvalues m (by simp)).resolve_left (not_not.mpr hnone)
        obtain ⟨t, ht⟩ : ∃ t, Tsv.join ',' ((m' :: ms).map member) ++ ['\x7d'] =
            quoted m'.1 ++ t := by
          cases ms with
          | nil => exact ⟨_, List.append_assoc _ _ _⟩
          | cons m'' ms =>
            rw [List.map_cons, List.map_cons, Tsv.join, member, List.append_assoc, List.append_assoc]
            exact ⟨_, rfl⟩
        rw [ht, scan_member hm, hs] at h
        rw [hs] at hnone
        rw [scan_open hnone (hkeys m' (by simp))] at h
        exact h rfl
      rw [scan_member_mark hm hv rfl, ne_eq, Option.map_eq_none_iff] at h
      have hrest := ih (fun n hn => hkeys n (by simp [hn])) (fun n hn => hvalues n (by simp [hn]))
        (fun n hn => hlast n (by simpa using hn)) h
      exact List.forall_mem_cons.mpr ⟨hv, hrest⟩

theorem step_leftBrace : step .outside '\x7b' = some ([.mark .leftBrace], .outside) := rfl

theorem tokens_object (hne : ms ≠ []) (hkeys : ∀ m ∈ ms, IsName m.1)
    (hvalues : ∀ m ∈ ms, tokens m.2 ≠ none) :
    tokens (object ms) = some (.mark .leftBrace ::
      [.mark .comma].intercalate (ms.map memberTokens) ++ [.mark .rightBrace]) := by
  rw [tokens, object, List.cons_append, scan_cons_of_step step_leftBrace,
    scan_members hne hkeys hvalues]
  simp [prepend, finish]

theorem tokens_ne_none_of_object (hkeys : ∀ m ∈ ms, IsName m.1)
    (hvalues : ∀ m ∈ ms, tokens m.2 ≠ none ∨ ∃ s, m.2 = quoted s)
    (hlast : ∀ m, ms.getLast? = some m → tokens m.2 ≠ none)
    (h : tokens (object ms) ≠ none) : ∀ m ∈ ms, tokens m.2 ≠ none := by
  apply tokens_ne_none_of_scan hkeys hvalues hlast
  intro hnone
  apply h
  rw [tokens, object, List.cons_append, scan_cons_of_step step_leftBrace, hnone]
  rfl

inductive Field where
  | word (w : Word)
  | escaped (s : Text)
  | raw (s : Text)

def Field.text : Field → Text
  | .word w => w.text
  | .escaped s => quoted (escape s)
  | .raw s => quoted s

/-- What the field is written for. -/
def Field.scalar : Field → Scalar
  | .word w => w.scalar
  | .escaped s => .str (codes s)
  | .raw s => .str (codes s)

def Field.Clean : Field → Prop
  | .word _ => True
  | .escaped s => NoControl s
  | .raw s => Plain s

/-- The members of an object: different names, and a last one that ends by itself. -/
structure WellFormed (fs : List (Text × Field)) : Prop where
  ne_nil : fs ≠ []
  names : ∀ f ∈ fs, IsName f.1
  nodup : (fs.map Prod.fst).Nodup
  last : ∀ f, fs.getLast? = some f → f.2.Clean

def texts (fs : List (Text × Field)) : List (Text × Text) := fs.map fun f => (f.1, f.2.text)

variable {fs : List (Text × Field)}

theorem codes_injective : Function.Injective codes :=
  List.map_injective_iff.mpr fun _ _ h => Char.toNat_inj.mp h

theorem Field.tokens_of_clean {f : Field} (h : f.Clean) : tokens f.text = some [.scalar f.scalar] := by
  cases f with
  | word w =>
    rw [Field.text, tokens_word w.ne_nil w.chars, w.reads]
    rfl
  | escaped s =>
    have hs : NoControl s := h
    rw [Field.text, tokens_escape, if_pos hs]
    rfl
  | raw s =>
    rw [Field.text, tokens_plain h]
    rfl

theorem Field.tokens_or_quoted (f : Field) : tokens f.text ≠ none ∨ ∃ s, f.text = quoted s := by
  cases f with
  | word w =>
    have hw : tokens w.text = some [.scalar w.scalar] := tokens_of_clean (f := .word w) trivial
    exact .inl (by simp [Field.text, hw])
  | escaped s => exact .inr ⟨_, rfl⟩
  | raw s => exact .inr ⟨_, rfl⟩

theorem names_texts (h : WellFormed fs) : ∀ m ∈ texts fs, IsName m.1 := by
  intro m hm
  obtain ⟨f, hf, rfl⟩ := List.mem_map.mp hm
  exact h.names f hf

/-- An object whose fields are clean is loaded as it was meant. -/
theorem loads_of_clean (h : WellFormed fs) (hclean : ∀ f ∈ fs, f.2.Clean) :
    loads (object (texts fs)) =
      some (.object (fs.map fun f => (codes f.1, .scalar f.2.scalar))) := by
  have hvalues : ∀ m ∈ texts fs, tokens m.2 ≠ none := by
    intro m hm
    obtain ⟨f, hf, rfl⟩ := List.mem_map.mp hm
    rw [Field.tokens_of_clean (hclean f hf)]
    exact Option.some_ne_none _
  have hmembers : (texts fs).map memberTokens =
      (fs.map fun f => (codes f.1, f.2.scalar)).map fun p =>
        [.scalar (.str p.1), .mark .colon, .scalar p.2] := by
    rw [texts, List.map_map, List.map_map]
    apply List.map_congr_left
    intro f hf
    simp [memberTokens, Field.tokens_of_clean (hclean f hf)]
  have htokens := tokens_object (by simpa [texts] using h.ne_nil) (names_texts h) hvalues
  rw [hmembers] at htokens
  rw [loads_flat (by simpa using h.ne_nil) htokens, List.map_map]
  rfl

theorem field_of_mem (h : WellFormed fs) {k : Text} {f : Field} (hf : (k, f) ∈ fs) :
    (Value.object (fs.map fun f => (codes f.1, .scalar f.2.scalar))).field k =
      some (.scalar f.scalar) := by
  have hnodup : ((fs.map fun f => (codes f.1, f.2.scalar)).map Prod.fst).Nodup := by
    have hcodes := h.nodup.map codes_injective
    rw [List.map_map] at hcodes ⊢
    exact hcodes
  have hmem : (codes k, f.scalar) ∈ fs.map fun f => (codes f.1, f.2.scalar) :=
    List.mem_map.mpr ⟨(k, f), hf, rfl⟩
  have hflat := field_flat hnodup hmem
  rwa [List.map_map] at hflat

/-- A pair with a string stands within one of the members. -/
theorem infix_of_object {segs : List (List Token)} {k s : List ℕ}
    (h : stringPair k s <:+:
      .mark .leftBrace :: [.mark .comma].intercalate segs ++ [.mark .rightBrace]) :
    ∃ seg ∈ segs, stringPair k s <:+: seg := by
  have hne : stringPair k s ≠ [] := List.cons_ne_nil _ _
  have hmarks {m : Mark} (hm : m ≠ .colon) : Token.mark m ∉ stringPair k s := by
    simp [stringPair, hm]
  rcases infix_of_notMem (hmarks (by decide)) h with h | h
  · rcases infix_of_notMem (a := []) (hmarks (by decide)) h with h | h
    · exact absurd (List.infix_nil.mp h) hne
    · exact infix_of_intercalate hne (hmarks (by decide)) h
  · exact absurd (List.infix_nil.mp h) hne

/-- No field but the one with the key gives, behind the key, a string that is not plain and at
least as long as the other raw texts that are not. -/
theorem not_infix_memberTokens (h : WellFormed fs) {k s : Text} (hs : (k, .raw s) ∈ fs)
    (hplain : ¬ Plain s)
    (hmax : ∀ k' s', (k', Field.raw s') ∈ fs → ¬ Plain s' → s'.length ≤ s.length)
    {k' : Text} {f : Field} (hf : (k', f) ∈ fs) {ts : List Token} (hts : tokens f.text = some ts) :
    ¬ stringPair (codes k) (codes s) <:+: .scalar (.str (codes k')) :: .mark .colon :: ts := by
  intro hinfix
  have hmem : .scalar (.str (codes s)) ∈ .scalar (.str (codes k')) :: .mark .colon :: ts :=
    hinfix.subset (by simp [stringPair])
  have hkey : codes s ≠ codes k' := by
    intro he
    rw [codes_injective he] at hplain
    exact hplain (h.names _ hf).plain
  have hts' : .scalar (.str (codes s)) ∈ ts := by simpa [hkey] using hmem
  cases f with
  | word w =>
    have hw := Field.tokens_of_clean (f := .word w) trivial
    rw [hts, Option.some.injEq] at hw
    rw [hw, List.mem_singleton, Token.scalar.injEq] at hts'
    exact readWord_ne_str (w.reads.trans (congrArg some hts'.symm))
  | raw s' =>
    by_cases hs' : Plain s'
    · rw [Field.text, tokens_plain hs', Option.some.injEq] at hts
      rw [← hts, List.mem_singleton, Token.scalar.injEq, Scalar.str.injEq] at hts'
      rw [codes_injective hts'] at hplain
      exact hplain hs'
    · have hlt := below_of_not_plain hts hs' _ hts'
      have hle := hmax k' s' hf hs'
      rw [codes, List.length_map] at hlt
      omega
  | escaped s' =>
    have hclean : NoControl s' := by
      by_contra hnot
      rw [Field.text, tokens_escape, if_neg hnot] at hts
      cases hts
    rw [Field.text, tokens_escape, if_pos hclean, Option.some.injEq] at hts
    rw [← hts] at hinfix
    -- both have three tokens, so the keys are the same
    have heq := hinfix.eq_of_length rfl
    have hkeys : codes k = codes k' := by
      simp only [stringPair, List.cons.injEq, Token.scalar.injEq, Scalar.str.injEq] at heq
      exact heq.1
    have hpair := List.inj_on_of_nodup_map h.nodup hs hf (codes_injective hkeys)
    cases hpair

/-- An object whose raw strings are loaded as they were meant has clean fields only. -/
theorem clean_of_loads (h : WellFormed fs) {v : Value} (hv : loads (object (texts fs)) = some v)
    (hraw : ∀ k s, (k, Field.raw s) ∈ fs → v.field k = some (.scalar (.str (codes s)))) :
    ∀ f ∈ fs, f.2.Clean := by
  have hsome : tokens (object (texts fs)) ≠ none := by
    intro hnone
    rw [loads, hnone] at hv
    cases hv
  have htexts : ∀ m ∈ texts fs, tokens m.2 ≠ none := by
    apply tokens_ne_none_of_object (names_texts h) _ _ hsome
    · intro m hm
      obtain ⟨f, -, rfl⟩ := List.mem_map.mp hm
      exact f.2.tokens_or_quoted
    · intro m hm
      rw [texts, List.getLast?_map, Option.map_eq_some_iff] at hm
      obtain ⟨f, hf, rfl⟩ := hm
      rw [Field.tokens_of_clean (h.last f hf)]
      exact Option.some_ne_none _
  have htokens := tokens_object (by simpa [texts] using h.ne_nil) (names_texts h) htexts
  have hfield : ∀ k f, (k, f) ∈ fs → tokens f.text ≠ none :=
    fun k f hf => htexts _ (List.mem_map.mpr ⟨(k, f), hf, rfl⟩)
  have hplain : ∀ k s, (k, Field.raw s) ∈ fs → Plain s := by
    by_contra hnot
    push Not at hnot
    obtain ⟨k₀, s₀, hs₀, hplain₀⟩ := hnot
    have hfinite : {p : Text × Text | (p.1, Field.raw p.2) ∈ fs ∧ ¬ Plain p.2}.Finite := by
      have hpreimage := fs.finite_toSet.preimage (f := fun p : Text × Text => (p.1, Field.raw p.2))
        fun p _ q _ hpq => by
          simp only [Prod.mk.injEq, Field.raw.injEq] at hpq
          exact Prod.ext hpq.1 hpq.2
      exact hpreimage.subset fun p hp => hp.1
    -- the longest raw text that is not plain
    obtain ⟨⟨k, s⟩, ⟨hs, hplain⟩, hmax⟩ :=
      Set.exists_max_image _ (fun p => p.2.length) hfinite ⟨(k₀, s₀), hs₀, hplain₀⟩
    obtain ⟨ts, hts, hinfix⟩ := exists_infix_of_field hv (hraw k s hs)
    rw [htokens, Option.some.injEq] at hts
    subst hts
    obtain ⟨seg, hseg, hinfix⟩ := infix_of_object hinfix
    obtain ⟨m, hm, rfl⟩ := List.mem_map.mp hseg
    obtain ⟨⟨k', f⟩, hf, rfl⟩ := List.mem_map.mp hm
    obtain ⟨ts, hts⟩ := Option.ne_none_iff_exists'.mp (hfield k' f hf)
    rw [memberTokens, hts] at hinfix
    exact not_infix_memberTokens h hs hplain (fun k' s' hs' hp => hmax (k', s') ⟨hs', hp⟩) hf hts
      hinfix
  rintro ⟨k, f⟩ hf
  cases f with
  | word w => trivial
  | raw s => exact hplain k s hf
  | escaped s =>
    by_contra hnot
    have hnone : tokens (quoted (escape s)) = none := by
      rw [tokens_escape]
      exact if_neg hnot
    exact hfield k _ hf hnone

end AbacMiddleLayer.Json
