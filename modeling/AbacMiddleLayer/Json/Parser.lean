import AbacMiddleLayer.Json.Lexer
import AbacMiddleLayer.Tsv

/-! # JSON values

The grammar of `json.loads` over tokens. The recursion has a bound, for which the number of
tokens is always enough. An object keeps its pairs in their order; of two pairs with one key
the last counts.
-/
namespace AbacMiddleLayer.Json

inductive Value where
  | scalar (s : Scalar)
  | array (vs : List Value)
  | object (pairs : List (List ℕ × Value))

mutual

def parseValue : ℕ → List Token → Option (Value × List Token)
  | _ + 1, .scalar s :: ts => some (.scalar s, ts)
  | _ + 1, .mark .leftBracket :: .mark .rightBracket :: ts => some (.array [], ts)
  | n + 1, .mark .leftBracket :: ts => (parseElements n ts).map fun r => (.array r.1, r.2)
  | _ + 1, .mark .leftBrace :: .mark .rightBrace :: ts => some (.object [], ts)
  | n + 1, .mark .leftBrace :: ts => (parseMembers n ts).map fun r => (.object r.1, r.2)
  | _, _ => none

def parseElements : ℕ → List Token → Option (List Value × List Token)
  | n + 1, ts =>
    match parseValue n ts with
    | some (v, .mark .comma :: ts) => (parseElements n ts).map fun r => (v :: r.1, r.2)
    | some (v, .mark .rightBracket :: ts) => some ([v], ts)
    | _ => none
  | _, _ => none

def parseMembers : ℕ → List Token → Option (List (List ℕ × Value) × List Token)
  | n + 1, .scalar (.str k) :: .mark .colon :: ts =>
    match parseValue n ts with
    | some (v, .mark .comma :: ts) => (parseMembers n ts).map fun r => ((k, v) :: r.1, r.2)
    | some (v, .mark .rightBrace :: ts) => some ([(k, v)], ts)
    | _ => none
  | _, _ => none

end

/-- Python's `json.loads`; `none` is a `JSONDecodeError`. -/
def loads (s : Text) : Option Value :=
  match (tokens s).bind fun ts => parseValue (ts.length + 1) ts with
  | some (v, []) => some v
  | _ => none

/-- What a dictionary holds for a key. -/
def Value.field (k : Text) : Value → Option Value
  | .object pairs => pairs.reverse.lookup (codes k)
  | _ => none

/-- The tokens that are left stand behind at least one that was read. -/
def Leaves (ts rest : List Token) : Prop := ∃ t, t :: rest <:+ ts

namespace Leaves
variable {ts us rest : List Token} {t : Token}

theorem suffix (h : Leaves ts rest) : rest <:+ ts := by
  obtain ⟨t, ht⟩ := h
  exact (List.suffix_cons t rest).trans ht

theorem length_lt (h : Leaves ts rest) : rest.length < ts.length := by
  obtain ⟨t, ht⟩ := h
  exact ht.length_le

theorem head (t : Token) (ts : List Token) : Leaves (t :: ts) ts := ⟨t, List.suffix_rfl⟩

theorem cons (h : Leaves ts rest) (t : Token) : Leaves (t :: ts) rest := by
  obtain ⟨u, hu⟩ := h
  exact ⟨u, hu.trans (List.suffix_cons t ts)⟩

theorem tail (h : Leaves ts (t :: rest)) : Leaves ts rest := ⟨t, h.suffix⟩

theorem trans (h : Leaves ts us) (h' : Leaves us rest) : Leaves ts rest := by
  obtain ⟨u, hu⟩ := h'
  exact ⟨u, hu.trans h.suffix⟩

end Leaves

theorem leaves_of_parse (n : ℕ) :
    (∀ ts v rest, parseValue n ts = some (v, rest) → Leaves ts rest) ∧
      (∀ ts vs rest, parseElements n ts = some (vs, rest) → Leaves ts rest) ∧
      ∀ ts ps rest, parseMembers n ts = some (ps, rest) → Leaves ts rest := by
  induction n with
  | zero =>
    refine ⟨fun ts v rest h => ?_, fun ts v rest h => ?_, fun ts v rest h => ?_⟩
    · simp [parseValue] at h
    · simp [parseElements] at h
    · simp [parseMembers] at h
  | succ n ih =>
    obtain ⟨hvalue, helements, hmembers⟩ := ih
    refine ⟨fun ts v rest h => ?_, fun ts v rest h => ?_, fun ts v rest h => ?_⟩
    · unfold parseValue at h
      split at h
      · cases h
        exact .head _ _
      · cases h
        exact (Leaves.head _ _).cons _
      · next heq =>
        obtain ⟨r, hr, he⟩ := Option.map_eq_some_iff.mp h
        cases he
        cases heq
        exact (helements _ _ _ hr).cons _
      · cases h
        exact (Leaves.head _ _).cons _
      · next heq =>
        obtain ⟨r, hr, he⟩ := Option.map_eq_some_iff.mp h
        cases he
        cases heq
        exact (hmembers _ _ _ hr).cons _
      · cases h
    · rw [parseElements] at h
      split at h
      · next w us hw =>
        obtain ⟨r, hr, he⟩ := Option.map_eq_some_iff.mp h
        cases he
        exact (hvalue _ _ _ hw).tail.trans (helements _ _ _ hr)
      · next w us hw =>
        cases h
        exact (hvalue _ _ _ hw).tail
      · cases h
    · unfold parseMembers at h
      split at h
      · next n' k us heq =>
        cases heq
        split at h
        · next w us hw =>
          obtain ⟨r, hr, he⟩ := Option.map_eq_some_iff.mp h
          cases he
          exact (((hvalue _ _ _ hw).tail.trans (hmembers _ _ _ hr)).cons _).cons _
        · next w us hw =>
          cases h
          exact ((hvalue _ _ _ hw).tail.cons _).cons _
        · cases h
      · cases h

/-- What is read with some bound is read with every bound that the tokens read allow. -/
theorem parse_of_length_le (m : ℕ) :
    (∀ ts v rest, parseValue m ts = some (v, rest) → ∀ n, ts.length ≤ n + rest.length →
      parseValue n ts = some (v, rest)) ∧
    (∀ ts vs rest, parseElements m ts = some (vs, rest) → ∀ n, ts.length ≤ n + rest.length →
      parseElements n ts = some (vs, rest)) ∧
    ∀ ts ps rest, parseMembers m ts = some (ps, rest) → ∀ n, ts.length ≤ n + rest.length →
      parseMembers n ts = some (ps, rest) := by
  induction m with
  | zero =>
    refine ⟨fun ts v rest h => ?_, fun ts v rest h => ?_, fun ts v rest h => ?_⟩
    · simp [parseValue] at h
    · simp [parseElements] at h
    · simp [parseMembers] at h
  | succ m ih =>
    obtain ⟨hvalue, helements, hmembers⟩ := ih
    obtain ⟨hleaves, hleaves', hleaves''⟩ := leaves_of_parse m
    refine ⟨fun ts v rest h n hn => ?_, fun ts v rest h n hn => ?_, fun ts v rest h n hn => ?_⟩
    · have hlt := ((leaves_of_parse (m + 1)).1 _ _ _ h).length_lt
      obtain ⟨n, rfl⟩ : ∃ k, n = k + 1 := ⟨n - 1, by omega⟩
      unfold parseValue at h
      split at h
      · cases h
        rfl
      · cases h
        rfl
      · next us hne heq =>
        cases heq
        obtain ⟨r, hr, he⟩ := Option.map_eq_some_iff.mp h
        cases he
        rw [List.length_cons] at hn
        rw [parseValue, helements _ _ _ hr n (by omega)]
        · rfl
        · exact hne
      · cases h
        rfl
      · next us hne heq =>
        cases heq
        obtain ⟨r, hr, he⟩ := Option.map_eq_some_iff.mp h
        cases he
        rw [List.length_cons] at hn
        rw [parseValue, hmembers _ _ _ hr n (by omega)]
        · rfl
        · exact hne
      · cases h
    · have hlt := ((leaves_of_parse (m + 1)).2.1 _ _ _ h).length_lt
      obtain ⟨n, rfl⟩ : ∃ k, n = k + 1 := ⟨n - 1, by omega⟩
      rw [parseElements] at h ⊢
      split at h
      · next w us hw =>
        obtain ⟨r, hr, he⟩ := Option.map_eq_some_iff.mp h
        cases he
        have hus := (hleaves _ _ _ hw).length_lt
        have hrest := (hleaves' _ _ _ hr).length_lt
        rw [List.length_cons] at hus
        rw [hvalue _ _ _ hw n (by rw [List.length_cons]; omega)]
        simp only [helements _ _ _ hr n (by omega)]
        rfl
      · next w us hw =>
        cases h
        rw [hvalue _ _ _ hw n (by rw [List.length_cons]; omega)]
      · cases h
    · have hlt := ((leaves_of_parse (m + 1)).2.2 _ _ _ h).length_lt
      obtain ⟨n, rfl⟩ : ∃ k, n = k + 1 := ⟨n - 1, by omega⟩
      unfold parseMembers at h
      split at h
      · next k us heq =>
        cases heq
        rw [List.length_cons, List.length_cons] at hn
        rw [parseMembers]
        split at h
        · next w vs hw =>
          obtain ⟨r, hr, he⟩ := Option.map_eq_some_iff.mp h
          cases he
          have hus := (hleaves _ _ _ hw).length_lt
          have hrest := (hleaves'' _ _ _ hr).length_lt
          rw [List.length_cons] at hus
          rw [hvalue _ _ _ hw n (by rw [List.length_cons]; omega)]
          simp only [hmembers _ _ _ hr n (by omega)]
          rfl
        · next w vs hw =>
          cases h
          rw [hvalue _ _ _ hw n (by rw [List.length_cons]; omega)]
        · cases h
      · cases h

/-- The bound of `loads` is never what makes it fail. -/
theorem parseValue_bound {m : ℕ} {ts : List Token} {v : Value}
    (h : parseValue m ts = some (v, [])) : parseValue (ts.length + 1) ts = some (v, []) :=
  (parse_of_length_le m).1 ts v [] h _ (Nat.le_succ _)

/-- The tokens of a pair with a string for its value. -/
def stringPair (k s : List ℕ) : List Token :=
  [.scalar (.str k), .mark .colon, .scalar (.str s)]

theorem parseValue_eq_str {n : ℕ} {ts rest : List Token} {s : List ℕ}
    (h : parseValue n ts = some (.scalar (.str s), rest)) : ts = .scalar (.str s) :: rest := by
  unfold parseValue at h
  split at h
  · cases h
    rfl
  · cases h
  · obtain ⟨r, -, he⟩ := Option.map_eq_some_iff.mp h
    cases he
  · cases h
  · obtain ⟨r, -, he⟩ := Option.map_eq_some_iff.mp h
    cases he
  · cases h

theorem infix_of_parseMembers {n : ℕ} {ts rest : List Token} {ps : List (List ℕ × Value)}
    (h : parseMembers n ts = some (ps, rest)) {k s : List ℕ}
    (hmem : (k, .scalar (.str s)) ∈ ps) : stringPair k s <:+: ts := by
  induction n generalizing ts ps with
  | zero => simp [parseMembers] at h
  | succ n ih =>
    unfold parseMembers at h
    split at h
    · next n' k' us heq =>
      cases heq
      have hfirst {v : Value} {vs : List Token} (hv : parseValue n us = some (v, vs))
          (he : (k, Value.scalar (.str s)) = (k', v)) :
          stringPair k s <:+: .scalar (.str k') :: .mark .colon :: us := by
        obtain ⟨rfl, rfl⟩ := Prod.mk.inj he
        rw [parseValue_eq_str hv]
        exact ⟨[], vs, rfl⟩
      split at h
      · next w vs hw =>
        obtain ⟨r, hr, he⟩ := Option.map_eq_some_iff.mp h
        cases he
        rcases List.mem_cons.mp hmem with hmem | hmem
        · exact hfirst hw hmem
        · have hleaves : Leaves (.scalar (.str k') :: .mark .colon :: us) vs :=
            (((leaves_of_parse n).1 _ _ _ hw).tail.cons _).cons _
          exact (ih hr hmem).trans hleaves.suffix.isInfix
      · next w vs hw =>
        cases h
        exact hfirst hw (List.mem_singleton.mp hmem)
      · cases h
    · cases h

/-- A string that is read stands, with its key, among the tokens. -/
theorem exists_infix_of_field {t k : Text} {v : Value} {s : List ℕ} (h : loads t = some v)
    (hk : v.field k = some (.scalar (.str s))) :
    ∃ ts, tokens t = some ts ∧ stringPair (codes k) s <:+: ts := by
  unfold loads at h
  split at h
  · next w hw =>
    cases h
    obtain ⟨ts, hts, hparse⟩ := Option.bind_eq_some_iff.mp hw
    refine ⟨ts, hts, ?_⟩
    cases v with
    | scalar s => cases hk
    | array vs => cases hk
    | object ps =>
      have hmem : (codes k, Value.scalar (.str s)) ∈ ps := by
        obtain ⟨a, b, hps, -⟩ := List.lookup_eq_some_iff.mp hk
        rw [← List.mem_reverse, hps]
        simp
      unfold parseValue at hparse
      split at hparse
      · cases hparse
      · cases hparse
      · obtain ⟨r, -, he⟩ := Option.map_eq_some_iff.mp hparse
        cases he
      · cases hparse
        cases hmem
      · next n us _ _ _ =>
        obtain ⟨⟨qs, rest⟩, hr, he⟩ := Option.map_eq_some_iff.mp hparse
        cases he
        exact (infix_of_parseMembers hr hmem).trans (List.suffix_cons _ _).isInfix
      · cases hparse
  · cases h

/-- The tokens of pairs with scalar values. -/
def flatTokens (ps : List (List ℕ × Scalar)) : List Token :=
  [.mark .comma].intercalate (ps.map fun p => [.scalar (.str p.1), .mark .colon, .scalar p.2])

theorem parseMembers_flat {ps : List (List ℕ × Scalar)} (hne : ps ≠ []) {n : ℕ}
    (hn : ps.length < n) (rest : List Token) :
    parseMembers n (flatTokens ps ++ .mark .rightBrace :: rest) =
      some (ps.map fun p => (p.1, .scalar p.2), rest) := by
  induction ps generalizing n with
  | nil => exact absurd rfl hne
  | cons p ps ih =>
    obtain ⟨n, rfl⟩ : ∃ m, n = m + 2 := ⟨n - 2, by
      simp only [List.length_cons] at hn
      omega⟩
    cases ps with
    | nil => simp [flatTokens, parseMembers, parseValue]
    | cons q ps =>
      have htokens : flatTokens (p :: q :: ps) =
          .scalar (.str p.1) :: .mark .colon :: .scalar p.2 :: .mark .comma ::
            flatTokens (q :: ps) := by
        simp [flatTokens, List.intercalate]
      have hrest := ih (n := n + 1) (by simp) (by simpa using hn)
      rw [htokens]
      simp only [List.cons_append, parseMembers, parseValue, hrest]
      rfl

theorem parseValue_flat {ps : List (List ℕ × Scalar)} (hne : ps ≠ []) :
    parseValue (ps.length + 2) (.mark .leftBrace :: flatTokens ps ++ [.mark .rightBrace]) =
      some (.object (ps.map fun p => (p.1, .scalar p.2)), []) := by
  have hmembers := parseMembers_flat hne (Nat.lt_succ_self _) []
  obtain ⟨p, ps, rfl⟩ := List.exists_cons_of_ne_nil hne
  obtain ⟨us, hus⟩ : ∃ us, flatTokens (p :: ps) = .scalar (.str p.1) :: us := by
    cases ps with
    | nil => exact ⟨_, rfl⟩
    | cons q ps => exact ⟨_, rfl⟩
  rw [hus] at hmembers ⊢
  rw [List.cons_append, List.cons_append, parseValue, ← List.cons_append, hmembers]
  · rfl
  · simp

/-- An object of scalars is loaded with its pairs. -/
theorem loads_flat {t : Text} {ps : List (List ℕ × Scalar)} (hne : ps ≠ [])
    (h : tokens t = some (.mark .leftBrace :: flatTokens ps ++ [.mark .rightBrace])) :
    loads t = some (.object (ps.map fun p => (p.1, .scalar p.2))) := by
  rw [loads, h, Option.bind_some, parseValue_bound (parseValue_flat hne)]

theorem field_flat {ps : List (List ℕ × Scalar)} (hnodup : (ps.map Prod.fst).Nodup) {k : Text}
    {x : Scalar} (h : (codes k, x) ∈ ps) :
    (Value.object (ps.map fun p => (p.1, .scalar p.2))).field k = some (.scalar x) := by
  apply Tsv.lookup_of_mem
  · rw [List.map_reverse, List.nodup_reverse, List.map_map]
    exact hnodup
  · rw [List.mem_reverse]
    exact List.mem_map.mpr ⟨(codes k, x), h, rfl⟩

end AbacMiddleLayer.Json
