import AbacMiddleLayer.Corpus.Casbin
import AbacMiddleLayer.Xacml.PolicyLines

/-! # The decoys of `generate-corpus.py`

`_generate_decoy_specs` draws its values from pools with a generator that it seeds anew on every
call. Whatever numbers the generator produces, the decoys of a tier are the first ones of every
larger tier, and every value comes from its pool.
-/
namespace AbacMiddleLayer.Corpus
open Xacml Xml

/-- `random.Random`: a state for each seed, and the method `_randbelow` that `choice` and `randint`
call. -/
structure RandomSource (σ : Type) where
  ofSeed : ℕ → σ
  randbelow : ℕ → σ → ℕ × σ
  randbelow_lt {n : ℕ} (h : 0 < n) (s : σ) : (randbelow n s).1 < n

def decoyRandomSeed : ℕ := 260825

def decoyDepartments : List String :=
  ["ComputerScience", "Engineering", "Business", "Law", "Medicine", "Psychology",
    "Chemistry", "Physics", "Mathematics", "Biology", "ArtsAndHumanities",
    "Architecture", "Nursing", "Pharmacy", "Education"]

def decoyRoles : List String :=
  ["student", "lecturer", "ta", "advisor", "admin", "dean", "registrar",
    "researcher", "postdoc", "technician"]

def decoyNetworks : List String := ["campus", "vpn", "external", "mobile-data", "guest-wifi"]

def decoyActions : List String := ["SELECT", "UPDATE", "DELETE"]

section Drawing
variable {σ : Type} (R : RandomSource σ)

def choice (xs : List String) (s : σ) : String × σ :=
  let r := R.randbelow xs.length s
  (xs.getD r.1 "", r.2)

def randint (a b : ℤ) (s : σ) : ℤ × σ :=
  let r := R.randbelow (b - a + 1).toNat s
  (a + r.1, r.2)

/-- The spec of a turn; the shapes take turns. -/
def drawSpec (i : ℕ) (s : σ) : DecoySpec × σ :=
  if i % 3 = 0 then
    let role := choice R decoyRoles s
    let network := choice R decoyNetworks role.2
    (.roleNetwork role.1 network.1, network.2)
  else if i % 3 = 1 then
    let department := choice R decoyDepartments s
    let threshold := randint R 1 4 department.2
    (.deptClearance department.1 threshold.1, threshold.2)
  else
    let action := choice R decoyActions s
    let threshold := randint R 0 23 action.2
    (.actionHour action.1 threshold.1, threshold.2)

/-- The specs of `n` turns from turn `i` on. -/
def drawSpecs : ℕ → ℕ → σ → List DecoySpec
  | _, 0, _ => []
  | i, n + 1, s => (drawSpec R i s).1 :: drawSpecs (i + 1) n (drawSpec R i s).2

def generateDecoySpecs (numDecoys : ℕ) : List DecoySpec :=
  drawSpecs R 0 numDecoys (R.ofSeed decoyRandomSeed)

theorem choice_mem {xs : List String} (h : 0 < xs.length) (s : σ) : (choice R xs s).1 ∈ xs := by
  have hlt := R.randbelow_lt h s
  rw [choice, List.getD_eq_getElem?_getD, List.getElem?_eq_getElem hlt]
  exact List.getElem_mem hlt

theorem randint_bounds {a b : ℤ} (h : a ≤ b) (s : σ) :
    a ≤ (randint R a b s).1 ∧ (randint R a b s).1 ≤ b := by
  have hlt := R.randbelow_lt (n := (b - a + 1).toNat) (by omega) s
  rw [randint]
  omega

/-- A spec with the shape of its turn and values from the pools. -/
def DecoySpec.Drawn (i : ℕ) : DecoySpec → Prop
  | .roleNetwork role network => i % 3 = 0 ∧ role ∈ decoyRoles ∧ network ∈ decoyNetworks
  | .deptClearance department threshold =>
    i % 3 = 1 ∧ department ∈ decoyDepartments ∧ 1 ≤ threshold ∧ threshold ≤ 4
  | .actionHour action threshold =>
    i % 3 = 2 ∧ action ∈ decoyActions ∧ 0 ≤ threshold ∧ threshold ≤ 23

theorem drawSpec_drawn (i : ℕ) (s : σ) : (drawSpec R i s).1.Drawn i := by
  unfold drawSpec
  split_ifs with h₀ h₁
  · exact ⟨h₀, choice_mem R (by decide) _, choice_mem R (by decide) _⟩
  · exact ⟨h₁, choice_mem R (by decide) _, randint_bounds R (by decide) _⟩
  · exact ⟨by omega, choice_mem R (by decide) _, randint_bounds R (by decide) _⟩

theorem drawSpecs_drawn (i n : ℕ) (s : σ) {k : ℕ} {spec : DecoySpec}
    (h : (drawSpecs R i n s)[k]? = some spec) : spec.Drawn (i + k) := by
  induction n generalizing i s k with
  | zero => simp [drawSpecs] at h
  | succ n ih =>
    rw [drawSpecs] at h
    cases k with
    | zero =>
      cases h
      exact drawSpec_drawn R i s
    | succ k =>
      rw [List.getElem?_cons_succ] at h
      have hk := ih (i + 1) _ h
      rwa [Nat.add_right_comm] at hk

/-- A longer run from the same state starts with the shorter one. -/
theorem drawSpecs_take (i m k : ℕ) (s : σ) :
    (drawSpecs R i (m + k) s).take m = drawSpecs R i m s := by
  induction m generalizing i s with
  | zero => rfl
  | succ m ih => rw [Nat.succ_add, drawSpecs, drawSpecs, List.take_succ_cons, ih]

theorem generateDecoySpecs_prefix {m n : ℕ} (h : m ≤ n) :
    generateDecoySpecs R m <+: generateDecoySpecs R n := by
  obtain ⟨k, rfl⟩ := Nat.exists_eq_add_of_le h
  rw [generateDecoySpecs, ← drawSpecs_take R 0 m k]
  exact List.take_prefix _ _

end Drawing

/-- A reader finds the value where the string is spliced between two tags. -/
structure Spliced (raw value : String) : Prop where
  reads : Reads raw.toList value.toList
  noCr : '\r' ∉ raw.toList

/-- A reader finds the strings of the second spec where those of the first are spliced. -/
inductive DecoySpec.ReadAs : DecoySpec → DecoySpec → Prop
  | roleNetwork {role network role' network' : String} (hrole : Spliced role role')
    (hnetwork : Spliced network network') : ReadAs (.roleNetwork role network) (.roleNetwork role' network')
  | deptClearance {department department' : String} (threshold : ℤ)
    (hdepartment : Spliced department department') :
    ReadAs (.deptClearance department threshold) (.deptClearance department' threshold)
  | actionHour {action action' : String} (threshold : ℤ) (haction : Spliced action action') :
    ReadAs (.actionHour action threshold) (.actionHour action' threshold)

/-- The string can be spliced between two tags: no tag begins in it, every `&` in it begins a
reference, `]]>` is not in it, and neither is a carriage return or a character that XML refuses. -/
def CharacterData (raw : String) : Prop := ∃ value, Spliced raw value

def DecoySpec.CharacterData : DecoySpec → Prop
  | .roleNetwork role network => Corpus.CharacterData role ∧ Corpus.CharacterData network
  | .deptClearance department _ => Corpus.CharacterData department
  | .actionHour action _ => Corpus.CharacterData action

theorem DecoySpec.CharacterData.exists_readAs {spec : DecoySpec} (h : spec.CharacterData) :
    ∃ spec', spec.ReadAs spec' := by
  cases spec with
  | roleNetwork role network =>
    obtain ⟨⟨role', hrole⟩, network', hnetwork⟩ := h
    exact ⟨_, .roleNetwork hrole hnetwork⟩
  | deptClearance department threshold =>
    obtain ⟨department', hdepartment⟩ := h
    exact ⟨_, .deptClearance threshold hdepartment⟩
  | actionHour action threshold =>
    obtain ⟨action', haction⟩ := h
    exact ⟨_, .actionHour threshold haction⟩

theorem exists_forall₂_readAs {specs : List DecoySpec} (h : ∀ spec ∈ specs, spec.CharacterData) :
    ∃ specs', List.Forall₂ DecoySpec.ReadAs specs specs' := by
  induction specs with
  | nil => exact ⟨[], .nil⟩
  | cons spec specs ih =>
    rw [List.forall_mem_cons] at h
    obtain ⟨spec', hspec⟩ := h.1.exists_readAs
    obtain ⟨specs', hspecs⟩ := ih h.2
    exact ⟨spec' :: specs', .cons hspec hspecs⟩

theorem spliced_of_plain {s : String} (h : PlainText s.toList) : Spliced s s := ⟨h, h.noCr⟩

theorem plainText_pool {s : String}
    (h : s ∈ decoyRoles ++ decoyNetworks ++ decoyDepartments ++ decoyActions) :
    PlainText s.toList := by
  simp only [decoyRoles, decoyNetworks, decoyDepartments, decoyActions, List.cons_append,
    List.nil_append, List.mem_cons, List.not_mem_nil, or_false] at h
  apply plainText_of_chars
  repeat' rcases h with rfl | h
  all_goals exact forall_toList (by decide)

/-- What is drawn from the pools stands for itself in a document. -/
theorem DecoySpec.Drawn.readAs {i : ℕ} {spec : DecoySpec} (h : spec.Drawn i) : spec.ReadAs spec := by
  have hpool {s : String}
      (hs : s ∈ decoyRoles ++ decoyNetworks ++ decoyDepartments ++ decoyActions) : Spliced s s :=
    spliced_of_plain (plainText_pool hs)
  cases spec with
  | roleNetwork role network => exact .roleNetwork (hpool (by simp [h.2.1])) (hpool (by simp [h.2.2]))
  | deptClearance department threshold => exact .deptClearance threshold (hpool (by simp [h.2.1]))
  | actionHour action threshold => exact .actionHour threshold (hpool (by simp [h.2.1]))

theorem generateDecoySpecs_readAs {σ : Type} (R : RandomSource σ) (n : ℕ) :
    List.Forall₂ DecoySpec.ReadAs (generateDecoySpecs R n) (generateDecoySpecs R n) := by
  rw [List.forall₂_same]
  intro spec hspec
  obtain ⟨k, hk⟩ := List.mem_iff_getElem?.mp hspec
  exact (drawSpecs_drawn R 0 n _ hk).readAs

end AbacMiddleLayer.Corpus
