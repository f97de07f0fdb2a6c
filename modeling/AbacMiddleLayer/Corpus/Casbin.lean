import AbacMiddleLayer.Corpus.ReferencePolicy

/-! # The Casbin model

The matcher of `casbin-model.conf` as an expression over the request and the policy
row at hand, and enforcement with the effect `some(where (p.eft == allow))`. No row
of `policy.csv` names an effect, so each row that matches allows.
-/
namespace AbacMiddleLayer.Corpus
open Xacml

/-- A row of `policy.csv`, as `p = sub, obj, act` declares it. -/
structure PolicyRow where
  sub : String
  obj : String
  act : String
deriving DecidableEq, Repr

inductive PolicyField where
  | sub
  | obj
  | act
deriving DecidableEq, Repr

def PolicyRow.get (row : PolicyRow) : PolicyField → String
  | .sub => row.sub
  | .obj => row.obj
  | .act => row.act

/-- A member of the request, a string of the policy row, or a literal. -/
inductive Term : DataType → Type where
  | request {d : DataType} (a : Attribute) : Term d
  | policy (f : PolicyField) : Term .string
  | literal {d : DataType} (v : d.Carrier) : Term d

inductive Matcher where
  | eq (x y : Term .string)
  | ge (x y : Term .integer)
  | inrange (low x high : Term .integer)
  | and (x y : Matcher)
  | or (x y : Matcher)

/-- An absent member is taken to be an error of the evaluator. -/
def Term.eval (r : Request Attribute) (row : PolicyRow) {d : DataType} : Term d → Option d.Carrier
  | .request a => r d a
  | .policy f => some (row.get f)
  | .literal v => some v

def Matcher.eval (m : OnError) (r : Request Attribute) (row : PolicyRow) : Matcher → Truth
  | .eq x y => (x.eval r row).bind fun u => (y.eval r row).map fun v => u == v
  | .ge x y => (x.eval r row).bind fun u => (y.eval r row).map fun v => decide (u ≥ v)
  | .inrange low x high =>
    (low.eval r row).bind fun l => (x.eval r row).bind fun u =>
      (high.eval r row).map fun h => decide (l ≤ u ∧ u ≤ h)
  | .and x y => conj m (x.eval m r row) (y.eval m r row)
  | .or x y => disj m (x.eval m r row) (y.eval m r row)

def Term.readsPolicy {d : DataType} : Term d → Bool
  | .policy _ => true
  | _ => false

def Matcher.readsPolicy : Matcher → Bool
  | .eq x y => x.readsPolicy || y.readsPolicy
  | .ge x y => x.readsPolicy || y.readsPolicy
  | .inrange low x high => low.readsPolicy || x.readsPolicy || high.readsPolicy
  | .and x y => x.readsPolicy || y.readsPolicy
  | .or x y => x.readsPolicy || y.readsPolicy

theorem Term.eval_row {d : DataType} {x : Term d} (h : x.readsPolicy = false)
    (r : Request Attribute) (row row' : PolicyRow) : x.eval r row = x.eval r row' := by
  cases x with
  | request a => rfl
  | policy f => cases h
  | literal v => rfl

/-- A matcher that reads no field of the policy says the same of every row. -/
theorem Matcher.eval_row {e : Matcher} (h : e.readsPolicy = false) (m : OnError)
    (r : Request Attribute) (row row' : PolicyRow) : e.eval m r row = e.eval m r row' := by
  induction e with
  | eq x y =>
    rw [Matcher.readsPolicy, Bool.or_eq_false_iff] at h
    rw [Matcher.eval, Matcher.eval, Term.eval_row h.1 r row row', Term.eval_row h.2 r row row']
  | ge x y =>
    rw [Matcher.readsPolicy, Bool.or_eq_false_iff] at h
    rw [Matcher.eval, Matcher.eval, Term.eval_row h.1 r row row', Term.eval_row h.2 r row row']
  | inrange low x high =>
    rw [Matcher.readsPolicy, Bool.or_eq_false_iff, Bool.or_eq_false_iff] at h
    rw [Matcher.eval, Matcher.eval, Term.eval_row h.1.1 r row row',
      Term.eval_row h.1.2 r row row', Term.eval_row h.2 r row row']
  | and x y ihx ihy =>
    rw [Matcher.readsPolicy, Bool.or_eq_false_iff] at h
    rw [Matcher.eval, Matcher.eval, ihx h.1, ihy h.2]
  | or x y ihx ihy =>
    rw [Matcher.readsPolicy, Bool.or_eq_false_iff] at h
    rw [Matcher.eval, Matcher.eval, ihx h.1, ihy h.2]

/-- Enforcement over the rows in order; an error of the evaluator ends it. -/
def enforce (m : OnError) (e : Matcher) (r : Request Attribute) : List PolicyRow → Option Bool
  | [] => some false
  | row :: rows => (e.eval m r row).bind fun matched =>
      (enforce m e r rows).map fun allowed => matched || allowed

theorem enforce_const {m : OnError} {e : Matcher} {r : Request Attribute} {t : Truth}
    {rows : List PolicyRow} (h : ∀ row ∈ rows, e.eval m r row = t) (hne : rows ≠ []) :
    enforce m e r rows = t := by
  induction rows with
  | nil => exact absurd rfl hne
  | cons row rows ih =>
    rw [enforce, h row (by simp)]
    by_cases hrows : rows = []
    · subst hrows
      cases t <;> simp [enforce]
    · rw [ih (fun row' hrow' => h row' (by simp [hrow'])) hrows]
      cases t <;> simp

/-- Rows behind the first change nothing under a matcher that reads no field of them. -/
theorem enforce_append_rows {e : Matcher} (h : e.readsPolicy = false) (m : OnError)
    (r : Request Attribute) (base : PolicyRow) (rows : List PolicyRow) :
    enforce m e r (base :: rows) = enforce m e r [base] := by
  rw [enforce_const (fun row _ => Matcher.eval_row h m r row base) (List.cons_ne_nil base rows),
    enforce_const (fun row _ => Matcher.eval_row h m r row base) (List.cons_ne_nil base [])]

def networkIn : Matcher :=
  .or (.eq (.request .envNetwork) (.literal "campus")) (.eq (.request .envNetwork) (.literal "vpn"))

def hourIn : Matcher := .inrange (.literal (8 : ℤ)) (.request .envHour) (.literal (20 : ℤ))

def actionIs (action : String) : Matcher := .eq (.request .action) (.literal action)

def selectOrUpdate : Matcher := .or (actionIs "SELECT") (actionIs "UPDATE")

def adminClause : Matcher :=
  .and (.and (.and (.eq (.request .subjectRole) (.literal "admin")) selectOrUpdate) networkIn)
    hourIn

def ownerClause : Matcher :=
  .and (.and (.and (.eq (.request .resourceOwner) (.request .subjectId)) (actionIs "SELECT"))
    networkIn) hourIn

def lecturerClause : Matcher :=
  .and (.and (.and (.and (.and (.eq (.request .subjectRole) (.literal "lecturer"))
    (.eq (.request .subjectDepartment) (.request .resourceDepartment)))
    (.ge (.request .subjectClearance) (.request .resourceClassification)))
    selectOrUpdate) networkIn) hourIn

/-- The expression `m` of the section `[matchers]`. -/
def courseScoreMatcher : Matcher := .or (.or adminClause ownerClause) lecturerClause

def baseRow : PolicyRow := ⟨"any_sub", "any_obj", "any_act"⟩

/-- The row that `_casbin_decoy_row` writes. -/
def casbinDecoyRow (i : ℕ) : DecoySpec → PolicyRow
  | .roleNetwork role network =>
    ⟨"decoy_" ++ role ++ "_" ++ fiveDigits i, "decoy_net_" ++ network ++ "_" ++ fiveDigits i,
      "DECOY"⟩
  | .deptClearance department threshold =>
    ⟨"decoy_clr" ++ toString threshold ++ "_" ++ fiveDigits i,
      "decoy_" ++ department ++ "_" ++ fiveDigits i, "DECOY"⟩
  | .actionHour action threshold =>
    ⟨"decoy_hr" ++ toString threshold ++ "_" ++ fiveDigits i, "decoy_obj_" ++ fiveDigits i, action⟩

def casbinDecoyRows (specs : List DecoySpec) : List PolicyRow := specs.mapIdx casbinDecoyRow

theorem courseScoreMatcher_readsPolicy : courseScoreMatcher.readsPolicy = false := by decide

end AbacMiddleLayer.Corpus
