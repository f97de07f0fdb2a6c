import AbacMiddleLayer.Xacml.Truth

/-! # Requests, targets, conditions and rules

The syntax follows the policy language: a target is a conjunction of
disjunctions of conjunctions of matches, a condition is a tree of function
applications over literals and designators, and a rule carries its effect. The
type `A` of attribute names (category and identifier together) is arbitrary.
A request gives each attribute at most one value of each data type.
-/
namespace AbacMiddleLayer.Xacml

inductive DataType where
  | string
  | integer
deriving DecidableEq, Repr

abbrev DataType.Carrier : DataType → Type
  | .string => String
  | .integer => ℤ

instance : (d : DataType) → DecidableEq d.Carrier
  | .string => inferInstanceAs (DecidableEq String)
  | .integer => inferInstanceAs (DecidableEq ℤ)

/-- The bag of an attribute, of at most one value. -/
abbrev Request (A : Type) := (d : DataType) → A → Option d.Carrier

variable {A : Type}

/-- A designator yields a bag; an absent attribute that must be present is
Indeterminate, any other absent attribute is the empty bag. -/
def designate (r : Request A) (d : DataType) (a : A) (mustBePresent : Bool) :
    Option (Option d.Carrier) :=
  match r d a with
  | some v => some (some v)
  | none => if mustBePresent then none else some none

/-- The `one-and-only` functions fail on an empty bag. -/
def oneAndOnly {α : Type} (bag : Option (Option α)) : Option α := bag.join

/-- A `string-equal` match of a literal against a designator. -/
structure Match (A : Type) where
  value : String
  attr : A
  mustBePresent : Bool
deriving DecidableEq, Repr

abbrev AllOf (A : Type) := List (Match A)
abbrev AnyOf (A : Type) := List (AllOf A)

/-- A target of version 3.0; the empty target matches every request. -/
abbrev Target (A : Type) := List (AnyOf A)

/-- A target of version 2.0: four sections, each matching everything when it is omitted. -/
structure Target2 (A : Type) where
  subjects : Option (AnyOf A) := none
  resources : Option (AnyOf A) := none
  actions : Option (AnyOf A) := none
  environments : Option (AnyOf A) := none
deriving DecidableEq, Repr

inductive Operand (A : Type) (d : DataType) where
  | literal (v : d.Carrier)
  | designator (a : A) (mustBePresent : Bool)

inductive Comparison where
  | greaterThanOrEqual
  | lessThanOrEqual
  | lessThan
deriving DecidableEq, Repr

inductive Condition (A : Type) where
  | stringEqual (x y : Operand A .string)
  | integerCompare (c : Comparison) (x y : Operand A .integer)
  | and (x y : Condition A)
  | or (x y : Condition A)

inductive Effect where
  | permit
  | deny
deriving DecidableEq, Repr

/-- A rule over targets of type `T`; without a target it has that of its policy. -/
structure Rule (T A : Type) where
  ruleId : String
  effect : Effect
  target : Option T := none
  condition : Option (Condition A) := none

structure Policy (T A : Type) where
  policyId : String
  target : T
  rules : List (Rule T A)

def Match.eval (r : Request A) (m : Match A) : Truth :=
  (designate r .string m.attr m.mustBePresent).map fun bag => bag.any (m.value == ·)

def AllOf.eval (r : Request A) (ms : AllOf A) : Truth := allOf (ms.map (Match.eval r))

def AnyOf.eval (r : Request A) (as : AnyOf A) : Truth := anyOf (as.map (AllOf.eval r))

def Target.eval (r : Request A) (t : Target A) : Truth := allOf (t.map (AnyOf.eval r))

/-- The sections that are present, in the order of the schema. -/
def Target2.sections (t : Target2 A) : Target A :=
  [t.subjects, t.resources, t.actions, t.environments].filterMap id

def Target2.eval (r : Request A) (t : Target2 A) : Truth := Target.eval r t.sections

def Operand.eval (r : Request A) {d : DataType} : Operand A d → Option d.Carrier
  | .literal v => some v
  | .designator a must => oneAndOnly (designate r d a must)

def Comparison.holds : Comparison → ℤ → ℤ → Bool
  | .greaterThanOrEqual, x, y => decide (x ≥ y)
  | .lessThanOrEqual, x, y => decide (x ≤ y)
  | .lessThan, x, y => decide (x < y)

def Condition.eval (m : OnError) (r : Request A) : Condition A → Truth
  | .stringEqual x y => (x.eval r).bind fun u => (y.eval r).map fun v => decide (u = v)
  | .integerCompare c x y => (x.eval r).bind fun u => (y.eval r).map fun v => c.holds u v
  | .and x y => conj m (x.eval m r) (y.eval m r)
  | .or x y => disj m (x.eval m r) (y.eval m r)

/-- The rule table: a rule applies when its target matches and its condition holds; it
is Indeterminate when its target is, or when its target matches and its condition is. -/
def Rule.applies {T : Type} (ev : T → Truth) (m : OnError) (r : Request A) (ρ : Rule T A) :
    Truth :=
  conj .halt ((ρ.target.map ev).getD (some true))
    ((ρ.condition.map (Condition.eval m r)).getD (some true))

theorem oneAndOnly_designate (r : Request A) (d : DataType) (a : A) (must : Bool) :
    oneAndOnly (designate r d a must) = r d a := by
  unfold oneAndOnly designate
  cases hv : r d a with
  | none => cases must <;> rfl
  | some v => rfl

@[simp] theorem Operand.eval_designator (r : Request A) {d : DataType} (a : A) (must : Bool) :
    (Operand.designator a must : Operand A d).eval r = r d a :=
  oneAndOnly_designate r d a must

@[simp] theorem Operand.eval_literal (r : Request A) {d : DataType} (v : d.Carrier) :
    (Operand.literal v : Operand A d).eval r = some v := rfl

/-- A match is true exactly when the attribute is present with the value asked for. -/
theorem Match.eval_eq_true_iff (r : Request A) (m : Match A) :
    m.eval r = some true ↔ r .string m.attr = some m.value := by
  unfold Match.eval designate
  cases hv : r .string m.attr with
  | none => cases m.mustBePresent <;> simp
  | some v =>
    simp only [Option.map_some, Option.any_some, Option.some.injEq, beq_iff_eq]
    exact eq_comm

theorem Match.eval_isSome {r : Request A} {m : Match A} (h : (r .string m.attr).isSome) :
    (m.eval r).isSome := by
  obtain ⟨v, hv⟩ := Option.isSome_iff_exists.mp h
  simp [Match.eval, designate, hv]

theorem AllOf.eval_eq_true_iff (r : Request A) (ms : AllOf A) :
    ms.eval r = some true ↔ ∀ m ∈ ms, r .string m.attr = some m.value := by
  simp [AllOf.eval, allOf_eq_true_iff, Match.eval_eq_true_iff]

theorem AnyOf.eval_eq_true_iff (r : Request A) (as : AnyOf A) :
    as.eval r = some true ↔ ∃ ms ∈ as, ∀ m ∈ ms, r .string m.attr = some m.value := by
  simp [AnyOf.eval, anyOf_eq_true_iff, AllOf.eval_eq_true_iff]

theorem Target.eval_eq_true_iff (r : Request A) (t : Target A) :
    t.eval r = some true ↔
      ∀ as ∈ t, ∃ ms ∈ as, ∀ m ∈ ms, r .string m.attr = some m.value := by
  simp [Target.eval, allOf_eq_true_iff, AnyOf.eval_eq_true_iff]

/-- A target whose attributes are all present is determined. -/
theorem Target.eval_isSome {r : Request A} {t : Target A}
    (h : ∀ as ∈ t, ∀ ms ∈ as, ∀ m ∈ ms, (r .string m.attr).isSome) : (t.eval r).isSome := by
  apply allOf_isSome
  simp only [List.mem_map, forall_exists_index, and_imp]
  rintro _ as has rfl
  apply anyOf_isSome
  simp only [List.mem_map, forall_exists_index, and_imp]
  rintro _ ms hms rfl
  apply allOf_isSome
  simp only [List.mem_map, forall_exists_index, and_imp]
  rintro _ m hm rfl
  exact Match.eval_isSome (h as has ms hms m hm)

/-- The designators of a condition; all of them are read through `one-and-only`. -/
def Operand.Reads {d : DataType} (P : (d : DataType) → A → Prop) : Operand A d → Prop
  | .literal _ => True
  | .designator a _ => P d a

def Condition.Reads (P : (d : DataType) → A → Prop) : Condition A → Prop
  | .stringEqual x y => x.Reads P ∧ y.Reads P
  | .integerCompare _ x y => x.Reads P ∧ y.Reads P
  | .and x y => x.Reads P ∧ y.Reads P
  | .or x y => x.Reads P ∧ y.Reads P

theorem Operand.eval_isSome {r : Request A} {d : DataType} (x : Operand A d)
    (h : x.Reads fun d a => (r d a).isSome) : (x.eval r).isSome := by
  cases x with
  | literal v => rfl
  | designator a must => simpa [Operand.Reads] using h

/-- A condition all of whose attributes are present is determined. -/
theorem Condition.eval_isSome (m : OnError) {r : Request A} (c : Condition A)
    (h : c.Reads fun d a => (r d a).isSome) : (c.eval m r).isSome := by
  induction c with
  | stringEqual x y =>
    obtain ⟨u, hu⟩ := Option.isSome_iff_exists.mp (x.eval_isSome h.1)
    obtain ⟨v, hv⟩ := Option.isSome_iff_exists.mp (y.eval_isSome h.2)
    simp [Condition.eval, hu, hv]
  | integerCompare c x y =>
    obtain ⟨u, hu⟩ := Option.isSome_iff_exists.mp (x.eval_isSome h.1)
    obtain ⟨v, hv⟩ := Option.isSome_iff_exists.mp (y.eval_isSome h.2)
    simp [Condition.eval, hu, hv]
  | and x y ihx ihy => exact conj_isSome m (ihx h.1) (ihy h.2)
  | or x y ihx ihy => exact disj_isSome m (ihx h.1) (ihy h.2)

end AbacMiddleLayer.Xacml
