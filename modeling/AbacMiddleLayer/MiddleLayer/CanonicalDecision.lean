import AbacMiddleLayer.Corpus.ReferencePolicy
import AbacMiddleLayer.MiddleLayer.CanonicalRequest

/-! # The decision for a canonical request

`ABACML.Evaluate_ABAC_Decision` under the policy that the unit tests load,
`uoa-canonical-test-policy.xml`. The decision point reads the request, collects the values
of each attribute that the policy designates, and reports one decision.
-/
namespace AbacMiddleLayer.MiddleLayer
open Xacml Xml Context Decimal Corpus

def permitSameDepartmentSufficientClearance : Rule (Target Attribute) Attribute where
  ruleId := "permit-same-department-sufficient-clearance"
  effect := .permit
  condition := some
    (.and (attrsEqual true .subjectDepartment .resourceDepartment)
      (.integerCompare .greaterThanOrEqual (.designator .subjectClearance true)
        (.designator .resourceClassification true)))

def denyDefault : Rule (Target Attribute) Attribute where
  ruleId := "deny-default"
  effect := .deny

def departmentClearancePolicy : Policy (Target Attribute) Attribute where
  policyId := "uoa_canvas_department_clearance_policy"
  target := [[[matchAttr true "SELECT" .action]]]
  rules := [permitSameDepartmentSufficientClearance, denyDefault]

/-- A value under the data type of a designator. -/
def carrier? : (d : DataType) → Value → Option d.Carrier
  | .string, .text s => some (String.ofList s)
  | .integer, .number n => some n
  | _, _ => none

/-- The bag of values that a designator finds in a request. -/
def bag (ts : List Triple) (d : DataType) (a : Attribute) : List d.Carrier :=
  ts.filterMap fun t =>
    if t.category = a.category.urn.toList ∧ t.id = a.urn.toList then carrier? d t.value else none

/-- The attributes of a request whose bags have at most one value. -/
def requestOf (ts : List Triple) : Request Attribute := fun d a => (bag ts d a).head?

/-- The decision point; a request that it cannot read is Indeterminate. -/
def evaluate (m : OnError) (p : Policy (Target Attribute) Attribute) (request : Text) : Decision :=
  match deliver xacml3 request with
  | none => .indeterminate
  | some ts => (p.eval3 firstApplicable m (requestOf ts)).report

def decisionToString : Decision → String
  | .permit => "Permit"
  | .deny => "Deny"
  | .notApplicable => "NotApplicable"
  | .indeterminate => "Indeterminate"

def evaluateAbacDecision (m : OnError) (p : Policy (Target Attribute) Attribute)
    (x : Arguments ℤ) : String :=
  decisionToString (evaluate m p (createCanonicalXACMLRequest x))

theorem filterMap_eq_toList {α β : Type*} {f : α → Option β} {a : α} {l : List α} (hl : l.Nodup)
    (ha : a ∈ l) (hf : ∀ b, b ≠ a → f b = none) : l.filterMap f = (f a).toList := by
  have hnone {t : List α} (ht : a ∉ t) : t.filterMap f = [] :=
    List.filterMap_eq_nil_iff.mpr fun b hb => hf b fun h => ht (h ▸ hb)
  induction l with
  | nil => simp at ha
  | cons b l ih =>
    obtain ⟨hb, hnodup⟩ := List.nodup_cons.mp hl
    by_cases h : b = a
    · subst h
      rw [List.filterMap_cons, hnone hb]
      cases f b <;> rfl
    · rw [List.filterMap_cons_none (hf b h)]
      exact ih hnodup ((List.mem_cons.mp ha).resolve_left (Ne.symm h))

theorem attributes_nodup : (canonicalOrder.flatMap Category.attributes).Nodup := by decide

/-- No attribute is listed twice, so each bag has the one value of its attribute. -/
theorem bag_present {order : List Category} (hnodup : (order.flatMap Category.attributes).Nodup)
    (horder : ∀ c, c ∈ order) (p : Attribute → Option Value) (d : DataType) (a : Attribute) :
    bag (present order p) d a = ((p a).bind (carrier? d)).toList := by
  have hmem : a ∈ order.flatMap Category.attributes :=
    List.mem_flatMap.mpr ⟨a.category, horder _, mem_attributes a⟩
  rw [bag, present, List.filterMap_filterMap, filterMap_eq_toList hnodup hmem]
  · congr 1
    cases p a <;> simp [Attribute.triple]
  · intro b hb
    have hurn : b.urn.toList ≠ a.urn.toList := fun h => hb (urn_injective h)
    cases p b <;> simp [Attribute.triple, hurn]

theorem requestOf_order {order : List Category} (hnodup : (order.flatMap Category.attributes).Nodup)
    (horder : ∀ c, c ∈ order) (p : Attribute → Option Value) :
    requestOf (present order p) = fun d a => (p a).bind (carrier? d) := by
  funext d a
  rw [requestOf, bag_present hnodup horder]
  cases (p a).bind (carrier? d) <;> rfl

theorem requestOf_present (p : Attribute → Option Value) (d : DataType) (a : Attribute) :
    requestOf (present canonicalOrder p) d a = (p a).bind (carrier? d) := by
  rw [requestOf_order attributes_nodup canonicalOrder_complete]

section Decision
variable {r : Request Attribute} {action subject resource : String} {clearance classification : ℤ}

theorem departmentClearance_target (haction : r .string .action = some action) :
    Target.eval r departmentClearancePolicy.target = some (decide (action = "SELECT")) := by
  have hequal : ("SELECT" == action) = decide (action = "SELECT") := by
    rw [Bool.eq_iff_iff, beq_iff_eq, decide_eq_true_eq]
    exact eq_comm
  simp only [Target.eval, departmentClearancePolicy, AnyOf.eval, AllOf.eval, Match.eval, matchAttr,
    designate, haction, List.map_cons, List.map_nil, allOf, anyOf, Option.map_some, Option.any_some,
    hequal, conj_some, disj_some, Bool.and_true, Bool.or_false]

theorem departmentClearance_condition (m : OnError)
    (hsubject : r .string .subjectDepartment = some subject)
    (hresource : r .string .resourceDepartment = some resource)
    (hclearance : r .integer .subjectClearance = some clearance)
    (hclassification : r .integer .resourceClassification = some classification) :
    permitSameDepartmentSufficientClearance.applies (Target.eval r) m r =
      some (decide (subject = resource ∧ classification ≤ clearance)) := by
  simp only [Rule.applies, permitSameDepartmentSufficientClearance, Condition.eval, attrsEqual,
    Operand.eval_designator, hsubject, hresource, hclearance, hclassification, Option.bind_some,
    Option.map_some, Option.map_none, Option.getD_some, Option.getD_none, Comparison.holds, conj_some,
    Bool.true_and, ge_iff_le, Bool.decide_and]

/-- SELECT is permitted within a department to those with sufficient clearance and denied to all
others, and the policy does not apply to other actions. -/
theorem eval_departmentClearancePolicy (m : OnError) (haction : r .string .action = some action)
    (hsubject : r .string .subjectDepartment = some subject)
    (hresource : r .string .resourceDepartment = some resource)
    (hclearance : r .integer .subjectClearance = some clearance)
    (hclassification : r .integer .resourceClassification = some classification) :
    departmentClearancePolicy.eval3 firstApplicable m r =
      if action = "SELECT" then
        if subject = resource ∧ classification ≤ clearance then .permit else .deny
      else .notApplicable := by
  have hrules : departmentClearancePolicy.findings (Target.eval r) m r =
      [(.permit, some (decide (subject = resource ∧ classification ≤ clearance))),
        (.deny, some true)] := by
    rw [← departmentClearance_condition m hsubject hresource hclearance hclassification]
    rfl
  rw [Policy.eval3, hrules, departmentClearance_target haction]
  by_cases hselect : action = "SELECT"
  · by_cases hcond : subject = resource ∧ classification ≤ clearance
    · simp [hselect, hcond, Finding.decision3, ruleDecision3, firstApplicable]
    · simp [hselect, hcond, Finding.decision3, ruleDecision3, firstApplicable]
  · simp [hselect]

end Decision

/-- The decision from the arguments to the returned string. -/
theorem evaluateAbacDecision_eq (m : OnError) {x : Arguments ℤ} (hx : Sendable x)
    {action subject resource : Text} {clearance classification : ℤ}
    (haction : x.action = some action) (hsubject : x.subjectDepartment = some subject)
    (hresource : x.resourceDepartment = some resource)
    (hclearance : x.subjectClearance = some clearance)
    (hclassification : x.resourceClassification = some classification) :
    evaluateAbacDecision m departmentClearancePolicy x =
      if action = "SELECT".toList then
        if subject = resource ∧ classification ≤ clearance then "Permit" else "Deny"
      else "NotApplicable" := by
  have hstring {a : Attribute} {s : Text} (h : x.get a = some (.text s)) :
      requestOf (present canonicalOrder x.get) .string a = some (String.ofList s) := by
    rw [requestOf_present, h]
    rfl
  have hinteger {a : Attribute} {n : ℤ} (h : x.get a = some (.number n)) :
      requestOf (present canonicalOrder x.get) .integer a = some n := by
    rw [requestOf_present, h]
    rfl
  have heval := eval_departmentClearancePolicy m
    (hstring (a := .action) (by rw [Arguments.get, haction]; rfl))
    (hstring (a := .subjectDepartment) (by rw [Arguments.get, hsubject]; rfl))
    (hstring (a := .resourceDepartment) (by rw [Arguments.get, hresource]; rfl))
    (hinteger (a := .subjectClearance) (by rw [Arguments.get, hclearance]; rfl))
    (hinteger (a := .resourceClassification) (by rw [Arguments.get, hclassification]; rfl))
  have hselect : String.ofList action = "SELECT" ↔ action = "SELECT".toList := by
    rw [← String.toList_inj, String.toList_ofList]
  have hdepartment : String.ofList subject = String.ofList resource ↔ subject = resource := by
    rw [← String.toList_inj, String.toList_ofList, String.toList_ofList]
  rw [evaluateAbacDecision, evaluate, hx.deliver_eq]
  simp only [heval, hselect, hdepartment]
  split_ifs <;> rfl

/-- A subject of the department CS with clearance 3, and a resource of the same department. -/
def aliceArguments : Arguments ℤ where
  subjectId := some ['a', 'l', 'i', 'c', 'e']
  subjectRole := none
  subjectDepartment := some ['C', 'S']
  subjectClearance := some 3
  resourceId := none
  resourceOwner := none
  resourceDepartment := some ['C', 'S']
  resourceClassification := some 2
  action := some ['S', 'E', 'L', 'E', 'C', 'T']
  envNetwork := none
  envHour := none

theorem alice_permitted :
    Sendable aliceArguments ∧
      evaluateAbacDecision .halt departmentClearancePolicy aliceArguments = "Permit" := by
  have hsendable : Sendable aliceArguments := by
    refine sendable_of_all fun a s hs => ?_
    cases a <;> simp only [Arguments.get, aliceArguments, Option.map_some, Option.map_none,
      Option.some.injEq, Field.text.injEq, reduceCtorEq] at hs <;> subst hs <;> decide
  refine ⟨hsendable, ?_⟩
  rw [evaluateAbacDecision_eq .halt hsendable rfl rfl rfl rfl rfl, String.toList_ofList]
  rfl

end AbacMiddleLayer.MiddleLayer
