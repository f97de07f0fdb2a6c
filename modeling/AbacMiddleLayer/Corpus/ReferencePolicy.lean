import AbacMiddleLayer.Corpus.Attributes
import AbacMiddleLayer.Xacml.Evaluation

/-! # The course-score policy and its decoys, in versions 3.0 and 2.0

The two files of `corpus/reference-policies` are written out rule by rule. In the
3.0 file every designator has `MustBePresent="true"`; in the 2.0 file none has.
The decoy rules are those of `_xacml3_decoy_rule_xml` and `_xacml2_decoy_rule_xml`, which
splice the strings of a spec into XML as they are; here the strings are the values.
-/
namespace AbacMiddleLayer.Corpus
open Xacml

def matchAttr (must : Bool) (value : String) (a : Attribute) : Match Attribute := ⟨value, a, must⟩

def attrEquals (must : Bool) (a : Attribute) (value : String) : Condition Attribute :=
  .stringEqual (.designator a must) (.literal value)

def attrsEqual (must : Bool) (a b : Attribute) : Condition Attribute :=
  .stringEqual (.designator a must) (.designator b must)

def attrCompare (must : Bool) (c : Comparison) (a : Attribute) (value : ℤ) : Condition Attribute :=
  .integerCompare c (.designator a must) (.literal value)

/-- Network in {campus, vpn} and hour in [8, 20], repeated in each permitting rule. -/
def networkAndHour (must : Bool) : Condition Attribute :=
  .and
    (.or (attrEquals must .envNetwork "campus") (attrEquals must .envNetwork "vpn"))
    (.and (attrCompare must .greaterThanOrEqual .envHour 8)
      (attrCompare must .lessThanOrEqual .envHour 20))

def adminOverride3 : Rule (Target Attribute) Attribute where
  ruleId := "admin-override"
  effect := .permit
  target := some [[[matchAttr true "admin" .subjectRole]]]
  condition := some (networkAndHour true)

def ownerSelect3 : Rule (Target Attribute) Attribute where
  ruleId := "owner-select"
  effect := .permit
  target := some [[[matchAttr true "SELECT" .action]]]
  condition := some (.and (attrsEqual true .resourceOwner .subjectId) (networkAndHour true))

def lecturerDepartmentClearance3 : Rule (Target Attribute) Attribute where
  ruleId := "lecturer-department-clearance"
  effect := .permit
  target := some
    [[[matchAttr true "lecturer" .subjectRole]],
      [[matchAttr true "SELECT" .action], [matchAttr true "UPDATE" .action]]]
  condition := some
    (.and (attrsEqual true .subjectDepartment .resourceDepartment)
      (.and
        (.integerCompare .greaterThanOrEqual (.designator .subjectClearance true)
          (.designator .resourceClassification true))
        (networkAndHour true)))

def defaultDeny3 : Rule (Target Attribute) Attribute where
  ruleId := "default-deny"
  effect := .deny

def courseScorePolicy3 : Policy (Target Attribute) Attribute where
  policyId := "uoa_course_score_policy"
  target :=
    [[[matchAttr true "SELECT" .action], [matchAttr true "UPDATE" .action],
      [matchAttr true "DELETE" .action]]]
  rules := [adminOverride3, ownerSelect3, lecturerDepartmentClearance3, defaultDeny3]

def adminOverride2 : Rule (Target2 Attribute) Attribute where
  ruleId := "admin-override"
  effect := .permit
  target := some { subjects := some [[matchAttr false "admin" .subjectRole]] }
  condition := some (networkAndHour false)

def ownerSelect2 : Rule (Target2 Attribute) Attribute where
  ruleId := "owner-select"
  effect := .permit
  target := some { actions := some [[matchAttr false "SELECT" .action]] }
  condition := some (.and (attrsEqual false .resourceOwner .subjectId) (networkAndHour false))

def lecturerDepartmentClearance2 : Rule (Target2 Attribute) Attribute where
  ruleId := "lecturer-department-clearance"
  effect := .permit
  target := some
    { subjects := some [[matchAttr false "lecturer" .subjectRole]]
      actions := some [[matchAttr false "SELECT" .action], [matchAttr false "UPDATE" .action]] }
  condition := some
    (.and (attrsEqual false .subjectDepartment .resourceDepartment)
      (.and
        (.integerCompare .greaterThanOrEqual (.designator .subjectClearance false)
          (.designator .resourceClassification false))
        (networkAndHour false)))

def defaultDeny2 : Rule (Target2 Attribute) Attribute where
  ruleId := "default-deny"
  effect := .deny

def courseScorePolicy2 : Policy (Target2 Attribute) Attribute where
  policyId := "uoa_course_score_policy"
  target :=
    { actions := some [[matchAttr false "SELECT" .action], [matchAttr false "UPDATE" .action],
        [matchAttr false "DELETE" .action]] }
  rules := [adminOverride2, ownerSelect2, lecturerDepartmentClearance2, defaultDeny2]

/-- A decoy spec has one of three shapes. -/
inductive DecoySpec where
  | roleNetwork (role network : String)
  | deptClearance (department : String) (clearanceThreshold : ℤ)
  | actionHour (action : String) (hourThreshold : ℤ)
deriving DecidableEq, Repr

/-- The five-digit index of `{i:05d}`. -/
def fiveDigits (i : ℕ) : String :=
  String.ofList (List.replicate (5 - (Nat.toDigits 10 i).length) '0' ++ Nat.toDigits 10 i)

def decoyRuleId (i : ℕ) : String := "decoy-" ++ fiveDigits i

def decoyCondition (must : Bool) : DecoySpec → Condition Attribute
  | .roleNetwork _ network => attrEquals must .envNetwork network
  | .deptClearance _ threshold => attrCompare must .lessThan .subjectClearance threshold
  | .actionHour _ threshold => attrCompare must .greaterThanOrEqual .envHour threshold

def xacml3DecoyTarget : DecoySpec → Target Attribute
  | .roleNetwork role _ => [[[matchAttr true role .subjectRole]]]
  | .deptClearance department _ => [[[matchAttr true department .resourceDepartment]]]
  | .actionHour action _ => [[[matchAttr true action .action]]]

/-- The rule that is read from what `_xacml3_decoy_rule_xml` writes for a spec of plain strings. -/
def xacml3DecoyRule (i : ℕ) (spec : DecoySpec) : Rule (Target Attribute) Attribute where
  ruleId := decoyRuleId i
  effect := .deny
  target := some (xacml3DecoyTarget spec)
  condition := some (decoyCondition true spec)

def xacml2DecoyTarget : DecoySpec → Target2 Attribute
  | .roleNetwork role _ => { subjects := some [[matchAttr false role .subjectRole]] }
  | .deptClearance department _ =>
    { resources := some [[matchAttr false department .resourceDepartment]] }
  | .actionHour action _ => { actions := some [[matchAttr false action .action]] }

/-- The rule that is read from what `_xacml2_decoy_rule_xml` writes for a spec of plain strings. -/
def xacml2DecoyRule (i : ℕ) (spec : DecoySpec) : Rule (Target2 Attribute) Attribute where
  ruleId := decoyRuleId i
  effect := .deny
  target := some (xacml2DecoyTarget spec)
  condition := some (decoyCondition false spec)

def xacml3DecoyRules (specs : List DecoySpec) : List (Rule (Target Attribute) Attribute) :=
  specs.mapIdx xacml3DecoyRule

def xacml2DecoyRules (specs : List DecoySpec) : List (Rule (Target2 Attribute) Attribute) :=
  specs.mapIdx xacml2DecoyRule

/-- The 3.0 policy with the decoys in front of its closing tag, behind the default rule. -/
def scaledPolicy3 (specs : List DecoySpec) : Policy (Target Attribute) Attribute :=
  courseScorePolicy3.append (xacml3DecoyRules specs)

def scaledPolicy2 (specs : List DecoySpec) : Policy (Target2 Attribute) Attribute :=
  courseScorePolicy2.append (xacml2DecoyRules specs)

theorem mem_xacml3DecoyRules {specs : List DecoySpec} {ρ : Rule (Target Attribute) Attribute}
    (h : ρ ∈ xacml3DecoyRules specs) : ∃ i spec, ρ = xacml3DecoyRule i spec := by
  obtain ⟨i, hi, rfl⟩ := List.mem_mapIdx.mp h
  exact ⟨i, _, rfl⟩

theorem mem_xacml2DecoyRules {specs : List DecoySpec} {ρ : Rule (Target2 Attribute) Attribute}
    (h : ρ ∈ xacml2DecoyRules specs) : ∃ i spec, ρ = xacml2DecoyRule i spec := by
  obtain ⟨i, hi, rfl⟩ := List.mem_mapIdx.mp h
  exact ⟨i, _, rfl⟩

theorem xacml3DecoyRules_deny (specs : List DecoySpec) :
    ∀ ρ ∈ xacml3DecoyRules specs, ρ.effect = .deny := by
  intro ρ hρ
  obtain ⟨i, spec, rfl⟩ := mem_xacml3DecoyRules hρ
  rfl

theorem xacml2DecoyRules_deny (specs : List DecoySpec) :
    ∀ ρ ∈ xacml2DecoyRules specs, ρ.effect = .deny := by
  intro ρ hρ
  obtain ⟨i, spec, rfl⟩ := mem_xacml2DecoyRules hρ
  rfl

theorem courseScorePolicy3_hasDefaultDeny : courseScorePolicy3.HasDefaultDeny :=
  ⟨defaultDeny3, by simp [courseScorePolicy3], rfl, rfl, rfl⟩

theorem courseScorePolicy2_hasDefaultDeny : courseScorePolicy2.HasDefaultDeny :=
  ⟨defaultDeny2, by simp [courseScorePolicy2], rfl, rfl, rfl⟩

theorem decoyRule_translates (i : ℕ) (spec : DecoySpec) :
    (xacml3DecoyRule i spec).Translates (xacml2DecoyRule i spec) := by
  cases spec <;> exact ⟨rfl, rfl, rfl⟩

theorem courseScorePolicy_translates : courseScorePolicy3.Translates courseScorePolicy2 where
  target := rfl
  rules := .cons ⟨rfl, rfl, rfl⟩ (.cons ⟨rfl, rfl, rfl⟩ (.cons ⟨rfl, rfl, rfl⟩
    (.cons ⟨rfl, rfl, rfl⟩ .nil)))

/-- The two generators, written separately, produce translations of each other. -/
theorem decoyRules_translate (specs : List DecoySpec) :
    List.Forall₂ Rule.Translates (xacml3DecoyRules specs) (xacml2DecoyRules specs) := by
  refine List.forall₂_iff_get.mpr ⟨by simp [xacml3DecoyRules, xacml2DecoyRules], ?_⟩
  intro i h3 h2
  simp only [xacml3DecoyRules, xacml2DecoyRules, List.get_eq_getElem, List.getElem_mapIdx]
  exact decoyRule_translates i _

theorem scaledPolicy_translates (specs : List DecoySpec) :
    (scaledPolicy3 specs).Translates (scaledPolicy2 specs) :=
  courseScorePolicy_translates.append (decoyRules_translate specs)

end AbacMiddleLayer.Corpus
