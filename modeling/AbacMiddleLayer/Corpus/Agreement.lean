import AbacMiddleLayer.Corpus.Casbin

/-! # Agreement of the reference policies

The Casbin matcher against the 3.0 policy on complete requests, the 2.0 policy
against the 3.0 policy at every number of decoys, decoys against no decoys, and a
request against what remains of it when attributes are hidden.
-/
namespace AbacMiddleLayer.Corpus
open Xacml

/-- A request in which all eleven attributes are present. -/
structure CompleteRequest where
  subjectId : String
  subjectRole : String
  subjectDepartment : String
  subjectClearance : ℤ
  resourceId : String
  resourceOwner : String
  resourceDepartment : String
  resourceClassification : ℤ
  action : String
  envNetwork : String
  envHour : ℤ

namespace CompleteRequest

def toRequest (q : CompleteRequest) : Request Attribute
  | .string, .subjectId => some q.subjectId
  | .string, .subjectRole => some q.subjectRole
  | .string, .subjectDepartment => some q.subjectDepartment
  | .integer, .subjectClearance => some q.subjectClearance
  | .string, .resourceId => some q.resourceId
  | .string, .resourceOwner => some q.resourceOwner
  | .string, .resourceDepartment => some q.resourceDepartment
  | .integer, .resourceClassification => some q.resourceClassification
  | .string, .action => some q.action
  | .string, .envNetwork => some q.envNetwork
  | .integer, .envHour => some q.envHour
  | _, _ => none

/-- The action is one of the policy's target. -/
def InScope (q : CompleteRequest) : Prop :=
  q.action = "SELECT" ∨ q.action = "UPDATE" ∨ q.action = "DELETE"

def NetworkAndHour (q : CompleteRequest) : Prop :=
  (q.envNetwork = "campus" ∨ q.envNetwork = "vpn") ∧ 8 ≤ q.envHour ∧ q.envHour ≤ 20

def OwnerSelects (q : CompleteRequest) : Prop :=
  q.action = "SELECT" ∧ q.resourceOwner = q.subjectId ∧ q.NetworkAndHour

def LecturerCleared (q : CompleteRequest) : Prop :=
  q.subjectRole = "lecturer" ∧ (q.action = "SELECT" ∨ q.action = "UPDATE") ∧
    q.subjectDepartment = q.resourceDepartment ∧
    q.resourceClassification ≤ q.subjectClearance ∧ q.NetworkAndHour

/-- An administrator acts on an admitted network in the admitted hours. -/
def AdminInHours (q : CompleteRequest) : Prop := q.subjectRole = "admin" ∧ q.NetworkAndHour

instance (q : CompleteRequest) : Decidable q.InScope :=
  inferInstanceAs (Decidable (_ ∨ _ ∨ _))

instance (q : CompleteRequest) : Decidable q.NetworkAndHour :=
  inferInstanceAs (Decidable ((_ ∨ _) ∧ _ ∧ _))

instance (q : CompleteRequest) : Decidable q.OwnerSelects :=
  inferInstanceAs (Decidable (_ ∧ _ ∧ _))

instance (q : CompleteRequest) : Decidable q.LecturerCleared :=
  inferInstanceAs (Decidable (_ ∧ (_ ∨ _) ∧ _ ∧ _ ∧ _))

instance (q : CompleteRequest) : Decidable q.AdminInHours :=
  inferInstanceAs (Decidable (_ ∧ _))

theorem toRequest_allPresent (q : CompleteRequest) : AllPresent q.toRequest := by
  intro a
  cases a <;> rfl

end CompleteRequest

section Complete
variable (m : OnError) (q : CompleteRequest)

theorem Match.eval_present {r : Request Attribute} {a : Attribute} {v : String}
    (h : r .string a = some v) (must : Bool) (value : String) :
    (matchAttr must value a).eval r = some (decide (v = value)) := by
  simp only [Match.eval, matchAttr, designate, h, Option.map_some, Option.any_some,
    Bool.beq_eq_decide_eq, eq_comm]

/-- The role and action matches of a complete request. -/
theorem role_match (must : Bool) (role : String) :
    (matchAttr must role .subjectRole).eval q.toRequest = some (decide (q.subjectRole = role)) :=
  Match.eval_present rfl must role

theorem action_match (must : Bool) (action : String) :
    (matchAttr must action .action).eval q.toRequest = some (decide (q.action = action)) :=
  Match.eval_present rfl must action

theorem networkAndHour_eval (must : Bool) :
    (networkAndHour must).eval m q.toRequest = some (decide q.NetworkAndHour) := by
  simp only [networkAndHour, attrEquals, attrCompare, Condition.eval, Operand.eval_designator,
    Operand.eval_literal, CompleteRequest.toRequest, Option.bind_some, Option.map_some, conj_some,
    disj_some, Comparison.holds, Option.some.injEq]
  rw [Bool.eq_iff_iff, decide_eq_true_iff]
  simp [CompleteRequest.NetworkAndHour]

theorem adminOverride3_applies :
    adminOverride3.applies (Target.eval q.toRequest) m q.toRequest =
      some (decide q.AdminInHours) := by
  simp only [Rule.applies, adminOverride3, Option.map_some, Option.getD_some, Target.eval,
    AnyOf.eval, AllOf.eval, List.map_cons, List.map_nil, allOf, anyOf, role_match,
    networkAndHour_eval, conj_some, disj_some, Option.some.injEq]
  rw [Bool.eq_iff_iff, decide_eq_true_iff]
  simp [CompleteRequest.AdminInHours]

theorem ownerSelect3_applies :
    ownerSelect3.applies (Target.eval q.toRequest) m q.toRequest =
      some (decide q.OwnerSelects) := by
  simp only [Rule.applies, ownerSelect3, attrsEqual, Option.map_some, Option.getD_some, Target.eval,
    AnyOf.eval, AllOf.eval, List.map_cons, List.map_nil, allOf, anyOf, action_match,
    Condition.eval, Operand.eval_designator, CompleteRequest.toRequest, Option.bind_some,
    networkAndHour_eval, conj_some, disj_some, Option.some.injEq]
  rw [Bool.eq_iff_iff, decide_eq_true_iff]
  simp [CompleteRequest.OwnerSelects]

theorem lecturerDepartmentClearance3_applies :
    lecturerDepartmentClearance3.applies (Target.eval q.toRequest) m q.toRequest =
      some (decide q.LecturerCleared) := by
  simp only [Rule.applies, lecturerDepartmentClearance3, attrsEqual, Option.map_some,
    Option.getD_some, Target.eval, AnyOf.eval, AllOf.eval, List.map_cons, List.map_nil, allOf,
    anyOf, role_match, action_match, Condition.eval, Operand.eval_designator,
    CompleteRequest.toRequest, Option.bind_some, Comparison.holds, networkAndHour_eval, conj_some,
    disj_some, Option.some.injEq]
  rw [Bool.eq_iff_iff, decide_eq_true_iff]
  simp [CompleteRequest.LecturerCleared, and_assoc]

theorem courseScorePolicy3_target (h : q.InScope) :
    Target.eval q.toRequest courseScorePolicy3.target = some true := by
  simp only [courseScorePolicy3, Target.eval, AnyOf.eval, AllOf.eval, List.map_cons, List.map_nil,
    allOf, anyOf, action_match, conj_some, disj_some, Option.some.injEq]
  simpa [CompleteRequest.InScope, or_assoc] using h

/-- In scope, the policy denies what none of its three permitting rules permits. -/
theorem courseScorePolicy3_eval (h : q.InScope) :
    courseScorePolicy3.eval3 permitOverrides3 m q.toRequest =
      if q.AdminInHours ∨ q.OwnerSelects ∨ q.LecturerCleared then .permit else .deny := by
  have hdeny : defaultDeny3.applies (Target.eval q.toRequest) m q.toRequest = some true := rfl
  rw [Policy.eval3, courseScorePolicy3_target q h]
  simp only [Policy.findings, courseScorePolicy3, List.map_cons, List.map_nil,
    adminOverride3_applies, ownerSelect3_applies, lecturerDepartmentClearance3_applies, hdeny]
  by_cases ha : q.AdminInHours <;> by_cases ho : q.OwnerSelects <;>
    by_cases hl : q.LecturerCleared <;> simp only [ha, ho, hl] <;> rfl

theorem courseScoreMatcher_eval (row : PolicyRow) :
    courseScoreMatcher.eval m q.toRequest row = some (decide
      ((q.AdminInHours ∧ (q.action = "SELECT" ∨ q.action = "UPDATE")) ∨
        q.OwnerSelects ∨ q.LecturerCleared)) := by
  simp only [courseScoreMatcher, adminClause, ownerClause, lecturerClause, selectOrUpdate, actionIs,
    networkIn, hourIn, Matcher.eval, Term.eval, CompleteRequest.toRequest, Option.bind_some,
    Option.map_some, conj_some, disj_some, Option.some.injEq]
  rw [Bool.eq_iff_iff, decide_eq_true_iff]
  have hnet : ((q.envNetwork = "campus" ∨ q.envNetwork = "vpn") ∧ 8 ≤ q.envHour ∧ q.envHour ≤ 20) ↔
      q.NetworkAndHour := Iff.rfl
  simp only [Bool.or_eq_true, Bool.and_eq_true, beq_iff_eq, decide_eq_true_eq, and_assoc, or_assoc,
    hnet, CompleteRequest.AdminInHours, CompleteRequest.OwnerSelects,
    CompleteRequest.LecturerCleared]
  refine or_congr (and_congr_right fun _ => and_comm) (or_congr and_left_comm ?_)
  exact and_congr_right fun _ => by tauto

end Complete

/-- The matcher restricts administrators to SELECT and UPDATE, as the policy's description
does; the rule `admin-override` does not. They agree on all requests in scope but these. -/
theorem courseScoreMatcher_agrees_iff (m m' : OnError) (row : PolicyRow) (q : CompleteRequest)
    (h : q.InScope) :
    ((courseScoreMatcher.eval m q.toRequest row = some true ↔
        courseScorePolicy3.eval3 permitOverrides3 m' q.toRequest = .permit) ∧
      (courseScoreMatcher.eval m q.toRequest row = some false ↔
        courseScorePolicy3.eval3 permitOverrides3 m' q.toRequest = .deny)) ↔
      ¬ (q.subjectRole = "admin" ∧ q.action = "DELETE" ∧
        (q.envNetwork = "campus" ∨ q.envNetwork = "vpn") ∧ 8 ≤ q.envHour ∧ q.envHour ≤ 20) := by
  rw [courseScoreMatcher_eval, courseScorePolicy3_eval m' q h]
  have hscope : (q.action = "SELECT" ∨ q.action = "UPDATE") ↔ q.action ≠ "DELETE" := by
    rcases h with h | h | h <;> simp [h]
  have hdelete : q.action = "DELETE" → ¬ q.OwnerSelects ∧ ¬ q.LecturerCleared := by
    intro hd
    simp [CompleteRequest.OwnerSelects, CompleteRequest.LecturerCleared, hd]
  have hadmin : (q.subjectRole = "admin" ∧ q.action = "DELETE" ∧
      (q.envNetwork = "campus" ∨ q.envNetwork = "vpn") ∧ 8 ≤ q.envHour ∧ q.envHour ≤ 20) ↔
      q.AdminInHours ∧ q.action = "DELETE" := by
    simp only [CompleteRequest.AdminInHours, CompleteRequest.NetworkAndHour]
    tauto
  simp only [hadmin, hscope]
  by_cases hd : q.action = "DELETE"
  · obtain ⟨ho, hl⟩ := hdelete hd
    by_cases ha : q.AdminInHours <;> simp [hd, ho, hl, ha]
  · by_cases ha : q.AdminInHours ∨ q.OwnerSelects ∨ q.LecturerCleared <;> simp [hd, ha]

/-- An administrator at `hour` on the campus network, acting on another's score. -/
def adminRequest (action : String) (hour : ℤ) : CompleteRequest where
  subjectId := "admin1"
  subjectRole := "admin"
  subjectDepartment := "Registry"
  subjectClearance := 3
  resourceId := "score-1"
  resourceOwner := "stu1"
  resourceDepartment := "ComputerScience"
  resourceClassification := 2
  action := action
  envNetwork := "campus"
  envHour := hour

theorem courseScoreMatcher_agrees_admin_update :
    (adminRequest "UPDATE" 10).InScope ∧
      ((courseScoreMatcher.eval .halt (adminRequest "UPDATE" 10).toRequest baseRow = some true ↔
          courseScorePolicy3.eval3 permitOverrides3 .halt (adminRequest "UPDATE" 10).toRequest =
            .permit) ∧
        (courseScoreMatcher.eval .halt (adminRequest "UPDATE" 10).toRequest baseRow = some false ↔
          courseScorePolicy3.eval3 permitOverrides3 .halt (adminRequest "UPDATE" 10).toRequest =
            .deny)) :=
  ⟨by decide, (courseScoreMatcher_agrees_iff .halt .halt baseRow (adminRequest "UPDATE" 10)
    (by decide)).mpr (by decide)⟩

theorem admin_delete_permitted_by_xacml_only :
    (adminRequest "DELETE" 10).InScope ∧
      courseScoreMatcher.eval .halt (adminRequest "DELETE" 10).toRequest baseRow = some false ∧
      courseScorePolicy3.eval3 permitOverrides3 .halt (adminRequest "DELETE" 10).toRequest =
        .permit := by
  decide

theorem AllPresent.string {r : Request Attribute} (h : AllPresent r) {a : Attribute}
    (ha : a.dataType = .string) : (r .string a).isSome := h.isSome ha.symm

theorem AllPresent.integer {r : Request Attribute} (h : AllPresent r) {a : Attribute}
    (ha : a.dataType = .integer) : (r .integer a).isSome := h.isSome ha.symm

section Present
variable {r : Request Attribute} (h : AllPresent r)
include h

theorem networkAndHour_reads (must : Bool) :
    (networkAndHour must).Reads fun d a => (r d a).isSome := by
  simp [networkAndHour, attrEquals, attrCompare, Condition.Reads, Operand.Reads,
    h.string (a := .envNetwork) rfl, h.integer (a := .envHour) rfl]

theorem decoyCondition_reads (must : Bool) (spec : DecoySpec) :
    (decoyCondition must spec).Reads fun d a => (r d a).isSome := by
  cases spec <;> simp [decoyCondition, attrEquals, attrCompare, Condition.Reads, Operand.Reads,
    h.string (a := .envNetwork) rfl, h.integer (a := .envHour) rfl,
    h.integer (a := .subjectClearance) rfl]

theorem scaledPolicy3_reads (specs : List DecoySpec) :
    (scaledPolicy3 specs).Reads id fun d a => (r d a).isSome := by
  apply Policy.Reads.append
  · simp [Policy.Reads, Rule.Reads, Target.Reads, courseScorePolicy3, adminOverride3, ownerSelect3,
      lecturerDepartmentClearance3, defaultDeny3, matchAttr, attrsEqual, Condition.Reads,
      Operand.Reads, networkAndHour_reads h, h.string (a := .action) rfl,
      h.string (a := .subjectRole) rfl, h.string (a := .resourceOwner) rfl,
      h.string (a := .subjectId) rfl, h.string (a := .subjectDepartment) rfl,
      h.string (a := .resourceDepartment) rfl, h.integer (a := .subjectClearance) rfl,
      h.integer (a := .resourceClassification) rfl]
  · intro ρ hρ
    obtain ⟨i, spec, rfl⟩ := mem_xacml3DecoyRules hρ
    refine ⟨?_, by simpa [xacml3DecoyRule] using decoyCondition_reads h true spec⟩
    cases spec <;> simp [xacml3DecoyRule, xacml3DecoyTarget, matchAttr, Target.Reads,
      h.string (a := .action) rfl, h.string (a := .subjectRole) rfl,
      h.string (a := .resourceDepartment) rfl]

theorem scaledPolicy2_reads (specs : List DecoySpec) :
    (scaledPolicy2 specs).Reads Target2.sections fun d a => (r d a).isSome := by
  apply Policy.Reads.append
  · simp [Policy.Reads, Rule.Reads, Target.Reads, Target2.sections, courseScorePolicy2,
      adminOverride2, ownerSelect2, lecturerDepartmentClearance2, defaultDeny2, matchAttr,
      attrsEqual, Condition.Reads, Operand.Reads, networkAndHour_reads h,
      h.string (a := .action) rfl, h.string (a := .subjectRole) rfl,
      h.string (a := .resourceOwner) rfl, h.string (a := .subjectId) rfl,
      h.string (a := .subjectDepartment) rfl, h.string (a := .resourceDepartment) rfl,
      h.integer (a := .subjectClearance) rfl, h.integer (a := .resourceClassification) rfl]
  · intro ρ hρ
    obtain ⟨i, spec, rfl⟩ := mem_xacml2DecoyRules hρ
    refine ⟨?_, by simpa [xacml2DecoyRule] using decoyCondition_reads h false spec⟩
    cases spec <;> simp [xacml2DecoyRule, xacml2DecoyTarget, Target2.sections, matchAttr,
      Target.Reads, h.string (a := .action) rfl, h.string (a := .subjectRole) rfl,
      h.string (a := .resourceDepartment) rfl]

end Present

/-- At every number of decoys the two versions permit the same requests, and on requests
with all attributes they report the same decision. -/
theorem scaledPolicies_agree (specs : List DecoySpec) (m : OnError) (r : Request Attribute) :
    ((scaledPolicy3 specs).eval3 permitOverrides3 m r = .permit ↔
        (scaledPolicy2 specs).eval2 permitOverrides m r = .permit) ∧
      (AllPresent r → ((scaledPolicy3 specs).eval3 permitOverrides3 m r).report =
        (scaledPolicy2 specs).eval2 permitOverrides m r) :=
  ⟨(scaledPolicy_translates specs).permit_iff m r, fun h =>
    (scaledPolicy_translates specs).report_eq (scaledPolicy3_reads h specs)
      (scaledPolicy2_reads h specs)⟩

/-- No decoy changes a decision, whatever is absent from the request. -/
theorem decoys_change_nothing (specs : List DecoySpec) (m : OnError) (r : Request Attribute) :
    (scaledPolicy3 specs).eval3 permitOverrides3 m r =
        courseScorePolicy3.eval3 permitOverrides3 m r ∧
      (scaledPolicy2 specs).eval2 permitOverrides m r =
        courseScorePolicy2.eval2 permitOverrides m r ∧
      enforce m courseScoreMatcher r (baseRow :: casbinDecoyRows specs) =
        enforce m courseScoreMatcher r [baseRow] :=
  ⟨Policy.eval3_append_denying courseScorePolicy3_hasDefaultDeny (xacml3DecoyRules_deny specs) m r,
    Policy.eval2_append_denying courseScorePolicy2_hasDefaultDeny (xacml2DecoyRules_deny specs) m r,
    enforce_append_rows courseScoreMatcher_readsPolicy m r baseRow (casbinDecoyRows specs)⟩

/-- Hiding attributes never turns a request into a permitted one, in either version. -/
theorem hiding_never_gains (keep : DataType → Attribute → Bool) (specs : List DecoySpec)
    (m : OnError) (r : Request Attribute) :
    ((scaledPolicy3 specs).eval3 permitOverrides3 m (r.restrict keep) = .permit →
        (scaledPolicy3 specs).eval3 permitOverrides3 m r = .permit) ∧
      ((scaledPolicy2 specs).eval2 permitOverrides m (r.restrict keep) = .permit →
        (scaledPolicy2 specs).eval2 permitOverrides m r = .permit) :=
  ⟨Policy.eval3_permit_mono (r.restrict_below keep), Policy.eval2_permit_mono (r.restrict_below keep)⟩

/-- What a request shows without owner, departments and clearances. -/
def roleActionNetworkHour (_ : DataType) (a : Attribute) : Bool :=
  a = .subjectRole ∨ a = .action ∨ a = .envNetwork ∨ a = .envHour

theorem hiding_never_gains_admin :
    ((scaledPolicy3 [.roleNetwork "admin" "campus"]).eval3 permitOverrides3 .halt
          ((adminRequest "UPDATE" 10).toRequest.restrict roleActionNetworkHour) = .permit ∧
        (scaledPolicy3 [.roleNetwork "admin" "campus"]).eval3 permitOverrides3 .halt
          (adminRequest "UPDATE" 10).toRequest = .permit) ∧
      (scaledPolicy2 [.roleNetwork "admin" "campus"]).eval2 permitOverrides .halt
          ((adminRequest "UPDATE" 10).toRequest.restrict roleActionNetworkHour) = .permit ∧
        (scaledPolicy2 [.roleNetwork "admin" "campus"]).eval2 permitOverrides .halt
          (adminRequest "UPDATE" 10).toRequest = .permit := by
  have h := hiding_never_gains roleActionNetworkHour [.roleNetwork "admin" "campus"] .halt
    (adminRequest "UPDATE" 10).toRequest
  exact ⟨⟨by decide, h.1 (by decide)⟩, by decide, h.2 (by decide)⟩

end AbacMiddleLayer.Corpus
