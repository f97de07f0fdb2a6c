import AbacMiddleLayer.Corpus.Agreement
import AbacMiddleLayer.Corpus.ReferenceFiles

/-! # The reference policies with decoys pasted into them

`generate-corpus.py` splices the strings of a spec into XML as they are. As long as they are
character data, the two files with the decoys of one list are read as policies that agree with each
other and with the files before. A string that is not, such as a role with an ampersand in it, makes
both files unreadable.
-/
namespace AbacMiddleLayer.Corpus
open Xacml Xml

/-- The policy of the 3.0 file with the decoys pasted into it. -/
def pasted3 (specs : List DecoySpec) : Option (PolicyDocument (Target Attribute) Attribute) :=
  (injectBeforeClosingPolicy courseScoreXml3 (xacml3DecoyRulesXml specs)).bind
    (version3 vocabulary).readPolicy

def pasted2 (specs : List DecoySpec) : Option (PolicyDocument (Target2 Attribute) Attribute) :=
  (injectBeforeClosingPolicy courseScoreXml2 (xacml2DecoyRulesXml specs)).bind
    (version2 vocabulary).readPolicy

/-- Pasting succeeds, whatever the text is. -/
theorem exists_inject3 (rules : Text) :
    ∃ doc, injectBeforeClosingPolicy courseScoreXml3 rules = some doc :=
  ⟨_, injectBeforeClosingPolicy_eq (List.forall_mem_singleton.mpr rfl) courseScoreHead3 rules⟩

theorem exists_inject2 (rules : Text) :
    ∃ doc, injectBeforeClosingPolicy courseScoreXml2 rules = some doc :=
  ⟨_, injectBeforeClosingPolicy_eq (List.forall_mem_singleton.mpr rfl) courseScoreHead2 rules⟩

theorem pasted3_ill {spec : DecoySpec} (h : spec.Ill) (specs : List DecoySpec) :
    pasted3 (spec :: specs) = none :=
  decoys3.readPolicy_inject_eq_none h specs (List.forall_mem_singleton.mpr rfl)
    readPolicy_courseScoreXml3

theorem pasted2_ill {spec : DecoySpec} (h : spec.Ill) (specs : List DecoySpec) :
    pasted2 (spec :: specs) = none :=
  decoys2.readPolicy_inject_eq_none h specs (List.forall_mem_singleton.mpr rfl)
    readPolicy_courseScoreXml2

/-- Both files are read as policies under permit-overrides that permit the same requests, and that
report the same decision on requests with all attributes. -/
def FilesAgree (specs : List DecoySpec) : Prop :=
  ∃ P Q, pasted3 specs = some P ∧ pasted2 specs = some Q ∧
    P.algorithm = permitOverrides3Urn ∧ Q.algorithm = permitOverrides2Urn ∧
    ∀ m r, (P.policy.eval3 permitOverrides3 m r = .permit ↔
        Q.policy.eval2 permitOverrides m r = .permit) ∧
      (AllPresent r →
        (P.policy.eval3 permitOverrides3 m r).report = Q.policy.eval2 permitOverrides m r)

/-- At every number of decoys the files of the two versions agree. -/
theorem pastedPolicies_agree {specs : List DecoySpec} (h : ∀ spec ∈ specs, spec.CharacterData) :
    FilesAgree specs := by
  obtain ⟨specs', hspecs⟩ := exists_forall₂_readAs h
  exact ⟨_, _, readPolicy_inject3 hspecs, readPolicy_inject2 hspecs, rfl, rfl,
    scaledPolicies_agree specs'⟩

theorem rd_ill : Ill "R&D".toList := by
  rw [show "R&D".toList = ['R', '&', 'D'] from String.toList_ofList]
  exact ⟨by decide, by decide, by decide⟩

theorem characterData_pool {s : String}
    (h : s ∈ decoyRoles ++ decoyNetworks ++ decoyDepartments ++ decoyActions) : CharacterData s :=
  ⟨s, spliced_of_plain (plainText_pool h)⟩

/-- The ampersand as a reference. -/
theorem characterData_rd : CharacterData "R&amp;D" := by
  refine ⟨"R&D", ?_, ?_⟩ <;>
    rw [show "R&amp;D".toList = ['R', '&', 'a', 'm', 'p', ';', 'D'] from String.toList_ofList]
  · rw [show "R&D".toList = ['R', '&', 'D'] from String.toList_ofList]
    exact ⟨by decide, List.all_eq_true.mp (by decide), by decide +kernel, by decide +kernel⟩
  · decide

/-- One spec of each shape. -/
def threeSpecs : List DecoySpec :=
  [.roleNetwork "admin" "campus", .deptClearance "R&amp;D" 3, .actionHour "DELETE" 18]

theorem threeSpecs_characterData : ∀ spec ∈ threeSpecs, spec.CharacterData :=
  List.forall_mem_cons.mpr ⟨⟨characterData_pool (by decide), characterData_pool (by decide)⟩,
    List.forall_mem_cons.mpr ⟨characterData_rd,
      List.forall_mem_singleton.mpr (characterData_pool (by decide))⟩⟩

theorem pastedPolicies_agree_threeSpecs : FilesAgree threeSpecs :=
  pastedPolicies_agree threeSpecs_characterData

/-- A role with an ampersand in it: the generator writes both files, and neither is readable. -/
theorem ampersand_in_role_unreadable :
    (∃ doc, injectBeforeClosingPolicy courseScoreXml3
        (xacml3DecoyRulesXml [.roleNetwork "R&D" "campus"]) = some doc ∧
      (version3 vocabulary).readPolicy doc = none) ∧
    (∃ doc, injectBeforeClosingPolicy courseScoreXml2
        (xacml2DecoyRulesXml [.roleNetwork "R&D" "campus"]) = some doc ∧
      (version2 vocabulary).readPolicy doc = none) ∧
    ¬ FilesAgree [.roleNetwork "R&D" "campus"] := by
  have hill : (DecoySpec.roleNetwork "R&D" "campus").Ill := rd_ill
  have h₃ := pasted3_ill hill []
  have h₂ := pasted2_ill hill []
  refine ⟨?_, ?_, ?_⟩
  · obtain ⟨doc, hdoc⟩ := exists_inject3 (xacml3DecoyRulesXml [.roleNetwork "R&D" "campus"])
    rw [pasted3, hdoc] at h₃
    exact ⟨doc, hdoc, h₃⟩
  · obtain ⟨doc, hdoc⟩ := exists_inject2 (xacml2DecoyRulesXml [.roleNetwork "R&D" "campus"])
    rw [pasted2, hdoc] at h₂
    exact ⟨doc, hdoc, h₂⟩
  · rintro ⟨P, Q, hP, -⟩
    rw [h₃] at hP
    cases hP

/-- The 3.0 file is read before and after the decoys are pasted into it, and decides as before. -/
def Unchanged3 (specs : List DecoySpec) : Prop :=
  ∃ P Q, (version3 vocabulary).readPolicy courseScoreXml3 = some P ∧ pasted3 specs = some Q ∧
    P.algorithm = permitOverrides3Urn ∧ Q.algorithm = permitOverrides3Urn ∧
    ∀ m r, Q.policy.eval3 permitOverrides3 m r = P.policy.eval3 permitOverrides3 m r

def Unchanged2 (specs : List DecoySpec) : Prop :=
  ∃ P Q, (version2 vocabulary).readPolicy courseScoreXml2 = some P ∧ pasted2 specs = some Q ∧
    P.algorithm = permitOverrides2Urn ∧ Q.algorithm = permitOverrides2Urn ∧
    ∀ m r, Q.policy.eval2 permitOverrides m r = P.policy.eval2 permitOverrides m r

/-- No decoy changes a decision, whatever is absent from the request. -/
theorem pasted_decoys_change_nothing (specs : List DecoySpec) :
    ((∀ spec ∈ specs, spec.CharacterData) → Unchanged3 specs ∧ Unchanged2 specs) ∧
      ∀ m r, enforce m courseScoreMatcher r (baseRow :: casbinDecoyRows specs) =
        enforce m courseScoreMatcher r [baseRow] := by
  refine ⟨fun h => ?_, fun m r => (decoys_change_nothing specs m r).2.2⟩
  obtain ⟨specs', hspecs⟩ := exists_forall₂_readAs h
  exact ⟨⟨_, _, readPolicy_courseScoreXml3, readPolicy_inject3 hspecs, rfl, rfl,
      fun m r => (decoys_change_nothing specs' m r).1⟩,
    _, _, readPolicy_courseScoreXml2, readPolicy_inject2 hspecs, rfl, rfl,
      fun m r => (decoys_change_nothing specs' m r).2.1⟩

theorem pasted_decoys_change_nothing_threeSpecs :
    (Unchanged3 threeSpecs ∧ Unchanged2 threeSpecs) ∧
      ∀ m r, enforce m courseScoreMatcher r (baseRow :: casbinDecoyRows threeSpecs) =
        enforce m courseScoreMatcher r [baseRow] :=
  ⟨(pasted_decoys_change_nothing threeSpecs).1 threeSpecs_characterData,
    (pasted_decoys_change_nothing threeSpecs).2⟩

/-- A department with an ampersand in it: both files are readable before and not after. -/
theorem ampersand_in_department_changes_files :
    ((version3 vocabulary).readPolicy courseScoreXml3).isSome ∧
      pasted3 [.deptClearance "R&D" 3] = none ∧ ¬ Unchanged3 [.deptClearance "R&D" 3] ∧
      ((version2 vocabulary).readPolicy courseScoreXml2).isSome ∧
      pasted2 [.deptClearance "R&D" 3] = none ∧ ¬ Unchanged2 [.deptClearance "R&D" 3] := by
  have hill : (DecoySpec.deptClearance "R&D" 3).Ill := rd_ill
  have h₃ := pasted3_ill hill []
  have h₂ := pasted2_ill hill []
  refine ⟨by rw [readPolicy_courseScoreXml3]; rfl, h₃, ?_,
    by rw [readPolicy_courseScoreXml2]; rfl, h₂, ?_⟩
  · rintro ⟨P, Q, -, hQ, -⟩
    rw [h₃] at hQ
    cases hQ
  · rintro ⟨P, Q, -, hQ, -⟩
    rw [h₂] at hQ
    cases hQ

end AbacMiddleLayer.Corpus
