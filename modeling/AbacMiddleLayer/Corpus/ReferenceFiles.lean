import AbacMiddleLayer.Corpus.PolicyFiles

/-! # The reference policies as files

The two files of `corpus/reference-policies`, character by character: in the 3.0 file a description
stands in front of the target, in the 2.0 file a comment, and the attributes of the root stand on
lines of their own. They are read as the course-score policies.
-/
namespace AbacMiddleLayer.Corpus
open Xacml Xml Context

def permitOverrides3Urn : Text :=
  "urn:oasis:names:tc:xacml:3.0:rule-combining-algorithm:permit-overrides".toList

def policyTag3 : Tag :=
  tagOf "Policy"
    [("xmlns", "urn:oasis:names:tc:xacml:3.0:core:schema:wd-17".toList),
      ("PolicyId", "uoa_course_score_policy".toList), ("RuleCombiningAlgId", permitOverrides3Urn),
      ("Version", "1.0".toList)]

def descriptionLines : List String :=
  ["    UOA course-score canonical reference policy. Encodes the ground truth",
    "    used to derive `expected` in corpus/canonical/scenarios.json:",
    "      - admins may SELECT/UPDATE any course score (role-based override)",
    "      - a student may SELECT their own course score (owner-based)",
    "      - a lecturer may SELECT/UPDATE a course score in their own department",
    "        if their clearance is at least the score's classification",
    "        (department-based + numeric clearance comparison)",
    "      - all of the above additionally require network in \x7bcampus, vpn\x7d and",
    "        hour in [8, 20] (network condition, time-of-day condition)",
    "      - everything else in scope (SELECT/UPDATE/DELETE) is denied",
    "      - actions outside \x7bSELECT, UPDATE, DELETE\x7d are outside this policy's",
    "        Target entirely (NotApplicable), not denied"]

def description : Text := descriptionLines.flatMap (fun l => '\n' :: l.toList) ++ '\n' :: indent 2

def courseScoreElements3 : Text :=
  valueLine 2 (tagOf "Description" []) description ++
    (targetLines3 vocabulary 2 courseScorePolicy3.target ++
      courseScorePolicy3.rules.flatMap fun ρ => '\n' :: ruleLines3 vocabulary 2 ρ)

/-- The file up to its last tag. -/
def courseScoreHead3 : Text :=
  (TagText.ofTag policyTag3).start ++ ('\n' :: courseScoreElements3)

def courseScoreXml3 : Text := courseScoreHead3 ++ (stopTag "Policy".toList ++ ['\n'])

def permitOverrides2Urn : Text :=
  "urn:oasis:names:tc:xacml:1.0:rule-combining-algorithm:permit-overrides".toList

def policyTag2 : TagText where
  name := "Policy".toList
  attrs :=
    [([' '], "xmlns".toList, "urn:oasis:names:tc:xacml:2.0:policy:schema:os".toList),
      ('\n' :: indent 8, "PolicyId".toList, "uoa_course_score_policy".toList),
      ('\n' :: indent 8, "RuleCombiningAlgId".toList, permitOverrides2Urn)]

def commentLines : List String :=
  ["    XACML 2.0 translation of xacml3-course-score-policy.xml for SunXACML.",
    "    Same semantics, same expected decisions in corpus/canonical/scenarios.json.",
    "    Two engine-forced differences from the XACML 3.0 version:",
    "      1. RuleCombiningAlgId uses the \"1.0\"-namespaced URN; XACML 2.0 predates",
    "         the \"3.0\"-namespaced algorithm URNs AuthzForce requires, so this is",
    "         the correct native form here, not a downgrade.",
    "      2. Target/Condition use XACML 2.0's category-specific elements",
    "         (Subjects/Resources/Actions/Environments, SubjectAttributeDesignator",
    "         etc.) instead of XACML 3.0's generic Category-attributed",
    "         AttributeDesignator; there is no other way to express this in 2.0."]

def comment : Text :=
  "<!--".toList ++ ((commentLines.flatMap (fun l => '\n' :: l.toList) ++ '\n' :: indent 2) ++ "-->".toList)

def xmlDeclaration : Text := "<?xml version=\"1.0\" encoding=\"UTF-8\"?>".toList

def courseScoreElements2 : Text :=
  targetLines2 vocabulary sectionOf 2 courseScorePolicy2.target ++
    courseScorePolicy2.rules.flatMap fun ρ => '\n' :: ruleLines2 vocabulary sectionOf 2 ρ

/-- The file up to its last tag. -/
def courseScoreHead2 : Text :=
  xmlDeclaration ++ ('\n' :: (policyTag2.start ++
    ('\n' :: (indent 2 ++ (comment ++ ('\n' :: courseScoreElements2))))))

def courseScoreXml2 : Text := courseScoreHead2 ++ (stopTag "Policy".toList ++ ['\n'])

theorem networkAndHour_plain (must : Bool) : (networkAndHour must).Plain :=
  ⟨⟨⟨trivial, plainText_pool (by decide)⟩, trivial, plainText_pool (by decide)⟩,
    ⟨trivial, plainText_decimal 8⟩, trivial, plainText_decimal 20⟩

section Values
variable {must : Bool}

theorem admin_plain : AnyOf.Plain [[matchAttr must "admin" .subjectRole]] :=
  match_plain (plainText_pool (by decide))

theorem lecturer_plain : AnyOf.Plain [[matchAttr must "lecturer" .subjectRole]] :=
  match_plain (plainText_pool (by decide))

theorem actions_plain {values : List String} (hne : values ≠ []) (h : values ⊆ decoyActions) :
    AnyOf.Plain (values.map fun v => [matchAttr must v .action]) :=
  anyOf_plain hne fun _ hv => plainText_pool (List.mem_append_right _ (h hv))

end Values

theorem rules3_plain : ∀ ρ ∈ courseScorePolicy3.rules, Plain3 ρ := by
  have hselect : AnyOf.Plain [[matchAttr true "SELECT" .action]] :=
    match_plain (plainText_pool (by decide))
  have hactions : AnyOf.Plain [[matchAttr true "SELECT" .action], [matchAttr true "UPDATE" .action]] :=
    actions_plain (List.cons_ne_nil "SELECT" ["UPDATE"]) (by decide)
  have htarget {t : Target Attribute} (hne : t ≠ []) (h : ∀ as ∈ t, AnyOf.Plain as) :
      ∀ s, some t = some s → s ≠ [] ∧ ∀ as ∈ s, AnyOf.Plain as := by
    rintro s ⟨⟩
    exact ⟨hne, h⟩
  have hcondition {c : Condition Attribute} (h : c.Plain) :
      ∀ d, some c = some d → d.Plain := by
    rintro d ⟨⟩
    exact h
  refine List.forall_mem_cons.mpr ⟨⟨forall_toList (by decide), ?_, ?_⟩, List.forall_mem_cons.mpr
    ⟨⟨forall_toList (by decide), ?_, ?_⟩, List.forall_mem_cons.mpr
    ⟨⟨forall_toList (by decide), ?_, ?_⟩, List.forall_mem_singleton.mpr
    ⟨forall_toList (by decide), nofun, nofun⟩⟩⟩⟩
  · exact htarget (List.cons_ne_nil _ _) (List.forall_mem_singleton.mpr admin_plain)
  · exact hcondition (networkAndHour_plain true)
  · exact htarget (List.cons_ne_nil _ _) (List.forall_mem_singleton.mpr hselect)
  · exact hcondition ⟨⟨trivial, trivial⟩, networkAndHour_plain true⟩
  · exact htarget (List.cons_ne_nil _ _)
      (List.forall_mem_cons.mpr ⟨lecturer_plain, List.forall_mem_singleton.mpr hactions⟩)
  · exact hcondition ⟨⟨trivial, trivial⟩, ⟨trivial, trivial⟩, networkAndHour_plain true⟩

theorem rules2_plain : ∀ ρ ∈ courseScorePolicy2.rules, Plain2 ρ := by
  have hselect : AnyOf.Plain [[matchAttr false "SELECT" .action]] :=
    match_plain (plainText_pool (by decide))
  have hactions :
      AnyOf.Plain [[matchAttr false "SELECT" .action], [matchAttr false "UPDATE" .action]] :=
    actions_plain (List.cons_ne_nil "SELECT" ["UPDATE"]) (by decide)
  have htarget {t : Target2 Attribute} (hne : t.parts ≠ []) (h : ∀ p ∈ t.parts, AnyOf.Plain p.2) :
      ∀ s, some t = some s → s.parts ≠ [] ∧ ∀ p ∈ s.parts, AnyOf.Plain p.2 := by
    rintro s ⟨⟩
    exact ⟨hne, h⟩
  have hcondition {c : Condition Attribute} (h : c.Plain) :
      ∀ d, some c = some d → d.Plain := by
    rintro d ⟨⟩
    exact h
  refine List.forall_mem_cons.mpr ⟨⟨forall_toList (by decide), ?_, ?_⟩, List.forall_mem_cons.mpr
    ⟨⟨forall_toList (by decide), ?_, ?_⟩, List.forall_mem_cons.mpr
    ⟨⟨forall_toList (by decide), ?_, ?_⟩, List.forall_mem_singleton.mpr
    ⟨forall_toList (by decide), nofun, nofun⟩⟩⟩⟩
  · exact htarget (List.cons_ne_nil _ _) (List.forall_mem_singleton.mpr admin_plain)
  · exact hcondition (networkAndHour_plain false)
  · exact htarget (List.cons_ne_nil _ _) (List.forall_mem_singleton.mpr hselect)
  · exact hcondition ⟨⟨trivial, trivial⟩, networkAndHour_plain false⟩
  · exact htarget (List.cons_ne_nil _ _)
      (List.forall_mem_cons.mpr ⟨lecturer_plain, List.forall_mem_singleton.mpr hactions⟩)
  · exact hcondition ⟨⟨trivial, trivial⟩, ⟨trivial, trivial⟩, networkAndHour_plain false⟩

theorem placed_of_parts {t : Target2 Attribute}
    (h : (t.parts.all fun p => p.2.all fun ms => ms.all fun m => sectionOf m.attr == p.1) = true) :
    t.Placed sectionOf := by
  intro p hp ms hms m hm
  have hpart := List.all_eq_true.mp (List.all_eq_true.mp h p hp) ms hms
  exact eq_of_beq (List.all_eq_true.mp hpart m hm)

theorem rules2_placed :
    ∀ ρ ∈ courseScorePolicy2.rules, ∀ t, ρ.target = some t → t.Placed sectionOf := by
  have hplaced {t : Target2 Attribute} (h : t.Placed sectionOf) :
      ∀ s, some t = some s → s.Placed sectionOf := by
    rintro s ⟨⟩
    exact h
  refine List.forall_mem_cons.mpr ⟨hplaced (placed_of_parts rfl), List.forall_mem_cons.mpr
    ⟨hplaced (placed_of_parts rfl), List.forall_mem_cons.mpr
    ⟨hplaced (placed_of_parts rfl), List.forall_mem_singleton.mpr nofun⟩⟩⟩

/-- The root element of a file and what stands behind it. -/
theorem writes_root {o : TagText} (ho : o.Ok) {inner : Text} {es : List Element}
    (h : Xml.Writes inner es) (hne : es ≠ []) :
    Xml.Writes (o.start ++ (inner ++ (o.stop ++ ['\n']))) [.node o.tag es] := by
  have hroot := (Xml.Writes.node ho h hne).append writes_lineFeed
  rwa [List.append_assoc, List.append_assoc] at hroot

theorem writes_rules {T : Type} {rules : List (Rule T Attribute)} {lines : Rule T Attribute → Text}
    {element : Rule T Attribute → Element}
    (h : ∀ ρ ∈ rules, Xml.Writes (lines ρ) [element ρ]) :
    Xml.Writes (rules.flatMap fun ρ => '\n' :: lines ρ) (rules.map element) :=
  writes_flatMap fun ρ hρ => writes_lineFeed.append (h ρ hρ)

theorem policyTag3_plain : policyTag3.Plain := by
  refine tagOf_cons_plain (isName_toList (by decide)) (forall_toList (by decide)) (by simp) ?_
  refine tagOf_cons_plain (isName_toList (by decide)) (forall_toList (by decide)) (by simp) ?_
  refine tagOf_cons_plain (isName_toList (by decide)) (forall_toList (by decide)) (by simp) ?_
  exact tagOf_cons_plain (isName_toList (by decide)) (forall_toList (by decide)) (by simp)
    (tagOf_nil_plain (isName_toList (by decide)))

theorem descriptionLines_plain {l : String} (h : l ∈ descriptionLines) :
    ∀ c ∈ l.toList, isTextChar c = true := by
  simp only [descriptionLines, List.mem_cons, List.not_mem_nil, or_false] at h
  repeat' rcases h with rfl | h
  all_goals exact forall_toList (by decide)

theorem description_plain : PlainText description := by
  refine plainText_of_chars (List.forall_mem_append.mpr ⟨fun c hc => ?_, ?_⟩)
  · obtain ⟨l, hl, hc⟩ := List.mem_flatMap.mp hc
    exact List.forall_mem_cons.mpr ⟨by decide, descriptionLines_plain hl⟩ c hc
  · exact List.all_eq_true.mp (by decide)

theorem writes_courseScoreXml3 :
    Xml.Writes courseScoreXml3
      [.node policyTag3 (.leaf (tagOf "Description" []) description ::
        targetElement3 vocabulary courseScorePolicy3.target ::
          courseScorePolicy3.rules.map (ruleElement3 vocabulary))] := by
  have htag : (tagOf "Description" []).Plain := tagOf_nil_plain (isName_toList (by decide))
  have hactions : ∀ as ∈ courseScorePolicy3.target, AnyOf.Plain as :=
    List.forall_mem_singleton.mpr
      (actions_plain (List.cons_ne_nil "SELECT" ["UPDATE", "DELETE"]) (by decide))
  have hdescription := writes_valueLine htag description_plain description_plain.noCr 2
  have htarget := writes_targetLines3 vocabulary (List.cons_ne_nil _ _) hactions 2
  have hrules := writes_rules fun ρ hρ => writes_ruleLines3 vocabulary (rules3_plain ρ hρ) 2
  have helements := writes_lineFeed.append (hdescription.append (htarget.append hrules))
  have hroot := writes_root (TagText.ok_ofTag policyTag3_plain) helements (List.cons_ne_nil _ _)
  rw [TagText.tag_ofTag] at hroot
  rw [courseScoreXml3, courseScoreHead3, List.append_assoc]
  exact hroot

theorem readPolicy_courseScoreXml3 :
    (version3 vocabulary).readPolicy courseScoreXml3 =
      some ⟨permitOverrides3Urn, courseScorePolicy3⟩ := by
  have hxmlns : Context.attr policyTag3 "xmlns" = some (version3 vocabulary).xmlns.toList := by
    rw [policyTag3, attr_tagOf]
    rfl
  have hid : Context.attr policyTag3 "PolicyId" = some courseScorePolicy3.policyId.toList := by
    rw [policyTag3, attr_tagOf]
    rfl
  have halgorithm : Context.attr policyTag3 "RuleCombiningAlgId" = some permitOverrides3Urn := by
    rw [policyTag3, attr_tagOf]
    rfl
  have hname : Named policyTag3 "Policy" := rfl
  have hrules : (courseScorePolicy3.rules.map (ruleElement3 vocabulary)).mapM
      (version3 vocabulary).rule = some courseScorePolicy3.rules :=
    mapM_map fun ρ _ => rule_ruleElement3 vocabulary ρ
  have htarget : (version3 vocabulary).target (targetElement3 vocabulary courseScorePolicy3.target) =
      some courseScorePolicy3.target := target3_targetElement3 vocabulary _
  have hnamed : Named (targetElement3 vocabulary courseScorePolicy3.target).tag "Target" := rfl
  rw [Dialect.readPolicy, writes_courseScoreXml3.parse, Option.bind_some,
    Dialect.policy_node hname hxmlns hid halgorithm hnamed htarget (skip_cons rfl _) hrules,
    String.ofList_toList]

theorem tag_policyTag2 :
    policyTag2.tag = tagOf "Policy"
      [("xmlns", "urn:oasis:names:tc:xacml:2.0:policy:schema:os".toList),
        ("PolicyId", "uoa_course_score_policy".toList), ("RuleCombiningAlgId", permitOverrides2Urn)] :=
  rfl

theorem policyTag2_ok : policyTag2.Ok where
  plain := by
    rw [tag_policyTag2]
    refine tagOf_cons_plain (isName_toList (by decide)) (forall_toList (by decide)) (by simp) ?_
    refine tagOf_cons_plain (isName_toList (by decide)) (forall_toList (by decide)) (by simp) ?_
    exact tagOf_cons_plain (isName_toList (by decide)) (forall_toList (by decide)) (by simp)
      (tagOf_nil_plain (isName_toList (by decide)))
  gaps := by
    have hblank : ∀ c ∈ [' '], isSpace c = true ∧ c ≠ '\r' := indent_blank 1
    have hline : ∀ c ∈ '\n' :: indent 8, isSpace c = true ∧ c ≠ '\r' :=
      List.forall_mem_cons.mpr ⟨by decide, indent_blank 8⟩
    exact List.forall_mem_cons.mpr ⟨⟨List.cons_ne_nil _ _, hblank⟩, List.forall_mem_cons.mpr
      ⟨⟨List.cons_ne_nil _ _, hline⟩, List.forall_mem_singleton.mpr ⟨List.cons_ne_nil _ _, hline⟩⟩⟩

theorem stripped_xmlDeclaration : Stripped xmlDeclaration [] := by
  have hdropped : stripLoop .text xmlDeclaration = some ([], .text) :=
    of_toList (P := fun t => stripLoop .text t = some ([], .text)) (by decide +kernel)
  exact StripsTo.stripped hdropped (forall_toList (by decide))

theorem commentLines_dropped {l : String} (h : l ∈ commentLines) :
    stripLoop .comment ('\n' :: l.toList) = some ([], .comment) := by
  simp only [commentLines, List.mem_cons, List.not_mem_nil, or_false] at h
  repeat' rcases h with rfl | h
  all_goals
    exact of_toList (P := fun t => stripLoop .comment ('\n' :: t) = some ([], .comment))
      (by decide +kernel)

theorem commentLines_chars {l : String} (h : l ∈ commentLines) :
    ∀ c ∈ l.toList, isXmlChar c = true ∧ c ≠ '\r' := by
  simp only [commentLines, List.mem_cons, List.not_mem_nil, or_false] at h
  repeat' rcases h with rfl | h
  all_goals exact forall_toList (by decide)

theorem stripped_comment : Stripped comment [] := by
  have hlines : stripLoop .comment (commentLines.flatMap (fun l => '\n' :: l.toList) ++
      '\n' :: indent 2) = some ([], .comment) := by
    rw [stripLoop_append, List.flatMap_def,
      stripLoop_comment_flatten (List.forall_mem_map.mpr fun l hl => commentLines_dropped hl)]
    rfl
  refine StripsTo.stripped ?_ ?_
  · have hstart : "<!--".toList = ['<', '!', '-', '-'] := String.toList_ofList
    have hend : "-->".toList = ['-', '-', '>'] := String.toList_ofList
    have hdropped := stripsTo_comment hlines
    unfold comment
    rw [hstart, hend]
    exact hdropped
  · have hend : ∀ c ∈ '\n' :: indent 2, isXmlChar c = true ∧ c ≠ '\r' :=
      List.forall_mem_cons.mpr ⟨by decide, fun c hc =>
        ⟨isSpace_isXmlChar (indent_blank 2 c hc).1, (indent_blank 2 c hc).2⟩⟩
    refine List.forall_mem_append.mpr ⟨forall_toList (by decide), List.forall_mem_append.mpr
      ⟨List.forall_mem_append.mpr ⟨fun c hc => ?_, hend⟩, forall_toList (by decide)⟩⟩
    obtain ⟨l, hl, hc⟩ := List.mem_flatMap.mp hc
    exact List.forall_mem_cons.mpr ⟨by decide, commentLines_chars hl⟩ c hc

theorem writes_courseScoreElements2 :
    Xml.Writes courseScoreElements2
      (targetElement2 vocabulary sectionOf courseScorePolicy2.target ::
        courseScorePolicy2.rules.map (ruleElement2 vocabulary sectionOf)) := by
  have hactions : ∀ p ∈ courseScorePolicy2.target.parts, AnyOf.Plain p.2 :=
    List.forall_mem_singleton.mpr
      (actions_plain (List.cons_ne_nil "SELECT" ["UPDATE", "DELETE"]) (by decide))
  have hparts : courseScorePolicy2.target.parts ≠ [] := List.cons_ne_nil _ _
  have htarget : Xml.Writes (targetLines2 vocabulary sectionOf 2 courseScorePolicy2.target)
      [targetElement2 vocabulary sectionOf courseScorePolicy2.target] :=
    writes_targetLines2 vocabulary hparts hactions 2
  exact htarget.append
    (writes_rules fun ρ hρ => writes_ruleLines2 vocabulary (rules2_plain ρ hρ) 2)

/-- What is left of the file when its declaration and its comment are gone. -/
theorem stripped_courseScoreXml2 :
    Stripped courseScoreXml2 ('\n' :: (policyTag2.start ++
      (('\n' :: (indent 2 ++ ('\n' :: courseScoreElements2))) ++ (policyTag2.stop ++ ['\n'])))) := by
  have hfeed : Clean ['\n'] := writes_lineFeed.clean
  have hstop : Clean policyTag2.stop := TagText.clean_stop policyTag2_ok.name_isName
  have hend := writes_courseScoreElements2.clean.append (hstop.append hfeed)
  have hinner := hfeed.append ((writes_indent 2).clean.append (stripped_comment.append
    (hfeed.append hend)))
  have hdoc := stripped_xmlDeclaration.append (hfeed.append (policyTag2_ok.clean_start.append hinner))
  simp only [List.nil_append, List.cons_append] at hdoc
  simp only [courseScoreXml2, courseScoreHead2, List.cons_append, List.append_assoc]
  exact hdoc

theorem readPolicy_courseScoreXml2 :
    (version2 vocabulary).readPolicy courseScoreXml2 =
      some ⟨permitOverrides2Urn, courseScorePolicy2⟩ := by
  have hblank := writes_lineFeed.append ((writes_indent 2).append writes_lineFeed)
  have helements := hblank.append writes_courseScoreElements2
  have hroot := writes_lineFeed.append (writes_root policyTag2_ok helements (List.cons_ne_nil _ _))
  have hparse := hroot.parse_of_stripped stripped_courseScoreXml2
  have hxmlns : Context.attr policyTag2.tag "xmlns" = some (version2 vocabulary).xmlns.toList := by
    rw [tag_policyTag2, attr_tagOf]
    rfl
  have hid : Context.attr policyTag2.tag "PolicyId" = some courseScorePolicy2.policyId.toList := by
    rw [tag_policyTag2, attr_tagOf]
    rfl
  have halgorithm : Context.attr policyTag2.tag "RuleCombiningAlgId" = some permitOverrides2Urn := by
    rw [tag_policyTag2, attr_tagOf]
    rfl
  have hname : Named policyTag2.tag "Policy" := rfl
  have hrules : (courseScorePolicy2.rules.map (ruleElement2 vocabulary sectionOf)).mapM
      (version2 vocabulary).rule = some courseScorePolicy2.rules :=
    mapM_map fun ρ hρ => rule_ruleElement2 vocabulary category_section (rules2_placed ρ hρ)
  have htarget : (version2 vocabulary).target
      (targetElement2 vocabulary sectionOf courseScorePolicy2.target) =
        some courseScorePolicy2.target :=
    target2_targetElement2 vocabulary category_section (placed_of_parts rfl)
  have hnamed : Named (targetElement2 vocabulary sectionOf courseScorePolicy2.target).tag "Target" :=
    rfl
  have hskip : skip "Description" (targetElement2 vocabulary sectionOf courseScorePolicy2.target ::
      courseScorePolicy2.rules.map (ruleElement2 vocabulary sectionOf)) =
        some (targetElement2 vocabulary sectionOf courseScorePolicy2.target ::
          courseScorePolicy2.rules.map (ruleElement2 vocabulary sectionOf)) := by
    refine skip_of_ne fun e he => ?_
    cases he
    exact mt named_tagOf.mp (by decide)
  rw [Dialect.readPolicy, hparse, Option.bind_some]
  refine (Dialect.policy_node hname hxmlns hid halgorithm hnamed htarget hskip hrules).trans ?_
  rw [String.ofList_toList]

section Pasted
variable {specs specs' : List DecoySpec} (h : List.Forall₂ DecoySpec.ReadAs specs specs')
include h

theorem readPolicy_inject3 :
    (injectBeforeClosingPolicy courseScoreXml3 (xacml3DecoyRulesXml specs)).bind
      (version3 vocabulary).readPolicy = some ⟨permitOverrides3Urn, scaledPolicy3 specs'⟩ :=
  decoys3.readPolicy_inject h (List.forall_mem_singleton.mpr rfl) readPolicy_courseScoreXml3

theorem readPolicy_inject2 :
    (injectBeforeClosingPolicy courseScoreXml2 (xacml2DecoyRulesXml specs)).bind
      (version2 vocabulary).readPolicy = some ⟨permitOverrides2Urn, scaledPolicy2 specs'⟩ :=
  decoys2.readPolicy_inject h (List.forall_mem_singleton.mpr rfl) readPolicy_courseScoreXml2

end Pasted

end AbacMiddleLayer.Corpus
