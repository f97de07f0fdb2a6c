import AbacMiddleLayer.Corpus.DecoySpecs
import AbacMiddleLayer.Corpus.Documents

/-! # The policy files of `generate-corpus.py`

The generator pastes the text of the decoy rules in front of the last `</Policy>` of a reference
policy, without parsing anything. For every policy document that ends with that tag the result is a
policy document with the decoys behind the rules of the policy; the reference policies are read as
the two course-score policies.
-/
namespace AbacMiddleLayer.Corpus
open Xacml Xml Context Decimal

def Category.section : Category → TargetSection
  | .subject => .subject
  | .resource => .resource
  | .action => .action
  | .environment => .environment

def allAttributes : List Attribute :=
  [.subject, .resource, .action, .environment].flatMap Category.attributes

def resolveAttribute (category id : Text) : Option Attribute :=
  allAttributes.find? fun a => decide (a.category.urn.toList = category ∧ a.urn.toList = id)

theorem resolveAttribute_urn (a : Attribute) :
    resolveAttribute a.category.urn.toList a.urn.toList = some a := by
  rcases h : resolveAttribute a.category.urn.toList a.urn.toList with _ | b
  · have hmem : a ∈ allAttributes := by cases a <;> decide
    exact absurd (decide_eq_true ⟨rfl, rfl⟩) (List.find?_eq_none.mp h a hmem)
  · have hb := List.find?_some h
    rw [urn_injective (of_decide_eq_true hb).2]

def vocabulary : Vocabulary Attribute where
  category a := a.category.urn.toList
  id a := a.urn.toList
  resolve := resolveAttribute
  resolve_name := resolveAttribute_urn
  category_plain a := categoryUrn_plain a.category
  id_plain := urn_plain

def sectionOf (a : Attribute) : TargetSection := a.category.section

theorem category_section (a : Attribute) :
    vocabulary.category a = (sectionOf a).category.toList := by
  have hurn (c : Category) : c.urn = c.section.category := by cases c <;> rfl
  exact congrArg String.toList (hurn a.category)

def designator (must : Bool) (a : Attribute) : Designator Attribute := ⟨a.dataType, a, must⟩

/-- The one match in the target of a decoy. -/
def xacml3MatchXml (value : String) (a : Attribute) : Text :=
  block 6 (tagOf "AnyOf" []) (block 8 (tagOf "AllOf" []) (block 10 (matchTag "Match")
    (valueLine 12 (literalTag .string) value.toList ++
      wholeLine 12 (designatorTag3 vocabulary (designator true a)))))

/-- The `Apply` of a decoy: a function of the one value of an attribute and of a literal. -/
def applyXml (tag : Tag) (f : Function) (a : Attribute) (value : Text) : Text :=
  block 6 (applyTag f)
    (block 8 (applyTag (.oneAndOnly a.dataType)) (wholeLine 10 tag) ++
      valueLine 8 (literalTag a.dataType) value)

def decoyConditionXml (tag : Attribute → Tag) : DecoySpec → Text
  | .roleNetwork _ network => applyXml (tag .envNetwork) .stringEqual .envNetwork network.toList
  | .deptClearance _ threshold =>
    applyXml (tag .subjectClearance) (.integerCompare .lessThan) .subjectClearance (decimal threshold)
  | .actionHour _ threshold =>
    applyXml (tag .envHour) (.integerCompare .greaterThanOrEqual) .envHour (decimal threshold)

def xacml3DecoyTargetXml : DecoySpec → Text
  | .roleNetwork role _ => xacml3MatchXml role .subjectRole
  | .deptClearance department _ => xacml3MatchXml department .resourceDepartment
  | .actionHour action _ => xacml3MatchXml action .action

def xacml3DecoyRuleXml (i : ℕ) (spec : DecoySpec) : Text :=
  block 2 (tagOf "Rule" [("Effect", "Deny".toList), ("RuleId", (decoyRuleId i).toList)])
    (block 4 (tagOf "Target" []) (xacml3DecoyTargetXml spec) ++
      block 4 (tagOf "Condition" [])
        (decoyConditionXml (fun a => designatorTag3 vocabulary (designator true a)) spec))

/-- The one match in the target of a decoy, in the section of its attribute. -/
def xacml2MatchXml (names : String × String × String) (value : String) (a : Attribute) : Text :=
  block 6 (tagOf names.1 []) (block 8 (tagOf names.2.1 []) (block 10 (matchTag names.2.2)
    (valueLine 12 (literalTag .string) value.toList ++
      wholeLine 12 (designatorTag2 vocabulary sectionOf (designator false a)))))

def xacml2DecoyTargetXml : DecoySpec → Text
  | .roleNetwork role _ => xacml2MatchXml ("Subjects", "Subject", "SubjectMatch") role .subjectRole
  | .deptClearance department _ =>
    xacml2MatchXml ("Resources", "Resource", "ResourceMatch") department .resourceDepartment
  | .actionHour action _ => xacml2MatchXml ("Actions", "Action", "ActionMatch") action .action

def xacml2DecoyRuleXml (i : ℕ) (spec : DecoySpec) : Text :=
  block 2 (tagOf "Rule" [("RuleId", (decoyRuleId i).toList), ("Effect", "Deny".toList)])
    (block 4 (tagOf "Target" []) (xacml2DecoyTargetXml spec) ++
      block 4 (tagOf "Condition" [])
        (decoyConditionXml (fun a => designatorTag2 vocabulary sectionOf (designator false a)) spec))

def xacml3DecoyRulesXml (specs : List DecoySpec) : Text := (specs.mapIdx xacml3DecoyRuleXml).flatten

def xacml2DecoyRulesXml (specs : List DecoySpec) : Text := (specs.mapIdx xacml2DecoyRuleXml).flatten

/-- A text cut in front of the last occurrence of a marker, as `rindex` finds it. -/
def cutLast (marker : Text) : Text → Option (Text × Text)
  | [] => if marker = [] then some ([], []) else none
  | c :: cs =>
    match cutLast marker cs with
    | some (a, b) => some (c :: a, b)
    | none => if marker.isPrefixOf (c :: cs) then some ([], c :: cs) else none

/-- `_inject_before_closing_policy`; `none` is the `ValueError` of `rindex`. -/
def injectBeforeClosingPolicy (policyXml decoyRulesXml : Text) : Option Text :=
  if decoyRulesXml = [] then some policyXml
  else (cutLast "</Policy>".toList policyXml).map fun c => c.1 ++ (decoyRulesXml ++ c.2)

theorem fiveDigits_digits (i : ℕ) : ∀ c ∈ (fiveDigits i).toList, c.isDigit = true := by
  rw [fiveDigits, String.toList_ofList]
  refine List.forall_mem_append.mpr ⟨fun c hc => ?_, fun c hc => ?_⟩
  · rw [List.eq_of_mem_replicate hc]
    rfl
  · exact Nat.isDigit_of_mem_toDigits (by decide) (by decide) hc

theorem isPlain_digit {c : Char} (h : c.isDigit = true) : isPlain c = true := by
  have htext := isTextChar_digit h
  have hquote : (c != '"') = true := by
    rw [bne_iff_ne]
    rintro rfl
    exact absurd h (by decide)
  have hspace : isSpace c = false := by
    simp only [isSpace, Bool.or_eq_false_iff, decide_eq_false_iff_not]
    refine ⟨⟨⟨?_, ?_⟩, ?_⟩, ?_⟩ <;> rintro rfl <;> exact absurd h (by decide)
  simp only [isTextChar, Bool.and_eq_true] at htext
  rw [isPlain, htext.1.1.1.1, htext.1.1.1.2, htext.1.2, hquote, hspace]
  rfl

theorem decoyRuleId_plain (i : ℕ) : ∀ c ∈ (decoyRuleId i).toList, isPlain c = true := by
  rw [decoyRuleId, String.toList_append]
  exact List.forall_mem_append.mpr
    ⟨forall_toList (by decide), fun c hc => isPlain_digit (fiveDigits_digits i c hc)⟩

theorem anyOf_plain {must : Bool} {a : Attribute} {values : List String} (hne : values ≠ [])
    (h : ∀ v ∈ values, PlainText v.toList) :
    AnyOf.Plain (values.map fun v => [matchAttr must v a]) := by
  refine ⟨mt List.map_eq_nil_iff.mp hne, List.forall_mem_map.mpr fun v hv => ?_⟩
  exact ⟨List.cons_ne_nil _ _, List.forall_mem_singleton.mpr (h v hv)⟩

theorem match_plain {must : Bool} {value : String} {a : Attribute} (h : PlainText value.toList) :
    AnyOf.Plain [[matchAttr must value a]] :=
  anyOf_plain (List.cons_ne_nil value []) (List.forall_mem_singleton.mpr h)

/-- A match in the elements around it, whatever they are called. -/
theorem writes_matchXml {names : String × String × String} (hnames : AreNames names) {tag : Tag}
    (htag : tag.Plain) {raw value : String} (h : Spliced raw value) :
    Xml.Writes (block 6 (tagOf names.1 []) (block 8 (tagOf names.2.1 []) (block 10 (matchTag names.2.2)
        (valueLine 12 (literalTag .string) raw.toList ++ wholeLine 12 tag))))
      [.node (tagOf names.1 []) [.node (tagOf names.2.1 []) [.node (matchTag names.2.2)
        [.leaf (literalTag .string) value.toList, .leaf tag []]]]] := by
  obtain ⟨houter, hinner, hmatch⟩ := hnames
  have hvalue := writes_valueLine (literalTag_plain .string) h.reads h.noCr 12
  have hlines := writes_block (matchTag_plain hmatch) (hvalue.append (writes_wholeLine htag 12))
    (List.cons_ne_nil _ _) 10
  exact writes_block (tagOf_nil_plain houter)
    (writes_block (tagOf_nil_plain hinner) hlines (List.cons_ne_nil _ _) 8) (List.cons_ne_nil _ _) 6

theorem writes_applyXml {tag : Tag} (htag : tag.Plain) (f : Function) (a : Attribute)
    {raw value : Text} (h : Reads raw value) (hcr : '\r' ∉ raw) :
    Xml.Writes (applyXml tag f a raw)
      [.node (applyTag f) [.node (applyTag (.oneAndOnly a.dataType)) [.leaf tag []],
        .leaf (literalTag a.dataType) value]] := by
  have hattr := writes_block (applyTag_plain (.oneAndOnly a.dataType)) (writes_wholeLine htag 10)
    (List.cons_ne_nil _ _) 8
  have hvalue := writes_valueLine (literalTag_plain a.dataType) h hcr 8
  exact writes_block (applyTag_plain f) (hattr.append hvalue) (List.cons_ne_nil _ _) 6

/-- The condition of a decoy is written as the condition that a reader finds. -/
theorem writes_decoyConditionXml {tag : Designator Attribute → Tag} (htag : ∀ x, (tag x).Plain)
    (must : Bool) {spec spec' : DecoySpec} (h : spec.ReadAs spec') :
    Xml.Writes
      (block 4 (tagOf "Condition" []) (decoyConditionXml (fun a => tag (designator must a)) spec))
      [.node (tagOf "Condition" []) [conditionElement tag (decoyCondition must spec')]] := by
  refine writes_block (tagOf_nil_plain (isName_toList (by decide))) ?_ (List.cons_ne_nil _ _) 4
  have hdecimal (n : ℤ) : Reads (Decimal.decimal n) (Decimal.decimal n) := plainText_decimal n
  cases h with
  | roleNetwork hrole hnetwork =>
    exact writes_applyXml (htag _) .stringEqual .envNetwork hnetwork.reads hnetwork.noCr
  | deptClearance threshold hdepartment =>
    exact writes_applyXml (htag _) (.integerCompare .lessThan) .subjectClearance (hdecimal threshold)
      (PlainText.noCr (hdecimal threshold))
  | actionHour threshold haction =>
    exact writes_applyXml (htag _) (.integerCompare .greaterThanOrEqual) .envHour (hdecimal threshold)
      (PlainText.noCr (hdecimal threshold))

theorem writes_xacml3DecoyRuleXml (i : ℕ) {spec spec' : DecoySpec} (h : spec.ReadAs spec') :
    Xml.Writes (xacml3DecoyRuleXml i spec) [ruleElement3 vocabulary (xacml3DecoyRule i spec')] := by
  have htag : (ruleTag3 (decoyRuleId i) .deny).Plain := ruleTag3_plain (decoyRuleId_plain i) .deny
  have hmatch {raw value : String} (hraw : Spliced raw value) (a : Attribute) :=
    writes_matchXml areNames_names3 (designatorTag3_plain vocabulary (designator true a)) hraw
  have hblock {t : Text} {e : Element} (ht : Xml.Writes t [e]) :=
    writes_block targetTag_plain ht (List.cons_ne_nil e []) 4
  have htarget : Xml.Writes (block 4 (tagOf "Target" []) (xacml3DecoyTargetXml spec))
      [targetElement3 vocabulary (xacml3DecoyTarget spec')] := by
    cases h with
    | roleNetwork hrole hnetwork => exact hblock (hmatch hrole .subjectRole)
    | deptClearance threshold hdepartment => exact hblock (hmatch hdepartment .resourceDepartment)
    | actionHour threshold haction => exact hblock (hmatch haction .action)
  have hcondition := writes_decoyConditionXml (designatorTag3_plain vocabulary) true h
  exact writes_block htag (htarget.append hcondition) (List.cons_ne_nil _ _) 2

theorem writes_xacml2DecoyRuleXml (i : ℕ) {spec spec' : DecoySpec} (h : spec.ReadAs spec') :
    Xml.Writes (xacml2DecoyRuleXml i spec)
      [ruleElement2 vocabulary sectionOf (xacml2DecoyRule i spec')] := by
  have htag : (ruleTag2 (decoyRuleId i) .deny).Plain := ruleTag2_plain (decoyRuleId_plain i) .deny
  have hmatch {raw value : String} (hraw : Spliced raw value) (a : Attribute) (σ : TargetSection) :=
    writes_matchXml σ.areNames (designatorTag2_plain vocabulary sectionOf (designator false a)) hraw
  have hblock {t : Text} {e : Element} (ht : Xml.Writes t [e]) :=
    writes_block targetTag_plain ht (List.cons_ne_nil e []) 4
  have htarget : Xml.Writes (block 4 (tagOf "Target" []) (xacml2DecoyTargetXml spec))
      [targetElement2 vocabulary sectionOf (xacml2DecoyTarget spec')] := by
    cases h with
    | roleNetwork hrole hnetwork => exact hblock (hmatch hrole .subjectRole .subject)
    | deptClearance threshold hdepartment =>
      exact hblock (hmatch hdepartment .resourceDepartment .resource)
    | actionHour threshold haction => exact hblock (hmatch haction .action .action)
  have hcondition := writes_decoyConditionXml (designatorTag2_plain vocabulary sectionOf) false h
  exact writes_block htag (htarget.append hcondition) (List.cons_ne_nil _ _) 2

/-- The value that the target compares with is not character data. -/
def DecoySpec.Ill : DecoySpec → Prop
  | .roleNetwork role _ => Xml.Ill role.toList
  | .deptClearance department _ => Xml.Ill department.toList
  | .actionHour action _ => Xml.Ill action.toList

theorem refused_matchXml {names : String × String × String} (hnames : AreNames names) (tag : Tag)
    {raw : Text} (h : Xml.Ill raw) :
    Refused (block 6 (tagOf names.1 []) (block 8 (tagOf names.2.1 []) (block 10 (matchTag names.2.2)
      (valueLine 12 (literalTag .string) raw ++ wholeLine 12 tag)))) := by
  obtain ⟨houter, hinner, hmatch⟩ := hnames
  have hvalue := (refused_valueLine (literalTag_plain .string) h 12).append (wholeLine 12 tag)
  have hlines := (hvalue.block (matchTag_plain hmatch) 10).block (tagOf_nil_plain hinner) 8
  exact hlines.block (tagOf_nil_plain houter) 6

theorem refused_xacml3DecoyRuleXml (i : ℕ) {spec : DecoySpec} (h : spec.Ill) :
    Refused (xacml3DecoyRuleXml i spec) := by
  have hmatch {raw : Text} (hraw : Xml.Ill raw) (a : Attribute) :=
    refused_matchXml areNames_names3 (designatorTag3 vocabulary (designator true a)) hraw
  have htarget : Refused (xacml3DecoyTargetXml spec) := by
    cases spec with
    | roleNetwork role network => exact hmatch h .subjectRole
    | deptClearance department threshold => exact hmatch h .resourceDepartment
    | actionHour action threshold => exact hmatch h .action
  exact ((htarget.block targetTag_plain 4).append _).block (ruleTag3_plain (decoyRuleId_plain i) .deny) 2

theorem refused_xacml2DecoyRuleXml (i : ℕ) {spec : DecoySpec} (h : spec.Ill) :
    Refused (xacml2DecoyRuleXml i spec) := by
  have htarget : Refused (xacml2DecoyTargetXml spec) := by
    cases spec with
    | roleNetwork role network => exact refused_matchXml TargetSection.subject.areNames _ h
    | deptClearance department threshold =>
      exact refused_matchXml TargetSection.resource.areNames _ h
    | actionHour action threshold => exact refused_matchXml TargetSection.action.areNames _ h
  exact ((htarget.block targetTag_plain 4).append _).block (ruleTag2_plain (decoyRuleId_plain i) .deny) 2

theorem xacml2DecoyTarget_placed (spec : DecoySpec) : (xacml2DecoyTarget spec).Placed sectionOf := by
  have hplaced {σ : TargetSection} {value : String} {a : Attribute} (h : sectionOf a = σ) :
      ∀ p ∈ [(σ, [[matchAttr false value a]])], ∀ ms ∈ p.2, ∀ m ∈ ms, sectionOf m.attr = p.1 :=
    List.forall_mem_singleton.mpr (List.forall_mem_singleton.mpr (List.forall_mem_singleton.mpr h))
  cases spec with
  | roleNetwork role network => exact hplaced rfl
  | deptClearance department threshold => exact hplaced rfl
  | actionHour action threshold => exact hplaced rfl

theorem cutLast_eq_none {m : Char} {ms s : Text} (h : m ∉ s) : cutLast (m :: ms) s = none := by
  induction s with
  | nil => rw [cutLast, if_neg (List.cons_ne_nil _ _)]
  | cons c cs ih =>
    rw [List.mem_cons, not_or] at h
    rw [cutLast, ih h.2, List.isPrefixOf, beq_false_of_ne h.1]
    rfl

theorem cutLast_append {m : Char} {ms post : Text} (hms : m ∉ ms) (hpost : m ∉ post) (s : Text) :
    cutLast (m :: ms) (s ++ (m :: ms ++ post)) = some (s, m :: ms ++ post) := by
  induction s with
  | nil =>
    have hnone : cutLast (m :: ms) (ms ++ post) = none :=
      cutLast_eq_none fun h => (List.mem_append.mp h).elim hms hpost
    have hprefix : (m :: ms).isPrefixOf (m :: (ms ++ post)) = true :=
      List.isPrefixOf_iff_prefix.mpr (List.prefix_append (m :: ms) post)
    rw [List.nil_append, List.cons_append, cutLast, hnone, if_pos hprefix]
  | cons c cs ih => rw [List.cons_append, cutLast, ih]

theorem closingPolicy_eq : "</Policy>".toList = stopTag "Policy".toList := by
  rw [stopTag]
  repeat rw [String.toList_ofList]
  rfl

/-- The text is pasted in front of the last end tag of a policy. -/
theorem injectBeforeClosingPolicy_eq {u : Text} (hu : ∀ c ∈ u, isSpace c = true) (t rules : Text) :
    injectBeforeClosingPolicy (t ++ (stopTag "Policy".toList ++ u)) rules =
      some (t ++ (rules ++ (stopTag "Policy".toList ++ u))) := by
  have hlt : '<' ∉ ('/' :: "Policy".toList) ++ ['>'] := by
    rw [String.toList_ofList]
    decide
  rw [injectBeforeClosingPolicy]
  split_ifs with hrules
  · rw [hrules, List.nil_append]
  · rw [closingPolicy_eq, stopTag, cutLast_append hlt (lt_not_mem_of_space hu)]
    rfl

/-- Decoys as lines and as rules. -/
structure Decoys (T : Type) where
  dialect : Dialect T Attribute
  xml : ℕ → DecoySpec → Text
  rule : ℕ → DecoySpec → Rule T Attribute
  element : Rule T Attribute → Element
  writes (i : ℕ) {spec spec' : DecoySpec} (h : spec.ReadAs spec') :
    Xml.Writes (xml i spec) [element (rule i spec')]
  reads (i : ℕ) (spec : DecoySpec) : dialect.rule (element (rule i spec)) = some (rule i spec)
  refused (i : ℕ) {spec : DecoySpec} (h : spec.Ill) : Refused (xml i spec)
  indented (i : ℕ) (spec : DecoySpec) : (xml i spec).head? = some ' '

namespace Decoys

variable {T : Type} (D : Decoys T) {specs specs' : List DecoySpec}

theorem writes_mapIdx {xml : ℕ → DecoySpec → Text} {rule : ℕ → DecoySpec → Rule T Attribute}
    {element : Rule T Attribute → Element}
    (hxml : ∀ i {spec spec' : DecoySpec}, spec.ReadAs spec' →
      Xml.Writes (xml i spec) [element (rule i spec')])
    (h : List.Forall₂ DecoySpec.ReadAs specs specs') :
    Xml.Writes (specs.mapIdx xml).flatten ((specs'.mapIdx rule).map element) := by
  induction h generalizing xml rule with
  | nil => exact .blank nofun
  | cons hspec _ ih =>
    rw [List.mapIdx_cons, List.mapIdx_cons, List.flatten_cons]
    exact (hxml 0 hspec).append (ih fun i => hxml (i + 1))

theorem writes_xml (h : List.Forall₂ DecoySpec.ReadAs specs specs') :
    Xml.Writes (specs.mapIdx D.xml).flatten ((specs'.mapIdx D.rule).map D.element) :=
  writes_mapIdx D.writes h

theorem mapM_rule (specs : List DecoySpec) :
    ((specs.mapIdx D.rule).map D.element).mapM D.dialect.rule = some (specs.mapIdx D.rule) := by
  refine mapM_map fun ρ hρ => ?_
  obtain ⟨i, hi, rfl⟩ := List.mem_mapIdx.mp hρ
  exact D.reads i _

theorem head_xml (spec : DecoySpec) (specs : List DecoySpec) :
    ((spec :: specs).mapIdx D.xml).flatten.head? = some ' ' := by
  rw [List.mapIdx_cons, List.flatten_cons, List.head?_append, D.indented]
  rfl

/-- For every document that ends with `</Policy>`, pasting the text of decoys adds the decoys that a
reader finds there. -/
theorem readPolicy_inject (h : List.Forall₂ DecoySpec.ReadAs specs specs') {t u : Text}
    (hu : ∀ c ∈ u, isSpace c = true) {P : PolicyDocument T Attribute}
    (hP : D.dialect.readPolicy (t ++ (stopTag "Policy".toList ++ u)) = some P) :
    (injectBeforeClosingPolicy (t ++ (stopTag "Policy".toList ++ u))
      (specs.mapIdx D.xml).flatten).bind D.dialect.readPolicy =
        some { P with policy := P.policy.append (specs'.mapIdx D.rule) } := by
  rw [injectBeforeClosingPolicy_eq hu, Option.bind_some]
  cases h with
  | nil =>
    rw [List.mapIdx_nil, List.flatten_nil, List.nil_append, hP]
    simp [Policy.append]
  | cons hspec hspecs =>
    refine Dialect.readPolicy_insert hu hP (D.writes_xml (.cons hspec hspecs)) ?_ ?_ (D.mapM_rule _)
    · simp
    · rw [D.head_xml]
      decide

/-- A string that is not character data makes every policy unreadable. -/
theorem readPolicy_inject_eq_none {spec : DecoySpec} (h : spec.Ill) (specs : List DecoySpec)
    {t u : Text} (hu : ∀ c ∈ u, isSpace c = true) {P : PolicyDocument T Attribute}
    (hP : D.dialect.readPolicy (t ++ (stopTag "Policy".toList ++ u)) = some P) :
    (injectBeforeClosingPolicy (t ++ (stopTag "Policy".toList ++ u))
      ((spec :: specs).mapIdx D.xml).flatten).bind D.dialect.readPolicy = none := by
  have hrefused : Refused ((spec :: specs).mapIdx D.xml).flatten := by
    rw [List.mapIdx_cons, List.flatten_cons]
    exact (D.refused 0 h).append _
  rw [injectBeforeClosingPolicy_eq hu, Option.bind_some]
  refine Dialect.readPolicy_insert_eq_none hu hP hrefused ?_
  rw [D.head_xml]
  decide

end Decoys

def decoys3 : Decoys (Target Attribute) where
  dialect := version3 vocabulary
  xml := xacml3DecoyRuleXml
  rule := xacml3DecoyRule
  element := ruleElement3 vocabulary
  writes := writes_xacml3DecoyRuleXml
  reads _ _ := rule_ruleElement3 vocabulary _
  refused := refused_xacml3DecoyRuleXml
  indented _ _ := rfl

def decoys2 : Decoys (Target2 Attribute) where
  dialect := version2 vocabulary
  xml := xacml2DecoyRuleXml
  rule := xacml2DecoyRule
  element := ruleElement2 vocabulary sectionOf
  writes := writes_xacml2DecoyRuleXml
  reads _ spec := rule_ruleElement2 vocabulary category_section fun t ht => by
    cases ht
    exact xacml2DecoyTarget_placed spec
  refused := refused_xacml2DecoyRuleXml
  indented _ _ := rfl

end AbacMiddleLayer.Corpus
