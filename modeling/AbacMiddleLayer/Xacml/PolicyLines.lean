import AbacMiddleLayer.Xacml.PolicyDocument

/-! # Policies by indented lines

The two versions of the language, and rules written one element a line, each two blanks further in
than the element around it. Rules whose literals are plain text are read back from their lines.
-/
namespace AbacMiddleLayer.Xacml
open Xml Context Decimal

/-- The attributes that policies name, by category and identifier. -/
structure Vocabulary (A : Type) where
  category : A → Text
  id : A → Text
  resolve : Text → Text → Option A
  resolve_name (a : A) : resolve (category a) (id a) = some a
  category_plain (a : A) : ∀ c ∈ category a, isPlain c = true
  id_plain (a : A) : ∀ c ∈ id a, isPlain c = true

def dataTypeOf (t : Text) : Option DataType :=
  if t = DataType.string.xs.toList then some .string
  else if t = DataType.integer.xs.toList then some .integer
  else none

def booleanOf (t : Text) : Option Bool :=
  if t = ['t', 'r', 'u', 'e'] ∨ t = ['1'] then some true
  else if t = ['f', 'a', 'l', 's', 'e'] ∨ t = ['0'] then some false
  else none

theorem xs_injective {d d' : DataType} (h : d.xs = d'.xs) : d = d' := by
  revert h
  cases d <;> cases d' <;> decide

theorem dataTypeOf_xs (d : DataType) : dataTypeOf d.xs.toList = some d := by
  have hne : DataType.integer.xs.toList ≠ DataType.string.xs.toList := fun h =>
    DataType.noConfusion (xs_injective (String.toList_injective h))
  cases d with
  | string => exact if_pos rfl
  | integer => rw [dataTypeOf, if_neg hne, if_pos rfl]

theorem xs_plain (d : DataType) : ∀ c ∈ d.xs.toList, isPlain c = true := by
  cases d <;> exact forall_toList (by decide)

section Version3
variable {A : Type} (V : Vocabulary A)

def designator3 (tag : Tag) : Option (Designator A) :=
  if Named tag "AttributeDesignator" then do
    let category ← Context.attr tag "Category"
    let id ← Context.attr tag "AttributeId"
    let a ← V.resolve category id
    let d ← (Context.attr tag "DataType").bind dataTypeOf
    let must ← (Context.attr tag "MustBePresent").bind booleanOf
    some ⟨d, a, must⟩
  else none

/-- A target without elements matches everything. -/
def target3 : Element → Option (Target A)
  | .leaf tag s => if Named tag "Target" ∧ s.all isSpace then some [] else none
  | .node tag es =>
    elementsOf "Target"
      (elementsOf "AnyOf" (elementsOf "AllOf" (readMatch (designator3 V) "Match"))) (.node tag es)

def version3 : Dialect (Target A) A where
  xmlns := "urn:oasis:names:tc:xacml:3.0:core:schema:wd-17"
  designator := designator3 V
  target := target3 V

def boolean (b : Bool) : Text := if b then ['t', 'r', 'u', 'e'] else ['f', 'a', 'l', 's', 'e']

def designatorTag3 (x : Designator A) : Tag :=
  tagOf "AttributeDesignator"
    [("AttributeId", V.id x.attr), ("Category", V.category x.attr),
      ("DataType", x.dataType.xs.toList), ("MustBePresent", boolean x.mustBePresent)]

theorem designator3_tag (x : Designator A) : designator3 V (designatorTag3 V x) = some x := by
  have hboolean (b : Bool) : booleanOf (boolean b) = some b := by cases b <;> rfl
  rw [designator3, if_pos (show Named _ _ from rfl), designatorTag3]
  simp only [attr_tagOf, List.lookup_cons, show ("Category" == "AttributeId") = false from rfl,
    show ("DataType" == "AttributeId") = false from rfl, show ("DataType" == "Category") = false from rfl,
    show ("MustBePresent" == "AttributeId") = false from rfl,
    show ("MustBePresent" == "Category") = false from rfl,
    show ("MustBePresent" == "DataType") = false from rfl, beq_self_eq_true, Option.bind_eq_bind,
    Option.bind_some, V.resolve_name, dataTypeOf_xs, hboolean]

theorem designatorTag3_plain (x : Designator A) : (designatorTag3 V x).Plain := by
  have hboolean : ∀ c ∈ boolean x.mustBePresent, isPlain c = true := by
    cases x.mustBePresent <;> exact List.all_eq_true.mp (by decide)
  refine tagOf_cons_plain (isName_toList (by decide)) (V.id_plain _) (by simp) ?_
  refine tagOf_cons_plain (isName_toList (by decide)) (V.category_plain _) (by simp) ?_
  refine tagOf_cons_plain (isName_toList (by decide)) (xs_plain _) (by simp) ?_
  exact tagOf_cons_plain (isName_toList (by decide)) hboolean (by simp)
    (tagOf_nil_plain (isName_toList (by decide)))

end Version3

/-- The sections of a target, each with designators of its own. -/
inductive TargetSection where
  | subject
  | resource
  | action
  | environment
deriving DecidableEq, Repr

namespace TargetSection

def category : TargetSection → String
  | .subject => accessSubject
  | .resource => resourceCategory
  | .action => actionCategory
  | .environment => environmentCategory

def designatorName : TargetSection → String
  | .subject => "SubjectAttributeDesignator"
  | .resource => "ResourceAttributeDesignator"
  | .action => "ActionAttributeDesignator"
  | .environment => "EnvironmentAttributeDesignator"

/-- The elements around the matches of a section, and the matches. -/
def names : TargetSection → String × String × String
  | .subject => ("Subjects", "Subject", "SubjectMatch")
  | .resource => ("Resources", "Resource", "ResourceMatch")
  | .action => ("Actions", "Action", "ActionMatch")
  | .environment => ("Environments", "Environment", "EnvironmentMatch")

end TargetSection

section Version2
variable {A : Type} (V : Vocabulary A)

/-- The category of a designator; that of a subject can be chosen. -/
def category2 (tag : Tag) : Option Text :=
  if Named tag TargetSection.subject.designatorName then
    some ((Context.attr tag "SubjectCategory").getD accessSubject.toList)
  else if Named tag TargetSection.resource.designatorName then some resourceCategory.toList
  else if Named tag TargetSection.action.designatorName then some actionCategory.toList
  else if Named tag TargetSection.environment.designatorName then some environmentCategory.toList
  else none

def designator2 (tag : Tag) : Option (Designator A) := do
  let category ← category2 tag
  let id ← Context.attr tag "AttributeId"
  let a ← V.resolve category id
  let d ← (Context.attr tag "DataType").bind dataTypeOf
  let must ← booleanOf ((Context.attr tag "MustBePresent").getD ['f', 'a', 'l', 's', 'e'])
  some ⟨d, a, must⟩

/-- A section of a target takes designators of its own kind only. -/
def section2 (σ : TargetSection) : List Element → Option (Option (AnyOf A) × List Element) :=
  optional σ.names.1 (elementsOf σ.names.1 (elementsOf σ.names.2.1
    (readMatch (fun tag => if Named tag σ.designatorName then designator2 V tag else none)
      σ.names.2.2)))

def target2 : Element → Option (Target2 A)
  | .leaf tag s => if Named tag "Target" ∧ s.all isSpace then some {} else none
  | .node tag es =>
    if Named tag "Target" then do
      let (subjects, es) ← section2 V .subject es
      let (resources, es) ← section2 V .resource es
      let (actions, es) ← section2 V .action es
      let (environments, es) ← section2 V .environment es
      if es.isEmpty then some ⟨subjects, resources, actions, environments⟩ else none
    else none

def version2 : Dialect (Target2 A) A where
  xmlns := "urn:oasis:names:tc:xacml:2.0:policy:schema:os"
  designator := designator2 V
  target := target2 V

variable (sectionOf : A → TargetSection)

/-- A designator says that its attribute must be present, or leaves it at the default. -/
def designatorTag2 (x : Designator A) : Tag :=
  tagOf (sectionOf x.attr).designatorName
    ([("AttributeId", V.id x.attr), ("DataType", x.dataType.xs.toList)] ++
      if x.mustBePresent then [("MustBePresent", ['t', 'r', 'u', 'e'])] else [])

theorem designatorTag2_named (x : Designator A) (σ : TargetSection) :
    Named (designatorTag2 V sectionOf x) σ.designatorName ↔ sectionOf x.attr = σ := by
  rw [designatorTag2, named_tagOf]
  cases sectionOf x.attr <;> cases σ <;> decide

variable (hsection : ∀ a, V.category a = (sectionOf a).category.toList)
include hsection

theorem category2_tag (x : Designator A) :
    category2 (designatorTag2 V sectionOf x) = some (V.category x.attr) := by
  have hsubject : Context.attr (designatorTag2 V sectionOf x) "SubjectCategory" = none := by
    rw [designatorTag2, attr_tagOf]
    cases x.mustBePresent <;> rfl
  rw [category2, hsubject, hsection]
  simp only [designatorTag2_named]
  cases sectionOf x.attr <;> rfl

theorem designator2_tag (x : Designator A) :
    designator2 V (designatorTag2 V sectionOf x) = some x := by
  have hid : Context.attr (designatorTag2 V sectionOf x) "AttributeId" = some (V.id x.attr) := by
    rw [designatorTag2, attr_tagOf]
    cases x.mustBePresent <;> rfl
  have htype : Context.attr (designatorTag2 V sectionOf x) "DataType" =
      some x.dataType.xs.toList := by
    rw [designatorTag2, attr_tagOf]
    cases x.mustBePresent <;> rfl
  have hmust : booleanOf ((Context.attr (designatorTag2 V sectionOf x) "MustBePresent").getD
      ['f', 'a', 'l', 's', 'e']) = some x.mustBePresent := by
    rw [designatorTag2, attr_tagOf]
    cases x.mustBePresent <;> rfl
  rw [designator2, category2_tag V sectionOf hsection, hid, htype, hmust]
  simp only [Option.bind_eq_bind, Option.bind_some, V.resolve_name, dataTypeOf_xs]

omit hsection in
theorem designatorTag2_plain (x : Designator A) : (designatorTag2 V sectionOf x).Plain := by
  have hname : isName (sectionOf x.attr).designatorName.toList = true := by
    cases sectionOf x.attr <;> exact isName_toList (by decide)
  have hmust : (tagOf (sectionOf x.attr).designatorName
      (if x.mustBePresent then [("MustBePresent", ['t', 'r', 'u', 'e'])] else [])).Plain := by
    cases x.mustBePresent
    · exact tagOf_nil_plain hname
    · exact tagOf_cons_plain (isName_toList (by decide)) (List.all_eq_true.mp (by decide)) (by simp)
        (tagOf_nil_plain hname)
  refine tagOf_cons_plain (isName_toList (by decide)) (V.id_plain _) ?_ ?_
  · cases x.mustBePresent <;> simp
  · refine tagOf_cons_plain (isName_toList (by decide)) (xs_plain _) ?_ hmust
    cases x.mustBePresent <;> simp

end Version2

/-- Text that stands for itself in a document. -/
abbrev PlainText (s : Text) : Prop := Reads s s

theorem PlainText.noCr {s : Text} (h : PlainText s) : '\r' ∉ s :=
  ((readText_eq_self_iff s).mp h.value).2

/-- Characters that make plain text in any order. -/
def isTextChar (c : Char) : Bool :=
  isXmlChar c && c != '<' && c != '>' && c != '&' && c != '\r'

theorem plainText_of_chars {s : Text} (h : ∀ c ∈ s, isTextChar c = true) : PlainText s := by
  have hne {d : Char} (hd : isTextChar d = false) : d ∉ s := fun hmem => by
    rw [h d hmem] at hd
    cases hd
  have hcr : '\r' ∉ s := hne (by decide)
  refine ⟨hne (by decide), ?_, ?_, ?_⟩
  · intro c hc
    have hchar := h c hc
    simp only [isTextChar, Bool.and_eq_true] at hchar
    exact hchar.1.1.1.1
  · rw [normalizeLineEnds_eq_self hcr]
    exact hasCdataEnd_eq_false (hne (by decide))
  · exact (readText_eq_self_iff s).mpr ⟨hne (by decide), hcr⟩

theorem isTextChar_digit {c : Char} (h : c.isDigit = true) : isTextChar c = true := by
  have hrange : 48 ≤ c.toNat ∧ c.toNat ≤ 57 := Char.isDigit_iff_toNat.mp h
  have hne {d : Char} (hd : d.isDigit = false) : (c != d) = true := by
    rw [bne_iff_ne]
    rintro rfl
    rw [h] at hd
    cases hd
  have hxml : isXmlChar c = true := by
    simp only [isXmlChar, Bool.or_eq_true, Bool.and_eq_true, decide_eq_true_eq]
    omega
  rw [isTextChar, hxml, hne (by decide), hne (by decide), hne (by decide), hne (by decide)]
  rfl

theorem plainText_decimal (n : ℤ) : PlainText (decimal n) := by
  refine plainText_of_chars fun c hc => ?_
  rcases mem_decimal hc with hdigit | rfl
  · exact isTextChar_digit hdigit
  · decide

def literalTag (d : DataType) : Tag := tagOf "AttributeValue" [("DataType", d.xs.toList)]

theorem literalTag_plain (d : DataType) : (literalTag d).Plain :=
  tagOf_cons_plain (isName_toList (by decide)) (xs_plain d) (by simp)
    (tagOf_nil_plain (isName_toList (by decide)))

theorem Function.urn_plain (f : Function) : ∀ c ∈ f.urn, isPlain c = true := by
  refine List.forall_mem_append.mpr ⟨forall_toList (by decide), ?_⟩
  rcases f with _ | _ | _ | (_ | _ | _) | (_ | _) <;> exact forall_toList (by decide)

theorem applyTag_plain (f : Function) : (applyTag f).Plain :=
  tagOf_cons_plain (isName_toList (by decide)) f.urn_plain (by simp)
    (tagOf_nil_plain (isName_toList (by decide)))

/-- The literals are plain text. -/
def Operand.Plain {A : Type} {d : DataType} : Operand A d → Prop
  | .literal v => PlainText (d.write v)
  | .designator _ _ => True

def Condition.Plain {A : Type} : Condition A → Prop
  | .stringEqual x y => x.Plain ∧ y.Plain
  | .integerCompare _ x y => x.Plain ∧ y.Plain
  | .and x y => x.Plain ∧ y.Plain
  | .or x y => x.Plain ∧ y.Plain

/-- The matches have plain values, and there are some wherever there may be. -/
def AnyOf.Plain {A : Type} (as : AnyOf A) : Prop :=
  as ≠ [] ∧ ∀ ms ∈ as, ms ≠ [] ∧ ∀ m ∈ ms, PlainText m.value.toList

/-- The three elements of a target can be called that. -/
def AreNames (names : String × String × String) : Prop :=
  isName names.1.toList = true ∧ isName names.2.1.toList = true ∧ isName names.2.2.toList = true

section Lines
variable {A : Type} (designatorTag : Designator A → Tag)

def operandLines (n : ℕ) {d : DataType} : Operand A d → Text
  | .literal v => valueLine n (literalTag d) (d.write v)
  | .designator a must =>
    block n (applyTag (.oneAndOnly d)) (wholeLine (n + 2) (designatorTag ⟨d, a, must⟩))

def conditionLines : ℕ → Condition A → Text
  | n, .stringEqual x y =>
    block n (applyTag .stringEqual)
      (operandLines designatorTag (n + 2) x ++ operandLines designatorTag (n + 2) y)
  | n, .integerCompare c x y =>
    block n (applyTag (.integerCompare c))
      (operandLines designatorTag (n + 2) x ++ operandLines designatorTag (n + 2) y)
  | n, .and x y => block n (applyTag .and) (conditionLines (n + 2) x ++ conditionLines (n + 2) y)
  | n, .or x y => block n (applyTag .or) (conditionLines (n + 2) x ++ conditionLines (n + 2) y)

def matchTag (name : String) : Tag := tagOf name [("MatchId", Function.stringEqual.urn)]

theorem matchTag_plain {name : String} (hname : isName name.toList = true) : (matchTag name).Plain :=
  tagOf_cons_plain (isName_toList (by decide)) (Function.urn_plain _) (by simp) (tagOf_nil_plain hname)

def matchLines (name : String) (n : ℕ) (m : Match A) : Text :=
  block n (matchTag name)
    (valueLine (n + 2) (literalTag .string) m.value.toList ++
      wholeLine (n + 2) (designatorTag ⟨.string, m.attr, m.mustBePresent⟩))

/-- A disjunction of conjunctions of matches, under the names of the three elements. -/
def anyOfLines (names : String × String × String) (n : ℕ) (as : AnyOf A) : Text :=
  block n (tagOf names.1 []) (as.flatMap fun ms =>
    block (n + 2) (tagOf names.2.1 []) (ms.flatMap (matchLines designatorTag names.2.2 (n + 4))))

def anyOfElement (names : String × String × String) (as : AnyOf A) : Element :=
  .node (tagOf names.1 []) (as.map fun ms =>
    .node (tagOf names.2.1 []) (ms.map (matchElement designatorTag names.2.2)))

/-- The lines of a rule around those of its target. -/
def ruleLines (n : ℕ) (tag : Tag) (target : Option Text) (c : Option (Condition A)) : Text :=
  if target = none ∧ c.isNone then wholeLine n tag
  else block n tag (target.getD [] ++
    (c.map fun c => block (n + 2) Dialect.conditionTag (conditionLines designatorTag (n + 4) c)).getD [])

variable {designatorTag} (hplain : ∀ x, (designatorTag x).Plain)
include hplain

theorem writes_operandLines {d : DataType} {x : Operand A d} (h : x.Plain) (n : ℕ) :
    Writes (operandLines designatorTag n x) [operandElement designatorTag x] := by
  cases x with
  | literal v => exact writes_valueLine (literalTag_plain d) h (PlainText.noCr h) n
  | designator a must =>
    exact writes_block (applyTag_plain _) (writes_wholeLine (hplain _) _) (List.cons_ne_nil _ _) n

theorem writes_conditionLines {c : Condition A} (h : c.Plain) (n : ℕ) :
    Writes (conditionLines designatorTag n c) [conditionElement designatorTag c] := by
  induction c generalizing n with
  | stringEqual x y =>
    have hx := writes_operandLines hplain h.1 (n + 2)
    have hy := writes_operandLines hplain h.2 (n + 2)
    exact writes_block (applyTag_plain _) (hx.append hy) (List.cons_ne_nil _ _) n
  | integerCompare c x y =>
    have hx := writes_operandLines hplain h.1 (n + 2)
    have hy := writes_operandLines hplain h.2 (n + 2)
    exact writes_block (applyTag_plain _) (hx.append hy) (List.cons_ne_nil _ _) n
  | and x y ihx ihy =>
    exact writes_block (applyTag_plain _) ((ihx h.1 (n + 2)).append (ihy h.2 (n + 2)))
      (List.cons_ne_nil _ _) n
  | or x y ihx ihy =>
    exact writes_block (applyTag_plain _) ((ihx h.1 (n + 2)).append (ihy h.2 (n + 2)))
      (List.cons_ne_nil _ _) n

theorem writes_matchLines {name : String} (hname : isName name.toList = true) {m : Match A}
    (h : PlainText m.value.toList) (n : ℕ) :
    Writes (matchLines designatorTag name n m) [matchElement designatorTag name m] := by
  have hvalue := writes_valueLine (literalTag_plain .string) h h.noCr (n + 2)
  exact writes_block (matchTag_plain hname) (hvalue.append (writes_wholeLine (hplain _) _))
    (List.cons_ne_nil _ _) n

theorem writes_anyOfLines {names : String × String × String} (hnames : AreNames names)
    {as : AnyOf A} (h : as.Plain) (n : ℕ) :
    Writes (anyOfLines designatorTag names n as) [anyOfElement designatorTag names as] := by
  obtain ⟨houter, hinner, hmatch⟩ := hnames
  refine writes_block (tagOf_nil_plain houter) (writes_flatMap fun ms hms => ?_)
    (mt List.map_eq_nil_iff.mp h.1) n
  obtain ⟨hne, hvalues⟩ := h.2 ms hms
  exact writes_block (tagOf_nil_plain hinner)
    (writes_flatMap fun m hm => writes_matchLines hplain hmatch (hvalues m hm) _)
    (mt List.map_eq_nil_iff.mp hne) _

theorem writes_ruleLines {tag : Tag} (htag : tag.Plain) {t : Option Text} {e : Option Element}
    (ht : ∀ s, t = some s → ∃ x, e = some x ∧ Writes s [x]) (hnone : t = none → e = none)
    {c : Option (Condition A)} (hc : ∀ x, c = some x → x.Plain) (n : ℕ) :
    Writes (ruleLines designatorTag n tag t c) [ruleElement tag (e.toList ++
      (c.map fun c => .node Dialect.conditionTag [conditionElement designatorTag c]).toList)] := by
  have hcondition (x : Condition A) (hx : x.Plain) :
      Writes (block (n + 2) Dialect.conditionTag (conditionLines designatorTag (n + 4) x))
        [.node Dialect.conditionTag [conditionElement designatorTag x]] :=
    writes_block (tagOf_nil_plain (isName_toList (by decide))) (writes_conditionLines hplain hx _)
      (List.cons_ne_nil _ _) _
  cases t with
  | none =>
    obtain rfl := hnone rfl
    cases c with
    | none => exact writes_wholeLine htag n
    | some x => exact writes_block htag (hcondition x (hc x rfl)) (List.cons_ne_nil _ _) n
  | some s =>
    obtain ⟨y, rfl, hy⟩ := ht s rfl
    cases c with
    | none =>
      have htarget := hy.append (.blank (s := []) nofun)
      exact writes_block htag htarget (List.cons_ne_nil _ _) n
    | some x => exact writes_block htag (hy.append (hcondition x (hc x rfl))) (List.cons_ne_nil _ _) n

end Lines

theorem mapM_map {α β : Type} {f : β → Option α} {g : α → β} {l : List α}
    (h : ∀ a ∈ l, f (g a) = some a) : (l.map g).mapM f = some l := by
  induction l with
  | nil => rfl
  | cons a l ih =>
    rw [List.forall_mem_cons] at h
    rw [List.map_cons, List.mapM_cons, h.1, ih h.2]
    rfl

/-- A disjunction is read back under designators that are. -/
theorem elementsOf_anyOfElement {A : Type} {designatorTag : Designator A → Tag}
    {designator : Tag → Option (Designator A)} {names : String × String × String} {as : AnyOf A}
    (h : ∀ ms ∈ as, ∀ m ∈ ms, designator (designatorTag ⟨.string, m.attr, m.mustBePresent⟩) =
      some ⟨.string, m.attr, m.mustBePresent⟩) :
    elementsOf names.1 (elementsOf names.2.1 (readMatch designator names.2.2))
      (anyOfElement designatorTag names as) = some as := by
  rw [anyOfElement, elementsOf, if_pos (show Named _ _ from rfl)]
  refine mapM_map fun ms hms => ?_
  rw [elementsOf, if_pos (show Named _ _ from rfl)]
  refine mapM_map fun m hm => ?_
  rw [matchElement, readMatch, attr_tagOf, if_pos ⟨rfl, rfl, rfl⟩, literal_literalElement,
    Option.bind_some, h ms hms m hm, Option.bind_some, if_pos rfl]

def targetTag : Tag := tagOf "Target" []

theorem targetTag_plain : targetTag.Plain := tagOf_nil_plain (isName_toList (by decide))

section Version3
variable {A : Type} (V : Vocabulary A)

def names3 : String × String × String := ("AnyOf", "AllOf", "Match")

def targetLines3 (n : ℕ) (t : Target A) : Text :=
  block n targetTag (t.flatMap (anyOfLines (designatorTag3 V) names3 (n + 2)))

def targetElement3 (t : Target A) : Element :=
  .node targetTag (t.map (anyOfElement (designatorTag3 V) names3))

def ruleTag3 (id : String) (e : Effect) : Tag :=
  tagOf "Rule" [("Effect", e.name.toList), ("RuleId", id.toList)]

def ruleLines3 (n : ℕ) (ρ : Rule (Target A) A) : Text :=
  ruleLines (designatorTag3 V) n (ruleTag3 ρ.ruleId ρ.effect)
    (ρ.target.map (targetLines3 V (n + 2))) ρ.condition

def ruleElement3 (ρ : Rule (Target A) A) : Element :=
  ruleElement (ruleTag3 ρ.ruleId ρ.effect) ((ρ.target.map (targetElement3 V)).toList ++
    (ρ.condition.map fun c =>
      .node Dialect.conditionTag [conditionElement (designatorTag3 V) c]).toList)

theorem target3_targetElement3 (t : Target A) : target3 V (targetElement3 V t) = some t := by
  rw [targetElement3, target3, elementsOf, if_pos (show Named _ _ from rfl)]
  exact mapM_map fun as _ => elementsOf_anyOfElement fun _ _ _ _ => designator3_tag V _

/-- Every rule is read back from its element. -/
theorem rule_ruleElement3 (ρ : Rule (Target A) A) :
    (version3 V).rule (ruleElement3 V ρ) = some ρ := by
  have htarget : (version3 V).WritesTarget (ρ.target.map (targetElement3 V)) ρ.target := by
    cases ρ.target with
    | none => exact .none
    | some t => exact .some rfl (target3_targetElement3 V t)
  have hdesignator : ∀ x, (version3 V).designator (designatorTag3 V x) = some x := designator3_tag V
  have hname : Named (ruleTag3 ρ.ruleId ρ.effect) "Rule" := rfl
  have hid : Context.attr (ruleTag3 ρ.ruleId ρ.effect) "RuleId" = some ρ.ruleId.toList := by
    rw [ruleTag3, attr_tagOf]
    rfl
  have heffect : Context.attr (ruleTag3 ρ.ruleId ρ.effect) "Effect" = some ρ.effect.name.toList := by
    rw [ruleTag3, attr_tagOf]
    rfl
  have hrule := Dialect.rule_ruleElement hdesignator hname hid heffect htarget ρ.condition
  rw [String.ofList_toList] at hrule
  exact hrule

/-- What can be written: the literals are plain, and nothing in the target is empty. -/
structure Plain3 (ρ : Rule (Target A) A) : Prop where
  id : ∀ c ∈ ρ.ruleId.toList, isPlain c = true
  target : ∀ t, ρ.target = some t → t ≠ [] ∧ ∀ as ∈ t, as.Plain
  condition : ∀ c, ρ.condition = some c → c.Plain

theorem areNames_names3 : AreNames names3 :=
  ⟨isName_toList (by decide), isName_toList (by decide), isName_toList (by decide)⟩

theorem writes_targetLines3 {t : Target A} (hne : t ≠ []) (h : ∀ as ∈ t, as.Plain) (n : ℕ) :
    Writes (targetLines3 V n t) [targetElement3 V t] := by
  refine writes_block targetTag_plain (writes_flatMap fun as has => ?_)
    (mt List.map_eq_nil_iff.mp hne) n
  exact writes_anyOfLines (designatorTag3_plain V) areNames_names3 (h as has) _

theorem Effect.name_plain (e : Effect) : ∀ c ∈ e.name.toList, isPlain c = true := by
  cases e <;> exact forall_toList (by decide)

theorem ruleTag3_plain {id : String} (h : ∀ c ∈ id.toList, isPlain c = true) (e : Effect) :
    (ruleTag3 id e).Plain := by
  refine tagOf_cons_plain (isName_toList (by decide)) e.name_plain (by simp) ?_
  exact tagOf_cons_plain (isName_toList (by decide)) h (by simp)
    (tagOf_nil_plain (isName_toList (by decide)))

theorem writes_ruleLines3 {ρ : Rule (Target A) A} (h : Plain3 ρ) (n : ℕ) :
    Writes (ruleLines3 V n ρ) [ruleElement3 V ρ] := by
  refine writes_ruleLines (designatorTag3_plain V) (ruleTag3_plain h.id ρ.effect) ?_ ?_ h.condition n
  · intro s hs
    obtain ⟨t, ht, rfl⟩ := Option.map_eq_some_iff.mp hs
    exact ⟨targetElement3 V t, by rw [ht]; rfl,
      writes_targetLines3 V (h.target t ht).1 (h.target t ht).2 _⟩
  · intro hs
    rw [Option.map_eq_none_iff.mp hs]
    rfl

end Version3

section Version2
variable {A : Type} (V : Vocabulary A) (sectionOf : A → TargetSection)

/-- The sections that a target has, in the order of the schema. -/
def Target2.parts (t : Target2 A) : List (TargetSection × AnyOf A) :=
  (t.subjects.map (TargetSection.subject, ·)).toList ++
    ((t.resources.map (TargetSection.resource, ·)).toList ++
      ((t.actions.map (TargetSection.action, ·)).toList ++
        (t.environments.map (TargetSection.environment, ·)).toList))

def partElement (p : TargetSection × AnyOf A) : Element :=
  anyOfElement (designatorTag2 V sectionOf) p.1.names p.2

def targetLines2 (n : ℕ) (t : Target2 A) : Text :=
  block n targetTag (t.parts.flatMap fun p =>
    anyOfLines (designatorTag2 V sectionOf) p.1.names (n + 2) p.2)

def targetElement2 (t : Target2 A) : Element :=
  .node targetTag (t.parts.map (partElement V sectionOf))

def ruleTag2 (id : String) (e : Effect) : Tag :=
  tagOf "Rule" [("RuleId", id.toList), ("Effect", e.name.toList)]

def ruleLines2 (n : ℕ) (ρ : Rule (Target2 A) A) : Text :=
  ruleLines (designatorTag2 V sectionOf) n (ruleTag2 ρ.ruleId ρ.effect)
    (ρ.target.map (targetLines2 V sectionOf (n + 2))) ρ.condition

def ruleElement2 (ρ : Rule (Target2 A) A) : Element :=
  ruleElement (ruleTag2 ρ.ruleId ρ.effect) ((ρ.target.map (targetElement2 V sectionOf)).toList ++
    (ρ.condition.map fun c =>
      .node Dialect.conditionTag [conditionElement (designatorTag2 V sectionOf) c]).toList)

/-- The matches of each section are about attributes of its kind. -/
def Target2.Placed (t : Target2 A) : Prop :=
  ∀ p ∈ t.parts, ∀ ms ∈ p.2, ∀ m ∈ ms, sectionOf m.attr = p.1

variable {sectionOf} (hsection : ∀ a, V.category a = (sectionOf a).category.toList)

theorem named_partElement (p : TargetSection × AnyOf A) (σ : TargetSection) :
    Named (partElement V sectionOf p).tag σ.names.1 ↔ p.1 = σ := by
  rw [show (partElement V sectionOf p).tag = tagOf p.1.names.1 [] from rfl, named_tagOf]
  cases p.1 <;> cases σ <;> decide

include hsection in
/-- A section is read, or skipped in front of the sections that follow it. -/
theorem section2_parts {σ : TargetSection} {o : Option (AnyOf A)}
    (ho : ∀ as ∈ o, ∀ ms ∈ as, ∀ m ∈ ms, sectionOf m.attr = σ)
    {ps : List (TargetSection × AnyOf A)} (hps : ∀ p ∈ ps, p.1 ≠ σ) :
    section2 V σ (((o.map (σ, ·)).toList ++ ps).map (partElement V sectionOf)) =
      some (o, ps.map (partElement V sectionOf)) := by
  cases o with
  | none =>
    refine optional_of_ne fun e he => ?_
    rw [Option.map_none, Option.toList_none, List.nil_append, List.head?_map,
      Option.map_eq_some_iff] at he
    obtain ⟨p, hp, rfl⟩ := he
    exact mt (named_partElement V p σ).mp (hps p (List.mem_of_head? hp))
  | some as =>
    refine optional_cons ((named_partElement V (σ, as) σ).mpr rfl)
      (elementsOf_anyOfElement fun ms hms m hm => ?_) _
    rw [if_pos ((designatorTag2_named V sectionOf _ σ).mpr (ho as rfl ms hms m hm))]
    exact designator2_tag V sectionOf hsection _

theorem fst_of_mem_toList {σ : TargetSection} {o : Option (AnyOf A)} {p : TargetSection × AnyOf A}
    (h : p ∈ (o.map (σ, ·)).toList) : p.1 = σ := by
  rw [Option.mem_toList, Option.map_eq_some_iff] at h
  obtain ⟨as, -, rfl⟩ := h
  rfl

include hsection in
/-- A target is read back, section by section. -/
theorem target2_targetElement2 {t : Target2 A} (h : t.Placed sectionOf) :
    target2 V (targetElement2 V sectionOf t) = some t := by
  have hsubjects : ∀ as ∈ t.subjects, ∀ ms ∈ as, ∀ m ∈ ms, sectionOf m.attr = .subject :=
    fun as has => h (.subject, as) (by simpa [Target2.parts] using has)
  have hresources : ∀ as ∈ t.resources, ∀ ms ∈ as, ∀ m ∈ ms, sectionOf m.attr = .resource :=
    fun as has => h (.resource, as) (by simpa [Target2.parts] using has)
  have hactions : ∀ as ∈ t.actions, ∀ ms ∈ as, ∀ m ∈ ms, sectionOf m.attr = .action :=
    fun as has => h (.action, as) (by simpa [Target2.parts] using has)
  have henvironments : ∀ as ∈ t.environments, ∀ ms ∈ as, ∀ m ∈ ms, sectionOf m.attr = .environment :=
    fun as has => h (.environment, as) (by simpa [Target2.parts] using has)
  -- no section is taken for one that comes before it
  have hlater {σ : TargetSection} {ps qs : List (TargetSection × AnyOf A)}
      (hps : ∀ p ∈ ps, p.1 ≠ σ) (hqs : ∀ p ∈ qs, p.1 ≠ σ) : ∀ p ∈ ps ++ qs, p.1 ≠ σ :=
    List.forall_mem_append.mpr ⟨hps, hqs⟩
  have hpart {σ τ : TargetSection} (hne : τ ≠ σ) (o : Option (AnyOf A)) :
      ∀ p ∈ (o.map (τ, ·)).toList, p.1 ≠ σ := fun p hp => fst_of_mem_toList hp ▸ hne
  have hlast := section2_parts V hsection henvironments (List.forall_mem_nil _)
  rw [List.append_nil, List.map_nil] at hlast
  rw [targetElement2, target2, if_pos (show Named _ _ from rfl), Target2.parts,
    section2_parts V hsection hsubjects (hlater (hpart (by decide) _)
      (hlater (hpart (by decide) _) (hpart (by decide) _)))]
  simp only [Option.bind_eq_bind, Option.bind_some]
  rw [section2_parts V hsection hresources (hlater (hpart (by decide) _) (hpart (by decide) _))]
  simp only [Option.bind_some]
  rw [section2_parts V hsection hactions (hpart (by decide) _)]
  simp only [Option.bind_some, hlast]
  rfl

include hsection in
/-- A rule is read back when its matches are in their sections. -/
theorem rule_ruleElement2 {ρ : Rule (Target2 A) A} (h : ∀ t, ρ.target = some t → t.Placed sectionOf) :
    (version2 V).rule (ruleElement2 V sectionOf ρ) = some ρ := by
  have htarget : (version2 V).WritesTarget (ρ.target.map (targetElement2 V sectionOf)) ρ.target := by
    rcases ht : ρ.target with _ | t
    · exact .none
    · exact .some rfl (target2_targetElement2 V hsection (h t ht))
  have hdesignator : ∀ x, (version2 V).designator (designatorTag2 V sectionOf x) = some x :=
    designator2_tag V sectionOf hsection
  have hname : Named (ruleTag2 ρ.ruleId ρ.effect) "Rule" := rfl
  have hid : Context.attr (ruleTag2 ρ.ruleId ρ.effect) "RuleId" = some ρ.ruleId.toList := by
    rw [ruleTag2, attr_tagOf]
    rfl
  have heffect : Context.attr (ruleTag2 ρ.ruleId ρ.effect) "Effect" = some ρ.effect.name.toList := by
    rw [ruleTag2, attr_tagOf]
    rfl
  have hrule := Dialect.rule_ruleElement hdesignator hname hid heffect htarget ρ.condition
  rw [String.ofList_toList] at hrule
  exact hrule

structure Plain2 (ρ : Rule (Target2 A) A) : Prop where
  id : ∀ c ∈ ρ.ruleId.toList, isPlain c = true
  target : ∀ t, ρ.target = some t → t.parts ≠ [] ∧ ∀ p ∈ t.parts, p.2.Plain
  condition : ∀ c, ρ.condition = some c → c.Plain

theorem TargetSection.areNames (σ : TargetSection) : AreNames σ.names := by
  cases σ <;> exact ⟨isName_toList (by decide), isName_toList (by decide), isName_toList (by decide)⟩

theorem writes_targetLines2 {t : Target2 A} (hne : t.parts ≠ []) (h : ∀ p ∈ t.parts, p.2.Plain)
    (n : ℕ) : Writes (targetLines2 V sectionOf n t) [targetElement2 V sectionOf t] := by
  refine writes_block targetTag_plain (writes_flatMap fun p hp => ?_)
    (mt List.map_eq_nil_iff.mp hne) n
  exact writes_anyOfLines (designatorTag2_plain V sectionOf) p.1.areNames (h p hp) _

theorem ruleTag2_plain {id : String} (h : ∀ c ∈ id.toList, isPlain c = true) (e : Effect) :
    (ruleTag2 id e).Plain := by
  refine tagOf_cons_plain (isName_toList (by decide)) h (by simp) ?_
  exact tagOf_cons_plain (isName_toList (by decide)) e.name_plain (by simp)
    (tagOf_nil_plain (isName_toList (by decide)))

theorem writes_ruleLines2 {ρ : Rule (Target2 A) A} (h : Plain2 ρ) (n : ℕ) :
    Writes (ruleLines2 V sectionOf n ρ) [ruleElement2 V sectionOf ρ] := by
  refine writes_ruleLines (designatorTag2_plain V sectionOf) (ruleTag2_plain h.id ρ.effect) ?_ ?_
    h.condition n
  · intro s hs
    obtain ⟨t, ht, rfl⟩ := Option.map_eq_some_iff.mp hs
    exact ⟨targetElement2 V sectionOf t, by rw [ht]; rfl,
      writes_targetLines2 V (h.target t ht).1 (h.target t ht).2 _⟩
  · intro hs
    rw [Option.map_eq_none_iff.mp hs]
    rfl

end Version2

end AbacMiddleLayer.Xacml
