import AbacMiddleLayer.Decimal
import AbacMiddleLayer.Xacml.Context
import AbacMiddleLayer.Xacml.Evaluation
import AbacMiddleLayer.Xml.Refusal

/-! # Policy documents

A policy is read from its document: the target, the rules with their targets and conditions, and the
combining algorithm. Versions 3.0 and 2.0 differ in their designators and targets and share
everything else. Every rule can be written as an element and is read back from it; and rules that are
written in front of the end tag of a policy are read behind the rules that it has. Of the functions
of the language only those on strings and integers below are read; a document with anything else is
refused.
-/
namespace AbacMiddleLayer.Xacml
open Xml Context Decimal

def DataType.xs : DataType → String
  | .string => xsString
  | .integer => xsInteger

def DataType.read : (d : DataType) → Text → Option d.Carrier
  | .string, s => some (String.ofList s)
  | .integer, s => integerValue s

def DataType.write : (d : DataType) → d.Carrier → Text
  | .string, v => String.toList v
  | .integer, v => decimal v

theorem DataType.read_write (d : DataType) (v : d.Carrier) : d.read (d.write v) = some v := by
  cases d with
  | string => exact congrArg some (String.ofList_toList)
  | integer => exact integerValue_decimal v

inductive Function where
  | and
  | or
  | stringEqual
  | integerCompare (c : Comparison)
  | oneAndOnly (d : DataType)
deriving DecidableEq, Repr

namespace Function

def name : Function → String
  | .and => "and"
  | .or => "or"
  | .stringEqual => "string-equal"
  | .integerCompare .greaterThanOrEqual => "integer-greater-than-or-equal"
  | .integerCompare .lessThanOrEqual => "integer-less-than-or-equal"
  | .integerCompare .lessThan => "integer-less-than"
  | .oneAndOnly .string => "string-one-and-only"
  | .oneAndOnly .integer => "integer-one-and-only"

def urn (f : Function) : Text := "urn:oasis:names:tc:xacml:1.0:function:".toList ++ f.name.toList

def all : List Function :=
  [.and, .or, .stringEqual, .integerCompare .greaterThanOrEqual, .integerCompare .lessThanOrEqual,
    .integerCompare .lessThan, .oneAndOnly .string, .oneAndOnly .integer]

def ofUrn (t : Text) : Option Function := all.find? fun f => decide (f.urn = t)

theorem mem_all (f : Function) : f ∈ all := by
  rcases f with _ | _ | _ | (_ | _ | _) | (_ | _) <;> decide

theorem eq_of_urn_eq {f g : Function} (h : f.urn = g.urn) : f = g := by
  have hname : f.name = g.name := String.toList_injective (List.append_cancel_left h)
  revert hname
  rcases f with _ | _ | _ | (_ | _ | _) | (_ | _) <;>
    rcases g with _ | _ | _ | (_ | _ | _) | (_ | _) <;> decide

theorem ofUrn_urn (f : Function) : ofUrn f.urn = some f := by
  rcases h : ofUrn f.urn with _ | g
  · have hf := List.find?_eq_none.mp h f (mem_all f)
    exact absurd (decide_eq_true rfl) hf
  · have hg := List.find?_some h
    rw [eq_of_urn_eq (of_decide_eq_true hg)]

end Function

def Effect.name : Effect → String
  | .permit => "Permit"
  | .deny => "Deny"

def effectOf (t : Text) : Option Effect :=
  if t = Effect.permit.name.toList then some .permit
  else if t = Effect.deny.name.toList then some .deny
  else none

theorem effectOf_name (e : Effect) : effectOf e.name.toList = some e := by
  have hne : Effect.deny.name.toList ≠ Effect.permit.name.toList := fun h =>
    absurd (String.toList_injective h) (by decide)
  cases e with
  | permit => exact if_pos rfl
  | deny => rw [effectOf, if_neg hne, if_pos rfl]

structure Designator (A : Type) where
  dataType : DataType
  attr : A
  mustBePresent : Bool

/-- What the versions of the language differ in. -/
structure Dialect (T A : Type) where
  xmlns : String
  designator : Tag → Option (Designator A)
  target : Element → Option T

/-- A policy with the combining algorithm that its document names. -/
structure PolicyDocument (T A : Type) where
  algorithm : Text
  policy : Policy T A

abbrev Named (tag : Tag) (name : String) : Prop := tag.name = name.toList

/-- The elements in an element with a name. -/
def elementsOf {α : Type} (name : String) (read : Element → Option α) : Element → Option (List α)
  | .node tag es => if Named tag name then es.mapM read else none
  | .leaf _ _ => none

/-- An element that may be missing, and the elements behind it. -/
def optional {α : Type} (name : String) (read : Element → Option α) :
    List Element → Option (Option α × List Element)
  | [] => some (none, [])
  | e :: es => if Named e.tag name then (read e).map fun a => (some a, es) else some (none, e :: es)

def skip (name : String) (es : List Element) : Option (List Element) :=
  (optional name (fun _ => some ()) es).map Prod.snd

def literal (d : DataType) : Element → Option d.Carrier
  | .leaf tag s =>
    if Named tag "AttributeValue" ∧ Context.attr tag "DataType" = some d.xs.toList then d.read s
    else none
  | .node _ _ => none

section Reading
variable {A : Type} (designator : Tag → Option (Designator A))

def operand (d : DataType) : Element → Option (Operand A d)
  | .leaf tag s => (literal d (.leaf tag s)).map .literal
  | .node tag [.leaf inner s] =>
    if Named tag "Apply" ∧ Context.attr tag "FunctionId" = some (Function.oneAndOnly d).urn ∧
        s.all isSpace then
      (designator inner).bind fun x =>
        if x.dataType = d then some (.designator x.attr x.mustBePresent) else none
    else none
  | .node _ _ => none

/-- Functions of two arguments over conditions and operands. -/
def condition : Element → Option (Condition A)
  | .node tag [x, y] =>
    if Named tag "Apply" then
      match (Context.attr tag "FunctionId").bind Function.ofUrn with
      | some .and => (condition x).bind fun a => (condition y).map fun b => .and a b
      | some .or => (condition x).bind fun a => (condition y).map fun b => .or a b
      | some .stringEqual =>
        (operand designator .string x).bind fun a =>
          (operand designator .string y).map fun b => .stringEqual a b
      | some (.integerCompare c) =>
        (operand designator .integer x).bind fun a =>
          (operand designator .integer y).map fun b => .integerCompare c a b
      | _ => none
    else none
  | _ => none

/-- A match of a value against a designator. -/
def readMatch (name : String) : Element → Option (Match A)
  | .node tag [value, .leaf inner s] =>
    if Named tag name ∧ Context.attr tag "MatchId" = some Function.stringEqual.urn ∧
        s.all isSpace then
      (literal .string value).bind fun v => (designator inner).bind fun x =>
        if x.dataType = .string then some ⟨v, x.attr, x.mustBePresent⟩ else none
    else none
  | _ => none

end Reading

namespace Dialect

variable {T A : Type} (L : Dialect T A)

/-- The one expression in a `Condition`. -/
def conditionOf : Element → Option (Condition A)
  | .node _ [e] => condition L.designator e
  | _ => none

def rule (e : Element) : Option (Rule T A) :=
  if Named e.tag "Rule" then do
    let id ← Context.attr e.tag "RuleId"
    let effect ← (Context.attr e.tag "Effect").bind effectOf
    let es ← e.content
    let es ← skip "Description" es
    let (target, es) ← optional "Target" L.target es
    let (condition, es) ← optional "Condition" L.conditionOf es
    if es.isEmpty then some ⟨String.ofList id, effect, target, condition⟩ else none
  else none

def policy (e : Element) : Option (PolicyDocument T A) :=
  if Named e.tag "Policy" ∧ Context.attr e.tag "xmlns" = some L.xmlns.toList then do
    let id ← Context.attr e.tag "PolicyId"
    let algorithm ← Context.attr e.tag "RuleCombiningAlgId"
    let es ← e.content
    let es ← skip "Description" es
    let (target, es) ← optional "Target" L.target es
    let target ← target
    let rules ← es.mapM L.rule
    some ⟨algorithm, ⟨String.ofList id, target, rules⟩⟩
  else none

def readPolicy (doc : Text) : Option (PolicyDocument T A) := (parse doc).bind L.policy

end Dialect

def literalElement (d : DataType) (v : d.Carrier) : Element :=
  .leaf (tagOf "AttributeValue" [("DataType", d.xs.toList)]) (d.write v)

def applyTag (f : Function) : Tag := tagOf "Apply" [("FunctionId", f.urn)]

@[simp] theorem literal_literalElement (d : DataType) (v : d.Carrier) :
    literal d (literalElement d v) = some v := by
  rw [literalElement, literal, attr_tagOf, if_pos ⟨rfl, rfl⟩, d.read_write]

section Writing
variable {A : Type} (designatorTag : Designator A → Tag)

def operandElement {d : DataType} : Operand A d → Element
  | .literal v => literalElement d v
  | .designator a must => .node (applyTag (.oneAndOnly d)) [.leaf (designatorTag ⟨d, a, must⟩) []]

def conditionElement : Condition A → Element
  | .stringEqual x y =>
    .node (applyTag .stringEqual) [operandElement designatorTag x, operandElement designatorTag y]
  | .integerCompare c x y =>
    .node (applyTag (.integerCompare c))
      [operandElement designatorTag x, operandElement designatorTag y]
  | .and x y => .node (applyTag .and) [conditionElement x, conditionElement y]
  | .or x y => .node (applyTag .or) [conditionElement x, conditionElement y]

def matchElement (name : String) (m : Match A) : Element :=
  .node (tagOf name [("MatchId", Function.stringEqual.urn)])
    [literalElement .string m.value, .leaf (designatorTag ⟨.string, m.attr, m.mustBePresent⟩) []]

variable {designatorTag} {designator : Tag → Option (Designator A)}
  (h : ∀ x, designator (designatorTag x) = some x)
include h

theorem operand_operandElement {d : DataType} (x : Operand A d) :
    operand designator d (operandElement designatorTag x) = some x := by
  cases x with
  | literal v =>
    have hv := literal_literalElement d v
    rw [literalElement] at hv
    rw [operandElement, literalElement, operand, hv]
    rfl
  | designator a must =>
    rw [operandElement, operand, applyTag, attr_tagOf, if_pos ⟨rfl, rfl, rfl⟩, h, Option.bind_some,
      if_pos rfl]

/-- Every condition is read back from its element. -/
theorem condition_conditionElement (c : Condition A) :
    condition designator (conditionElement designatorTag c) = some c := by
  have hfunction (f : Function) :
      (Context.attr (applyTag f) "FunctionId").bind Function.ofUrn = some f := by
    rw [applyTag, attr_tagOf]
    exact f.ofUrn_urn
  have hnamed (f : Function) : Named (applyTag f) "Apply" := rfl
  induction c with
  | stringEqual x y =>
    simp only [conditionElement, condition, if_pos (hnamed _), hfunction,
      operand_operandElement h, Option.bind_some, Option.map_some]
  | integerCompare c x y =>
    simp only [conditionElement, condition, if_pos (hnamed _), hfunction,
      operand_operandElement h, Option.bind_some, Option.map_some]
  | and x y ihx ihy =>
    simp only [conditionElement, condition, if_pos (hnamed _), hfunction, ihx, ihy,
      Option.bind_some, Option.map_some]
  | or x y ihx ihy =>
    simp only [conditionElement, condition, if_pos (hnamed _), hfunction, ihx, ihy,
      Option.bind_some, Option.map_some]

end Writing

/-- A rule with what is in it. -/
def ruleElement (tag : Tag) : List Element → Element
  | [] => .leaf tag []
  | e :: es => .node tag (e :: es)

@[simp] theorem tag_ruleElement (tag : Tag) (es : List Element) : (ruleElement tag es).tag = tag := by
  cases es <;> rfl

@[simp] theorem content_ruleElement (tag : Tag) (es : List Element) :
    (ruleElement tag es).content = some es := by
  cases es <;> rfl

theorem named_tagOf {n m : String} {attrs : List (String × Text)} :
    Named (tagOf n attrs) m ↔ n = m :=
  String.toList_inj

theorem skip_of_ne {name : String} {es : List Element}
    (h : ∀ e, es.head? = some e → ¬Named e.tag name) : skip name es = some es := by
  rcases es with _ | ⟨e, es⟩
  · rfl
  · rw [skip, optional, if_neg (h e rfl)]
    rfl

theorem skip_cons {name : String} {e : Element} (h : Named e.tag name) (es : List Element) :
    skip name (e :: es) = some es := by
  rw [skip, optional, if_pos h]
  rfl

theorem optional_of_ne {α : Type} {name : String} {read : Element → Option α} {es : List Element}
    (h : ∀ e, es.head? = some e → ¬Named e.tag name) : optional name read es = some (none, es) := by
  rcases es with _ | ⟨e, es⟩
  · rfl
  · rw [optional, if_neg (h e rfl)]

theorem optional_cons {α : Type} {name : String} {read : Element → Option α} {e : Element} {a : α}
    (h : Named e.tag name) (ha : read e = some a) (es : List Element) :
    optional name read (e :: es) = some (some a, es) := by
  rw [optional, if_pos h, ha]
  rfl

theorem optional_append {α : Type} {name : String} {read : Element → Option α}
    {es rest : List Element} {a : Option α} (hne : es ≠ [])
    (h : optional name read es = some (a, rest)) (fs : List Element) :
    optional name read (es ++ fs) = some (a, rest ++ fs) := by
  obtain ⟨e, es, rfl⟩ := List.exists_cons_of_ne_nil hne
  rw [List.cons_append]
  rw [optional] at h ⊢
  split_ifs at h ⊢
  · obtain ⟨b, hb, he⟩ := Option.map_eq_some_iff.mp h
    cases he
    rw [hb]
    rfl
  · cases h
    rfl

theorem skip_append {name : String} {es rest : List Element} (hne : es ≠ [])
    (h : skip name es = some rest) (fs : List Element) : skip name (es ++ fs) = some (rest ++ fs) := by
  obtain ⟨⟨a, rest'⟩, ha, rfl⟩ := Option.map_eq_some_iff.mp h
  rw [skip, optional_append hne ha]
  rfl

namespace Dialect

variable {T A : Type} (L : Dialect T A)

/-- An element that is read as the target of a rule, if the rule has one. -/
inductive WritesTarget : Option Element → Option T → Prop
  | none : WritesTarget none none
  | some {e : Element} {t : T} (hname : Named e.tag "Target") (h : L.target e = some t) :
    WritesTarget (some e) (some t)

def conditionTag : Tag := tagOf "Condition" []

theorem conditionTag_ne {name : String} (h : "Condition" ≠ name) : ¬Named conditionTag name :=
  fun hnamed => h (named_tagOf.mp hnamed)

variable {L}

/-- A rule is read back from its element. -/
theorem rule_ruleElement {designatorTag : Designator A → Tag}
    (hdesignator : ∀ x, L.designator (designatorTag x) = some x) {tag : Tag} {id : Text}
    {effect : Effect} (hname : Named tag "Rule") (hid : Context.attr tag "RuleId" = some id)
    (heffect : Context.attr tag "Effect" = some effect.name.toList) {e : Option Element}
    {t : Option T} (ht : L.WritesTarget e t) (c : Option (Condition A)) :
    L.rule (ruleElement tag (e.toList ++
      (c.map fun c => .node conditionTag [conditionElement designatorTag c]).toList)) =
        some ⟨String.ofList id, effect, t, c⟩ := by
  -- what follows the target
  have hcondition : optional "Condition" L.conditionOf
      (c.map fun c => .node conditionTag [conditionElement designatorTag c]).toList = some (c, []) := by
    cases c with
    | none => rfl
    | some c =>
      have hread : L.conditionOf (.node conditionTag [conditionElement designatorTag c]) = some c :=
        condition_conditionElement hdesignator c
      exact optional_cons rfl hread []
  have hhead {name : String} (hne : "Condition" ≠ name) : ∀ x,
      (c.map fun c => Element.node conditionTag [conditionElement designatorTag c]).toList.head? =
        some x → ¬Named x.tag name := by
    intro x hx
    cases c with
    | none => cases hx
    | some c =>
      cases hx
      exact conditionTag_ne hne
  rw [Dialect.rule, tag_ruleElement, if_pos hname, hid, heffect, content_ruleElement]
  simp only [Option.bind_eq_bind, Option.bind_some, effectOf_name]
  cases ht with
  | none =>
    simp only [Option.toList_none, List.nil_append]
    rw [skip_of_ne (hhead (by decide)), Option.bind_some, optional_of_ne (hhead (by decide)),
      Option.bind_some, hcondition]
    rfl
  | @some e t hnamed ht =>
    have hskip : ¬Named e.tag "Description" := by
      intro h
      exact absurd (String.toList_injective (hnamed.symm.trans h)) (by decide)
    simp only [Option.toList_some, List.singleton_append]
    rw [skip_of_ne (by simpa using hskip), Option.bind_some, optional_cons hnamed ht,
      Option.bind_some, hcondition]
    rfl

/-- A policy is read from its parts. -/
theorem policy_node {tag : Tag} {id algorithm : Text} (hname : Named tag "Policy")
    (hxmlns : Context.attr tag "xmlns" = some L.xmlns.toList)
    (hid : Context.attr tag "PolicyId" = some id)
    (halgorithm : Context.attr tag "RuleCombiningAlgId" = some algorithm) {e : Element} {t : T}
    (he : Named e.tag "Target") (ht : L.target e = some t) {es all : List Element}
    (hall : skip "Description" all = some (e :: es)) {ρs : List (Rule T A)}
    (hρs : es.mapM L.rule = some ρs) :
    L.policy (.node tag all) = some ⟨algorithm, ⟨String.ofList id, t, ρs⟩⟩ := by
  rw [Dialect.policy, Element.tag, if_pos ⟨hname, hxmlns⟩, hid, halgorithm, Element.content]
  simp only [Option.bind_eq_bind, Option.bind_some, hall, optional_cons he ht, hρs]

/-- Rules behind the elements of a policy are read behind its rules. -/
theorem policy_append {root : Element} {P : PolicyDocument T A} (h : L.policy root = some P)
    {fs : List Element} {ρs : List (Rule T A)} (hρs : fs.mapM L.rule = some ρs) :
    ∃ es, root.content = some es ∧ L.policy (.node root.tag (es ++ fs)) =
      some { P with policy := P.policy.append ρs } := by
  rw [Dialect.policy] at h
  split_ifs at h with hname
  simp only [Option.bind_eq_bind, Option.bind_eq_some_iff] at h
  obtain ⟨id, hid, algorithm, halgorithm, es, hes, es₁, hes₁, ⟨target, es₂⟩, htarget, t, ht, rules,
    hrules, he⟩ := h
  cases he
  subst ht
  have hne₁ : es₁ ≠ [] := by
    rintro rfl
    cases htarget
  have hne : es ≠ [] := by
    rintro rfl
    cases hes₁
    exact hne₁ rfl
  refine ⟨es, hes, ?_⟩
  rw [Dialect.policy, Element.tag, if_pos hname, hid, halgorithm, Element.content]
  simp only [Option.bind_eq_bind, Option.bind_some, skip_append hne hes₁,
    optional_append hne₁ htarget, List.mapM_append, hrules, hρs]
  rfl

theorem dash_notMem_policy : '-' ∉ "Policy".toList := fun hmem =>
  forall_toList (p := (· ≠ '-')) (by decide) _ hmem rfl

/-- Rules that are written in front of the end tag of a policy document. -/
theorem readPolicy_insert {t u added : Text} {P : PolicyDocument T A}
    (hu : ∀ c ∈ u, isSpace c = true)
    (h : L.readPolicy (t ++ (stopTag "Policy".toList ++ u)) = some P) {fs : List Element}
    (hadded : Writes added fs) (hfs : fs ≠ []) (hhead : added.head? ≠ some '\n')
    {ρs : List (Rule T A)} (hρs : fs.mapM L.rule = some ρs) :
    L.readPolicy (t ++ (added ++ (stopTag "Policy".toList ++ u))) =
      some { P with policy := P.policy.append ρs } := by
  obtain ⟨root, hroot, hpolicy⟩ := Option.bind_eq_some_iff.mp h
  obtain ⟨es, hes, happend⟩ := policy_append hpolicy hρs
  rw [readPolicy, parse_insert (isName_toList (by decide)) dash_notMem_policy hu hroot hes hadded hfs
    hhead]
  exact happend

theorem readPolicy_insert_eq_none {t u added : Text} {P : PolicyDocument T A}
    (hu : ∀ c ∈ u, isSpace c = true)
    (h : L.readPolicy (t ++ (stopTag "Policy".toList ++ u)) = some P) (hadded : Refused added)
    (hhead : added.head? ≠ some '\n') :
    L.readPolicy (t ++ (added ++ (stopTag "Policy".toList ++ u))) = none := by
  obtain ⟨root, hroot, -⟩ := Option.bind_eq_some_iff.mp h
  rw [readPolicy, hadded.parse_insert hhead (isName_toList (by decide)) dash_notMem_policy hu hroot]
  rfl

end Dialect

end AbacMiddleLayer.Xacml
