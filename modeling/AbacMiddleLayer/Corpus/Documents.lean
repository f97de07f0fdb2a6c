import AbacMiddleLayer.Corpus.Attributes
import AbacMiddleLayer.Decimal
import AbacMiddleLayer.Xacml.Layout
import AbacMiddleLayer.Xml.Escaping

/-! # Documents with the canonical attributes

Three programs write requests with the same attributes in three layouts. A document
lists the attributes of each category that are present, in the order of the table of
attributes; what it delivers are triples of category, attribute and value.
-/
namespace AbacMiddleLayer.Corpus
open Xacml Xml Context Decimal

/-- Strings and integers, as the decision points have them. -/
abbrev Value := Field ℤ

structure Triple where
  category : Text
  id : Text
  value : Value
deriving DecidableEq, Repr

/-- A text under its data type. -/
def valueOfType (dataType s : Text) : Option Value :=
  if dataType = xsString.toList then some (.text s)
  else if dataType = xsInteger.toList then (integerValue s).map .number
  else none

def typed (s : Supplied) : Option Triple :=
  (valueOfType s.dataType s.value).map fun v => ⟨s.category, s.id, v⟩

/-- A request is taken as a whole: one value that its data type does not have spoils it. -/
def typedAll : List Supplied → Option (List Triple)
  | [] => some []
  | s :: ss => (typed s).bind fun t => (typedAll ss).map (t :: ·)

/-- The triples that a document delivers. -/
def deliver (F : Format) (doc : Text) : Option (List Triple) := (F.read doc).bind typedAll

/-- The characters in the texts of numbers. -/
def isNumeric (c : Char) : Bool := c.isDigit || c ∈ ['-', '+', '.', 'e', 'i', 'n', 'f', 'a']

theorem isNumeric_isXmlChar {c : Char} (h : isNumeric c = true) : isXmlChar c = true := by
  rw [isNumeric, Bool.or_eq_true, decide_eq_true_eq] at h
  rcases h with hdigit | hother
  · have hrange : 48 ≤ c.toNat ∧ c.toNat ≤ 57 := Char.isDigit_iff_toNat.mp hdigit
    simp only [isXmlChar, Bool.or_eq_true, Bool.and_eq_true, decide_eq_true_eq]
    omega
  · have hall : ['-', '+', '.', 'e', 'i', 'n', 'f', 'a'].all isXmlChar = true := by decide
    exact List.all_eq_true.mp hall c hother

/-- The text of a number stands for itself in a document. -/
theorem reads_of_isNumeric {s : Text} (h : ∀ c ∈ s, isNumeric c = true) : Reads s s := by
  have hne {d : Char} (hd : isNumeric d = false) : d ∉ s := by
    intro hmem
    rw [h d hmem] at hd
    cases hd
  have hcr : '\r' ∉ s := hne (by decide)
  refine ⟨hne (by decide), fun c hc => isNumeric_isXmlChar (h c hc), ?_, ?_⟩
  · rw [normalizeLineEnds_eq_self hcr]
    exact hasCdataEnd_eq_false (hne (by decide))
  · exact (readText_eq_self_iff s).mpr ⟨hne (by decide), hcr⟩

def Attribute.xsType (a : Attribute) : String :=
  match a.dataType with
  | .string => xsString
  | .integer => xsInteger

def Attribute.triple (a : Attribute) (v : Value) : Triple :=
  ⟨a.category.urn.toList, a.urn.toList, v⟩

/-- The attributes of a category in the order in which requests list them. -/
def Category.attributes : Category → List Attribute
  | .subject => [.subjectId, .subjectRole, .subjectDepartment, .subjectClearance]
  | .resource => [.resourceId, .resourceOwner, .resourceDepartment, .resourceClassification]
  | .action => [.action]
  | .environment => [.envNetwork, .envHour]

/-- The triples of the attributes that are present. -/
def present (order : List Category) (p : Attribute → Option Value) : List Triple :=
  (order.flatMap Category.attributes).filterMap fun a => (p a).map a.triple

/-- The text of an attribute in a document, and what it says. -/
structure Spelling where
  raw : Text
  value : Text

def entryOf (a : Attribute) (w : Spelling) : Entry :=
  ⟨a.urn.toList, a.xsType.toList, w.raw, w.value⟩

def entriesOf (c : Category) (w : Attribute → Option Spelling) : List Entry :=
  c.attributes.filterMap fun a => (w a).map (entryOf a)

def blockOf (tag : Category → Tag) (w : Attribute → Option Spelling) (c : Category) : Block :=
  ⟨tag c, c.urn.toList, entriesOf c w⟩

theorem category_of_mem {c : Category} {a : Attribute} (h : a ∈ c.attributes) : a.category = c := by
  cases c <;> simp only [Category.attributes, List.mem_cons, List.not_mem_nil, or_false] at h <;>
    rcases h with rfl | rfl | rfl | rfl <;> rfl

theorem mem_attributes (a : Attribute) : a ∈ a.category.attributes := by
  cases a <;> simp [Attribute.category, Category.attributes]

/-- Length and last character tell the identifiers of the attributes apart. -/
def urnKey : Attribute → ℕ × Option Char
  | .subjectId => (47, some 'd')
  | .subjectRole => (27, some 'e')
  | .subjectDepartment => (33, some 't')
  | .subjectClearance => (32, some 'e')
  | .resourceId => (49, some 'd')
  | .resourceOwner => (29, some 'r')
  | .resourceDepartment => (34, some 't')
  | .resourceClassification => (38, some 'n')
  | .action => (45, some 'd')
  | .envNetwork => (34, some 'k')
  | .envHour => (31, some 'r')

theorem urnKey_eq (a : Attribute) : (a.urn.toList.length, a.urn.toList.getLast?) = urnKey a := by
  cases a <;> rw [Attribute.urn, String.toList_ofList] <;> rfl

theorem urn_injective {a b : Attribute} (h : a.urn.toList = b.urn.toList) : a = b := by
  have hkey : urnKey a = urnKey b := by rw [← urnKey_eq, ← urnKey_eq, h]
  revert hkey
  cases a <;> cases b <;> decide

theorem mem_present {order : List Category} (horder : ∀ c, c ∈ order)
    {p : Attribute → Option Value} {t : Triple} :
    t ∈ present order p ↔ ∃ a v, p a = some v ∧ a.triple v = t := by
  simp only [present, List.mem_filterMap, Option.map_eq_some_iff]
  constructor
  · rintro ⟨a, -, v, hv, rfl⟩
    exact ⟨a, v, hv, rfl⟩
  · rintro ⟨a, v, hv, rfl⟩
    exact ⟨a, List.mem_flatMap.mpr ⟨a.category, horder _, mem_attributes a⟩, v, hv, rfl⟩

theorem triple_mem_present {order : List Category} (horder : ∀ c, c ∈ order)
    {p : Attribute → Option Value} {a : Attribute} {v : Value} :
    a.triple v ∈ present order p ↔ p a = some v := by
  rw [mem_present horder]
  constructor
  · rintro ⟨b, u, hu, h⟩
    simp only [Attribute.triple, Triple.mk.injEq] at h
    obtain rfl := urn_injective h.2.1
    rw [hu, h.2.2]
  · intro h
    exact ⟨a, v, h, rfl⟩

/-- Requests have the same triples exactly when the same attributes are present with the
same values, in whichever order the categories come. -/
theorem present_same_iff {o o' : List Category} (ho : ∀ c, c ∈ o) (ho' : ∀ c, c ∈ o')
    {p q : Attribute → Option Value} :
    (∀ t, t ∈ present o p ↔ t ∈ present o' q) ↔ p = q := by
  constructor
  · intro h
    funext a
    ext v
    rw [← triple_mem_present ho, h, triple_mem_present ho']
  · rintro rfl t
    rw [mem_present ho, mem_present ho']

/-- A text as the value of an attribute. -/
def Attribute.read (a : Attribute) (s : Text) : Option Value :=
  match a.dataType with
  | .string => some (.text s)
  | .integer => (integerValue s).map .number

def suppliedOf (a : Attribute) (s : Text) : Supplied :=
  ⟨a.category.urn.toList, a.urn.toList, a.xsType.toList, s⟩

theorem xsInteger_ne_xsString : xsInteger.toList ≠ xsString.toList := by
  rw [xsInteger, xsString, String.toList_ofList, String.toList_ofList]
  decide

theorem typed_suppliedOf (a : Attribute) (s : Text) :
    typed (suppliedOf a s) = (a.read s).map a.triple := by
  unfold typed suppliedOf valueOfType Attribute.xsType Attribute.read
  cases a.dataType with
  | string => rw [if_pos rfl]; rfl
  | integer => rw [if_neg xsInteger_ne_xsString, if_pos rfl]; rfl

theorem supplied_blockOf (tag : Category → Tag) (w : Attribute → Option Spelling)
    (order : List Category) :
    (order.map (blockOf tag w)).flatMap Block.supplied =
      (order.flatMap Category.attributes).filterMap fun a =>
        (w a).map fun sp => suppliedOf a sp.value := by
  induction order with
  | nil => rfl
  | cons c order ih =>
    rw [List.map_cons, List.flatMap_cons, List.flatMap_cons, List.filterMap_append, ih]
    congr 1
    rw [Block.supplied, blockOf, entriesOf, List.map_filterMap]
    refine List.filterMap_congr fun a ha => ?_
    rw [Option.map_map, category_of_mem ha |>.symm]
    rfl

/-- The values that attributes with the given texts have, all of them or none. -/
theorem typedAll_eq_some {l : List Attribute} {texts : Attribute → Option Text} {ts : List Triple} :
    typedAll (l.filterMap fun a => (texts a).map (suppliedOf a)) = some ts ↔
      (∀ a ∈ l, ∀ s, texts a = some s → (a.read s).isSome) ∧
        l.filterMap (fun a => ((texts a).bind a.read).map a.triple) = ts := by
  induction l generalizing ts with
  | nil => simp [typedAll]
  | cons a l ih =>
    cases htext : texts a with
    | none => simp [htext, ih]
    | some s =>
      simp only [List.filterMap_cons, htext, Option.map_some, typedAll, typed_suppliedOf,
        Option.bind_some, List.forall_mem_cons, Option.some.injEq, forall_eq']
      cases hread : a.read s with
      | none => simp
      | some v =>
        simp only [Option.map_some, Option.bind_some, Option.map_eq_some_iff, ih, Option.isSome_some,
          true_and]
        constructor
        · rintro ⟨us, ⟨hall, rfl⟩, rfl⟩
          exact ⟨hall, rfl⟩
        · rintro ⟨hall, rfl⟩
          exact ⟨_, ⟨hall, rfl⟩, rfl⟩

theorem urn_plain (a : Attribute) : ∀ c ∈ a.urn.toList, isPlain c = true := by
  cases a <;> exact forall_toList (by decide)

theorem categoryUrn_plain (c : Category) : ∀ d ∈ c.urn.toList, isPlain d = true := by
  cases c <;> exact forall_toList (by decide)

theorem xsType_plain (a : Attribute) : ∀ c ∈ a.xsType.toList, isPlain c = true := by
  unfold Attribute.xsType
  cases a.dataType <;> exact forall_toList (by decide)

/-- How a format's documents open the groups of the four categories. -/
structure Grouping (F : Format) where
  tag : Category → Tag
  plain (c : Category) : (tag c).Plain
  group (c : Category) : F.group (tag c) = some c.urn.toList

def grouping3 : Grouping xacml3 where
  tag c := attributesTag c.urn.toList
  plain c := attributesTag_plain (categoryUrn_plain c)
  group c := xacml3_group c.urn.toList

variable {F : Format} (L : Layout F) (G : Grouping F)

/-- The canonical document of a layout. -/
def canonical (order : List Category) (w : Attribute → Option Spelling) : Text :=
  writeSegments (L.document (order.map (blockOf G.tag w)))

/-- The canonical document by lines, from the lines of each attribute. -/
theorem canonical_eq_lines {w : Attribute → Option Spelling} {text : Attribute → Text}
    (htext : ∀ a, Follows (text a) (writeSegments (((w a).map (entryOf a)).toList.flatMap L.entry)))
    {root i : Text} (hroot : L.rootIndent ++ startLine L.root = root) (hi : L.groupIndent = '\n' :: i)
    {first last : Category → Text} (hfirst : ∀ c, i ++ startLine (G.tag c) = first c)
    {name : Category → String} (hname : ∀ c, (G.tag c).name = (name c).toList)
    (hlast : ∀ c, i ++ stopLine (name c) = last c) (order : List Category) :
    canonical L G order w =
      root ++ (order.flatMap (fun c => first c ++ (c.attributes.flatMap text ++ last c)) ++
        (Markup.stop "Request".toList).write) := by
  have hblock (c : Category) : Follows (first c ++ (c.attributes.flatMap text ++ last c))
      (writeSegments (L.block (blockOf G.tag w c))) := by
    have hentries : Follows (c.attributes.flatMap text)
        (writeSegments ((blockOf G.tag w c).entries.flatMap L.entry)) := by
      rw [blockOf, entriesOf, List.filterMap_eq_flatMap_toList]
      exact follows_flatMap fun a _ => htext a
    have h : Follows (i ++ startLine (G.tag c) ++ c.attributes.flatMap text ++ i ++
        stopLine (name c)) (writeSegments (L.block (blockOf G.tag w c))) :=
      follows_block L (b := blockOf G.tag w c) (hname c) hi hentries
    rwa [List.append_assoc, List.append_assoc, hlast, hfirst] at h
  have hblocks : Follows (order.flatMap fun c => first c ++ (c.attributes.flatMap text ++ last c))
      (writeSegments ((order.map (blockOf G.tag w)).flatMap L.block)) := by
    rw [List.flatMap_map]
    induction order with
    | nil => exact follows_nil
    | cons c order ih =>
      rw [List.flatMap_cons, List.flatMap_cons, writeSegments_append]
      exact (hblock c).append ih
  rw [canonical, writeSegments_document L hblocks, ← List.append_assoc, hroot]

-- A builder has a function that writes a string attribute and one that writes a number, and
-- calls them for the eleven attributes.
section Builder

variable {N : Type}

/-- Strings are escaped; a number is written as it is. -/
def spellingOf (num : N → Text) : Field N → Spelling
  | .text s => ⟨s.flatMap entity, normalizeLineEnds s⟩
  | .number n => ⟨num n, num n⟩

def linesOf (S : String → Option Text → Text) (I : String → Option N → Text) (x : Arguments N) :
    Attribute → Text
  | .subjectId => S Attribute.subjectId.urn x.subjectId
  | .subjectRole => S Attribute.subjectRole.urn x.subjectRole
  | .subjectDepartment => S Attribute.subjectDepartment.urn x.subjectDepartment
  | .subjectClearance => I Attribute.subjectClearance.urn x.subjectClearance
  | .resourceId => S Attribute.resourceId.urn x.resourceId
  | .resourceOwner => S Attribute.resourceOwner.urn x.resourceOwner
  | .resourceDepartment => S Attribute.resourceDepartment.urn x.resourceDepartment
  | .resourceClassification => I Attribute.resourceClassification.urn x.resourceClassification
  | .action => S Attribute.action.urn x.action
  | .envNetwork => S Attribute.envNetwork.urn x.envNetwork
  | .envHour => I Attribute.envHour.urn x.envHour

variable (S : String → Option Text → Text) (I : String → Option N → Text) (x : Arguments N)

theorem lines_subject :
    S "urn:oasis:names:tc:xacml:1.0:subject:subject-id" x.subjectId ++
      S "urn:uoa:canvas:subject:role" x.subjectRole ++
      S "urn:uoa:canvas:subject:department" x.subjectDepartment ++
      I "urn:uoa:canvas:subject:clearance" x.subjectClearance =
    Category.subject.attributes.flatMap (linesOf S I x) := by
  simp only [Category.attributes, List.flatMap_cons, List.flatMap_nil, List.append_nil,
    List.append_assoc]
  rfl

theorem lines_resource :
    S "urn:oasis:names:tc:xacml:1.0:resource:resource-id" x.resourceId ++
      S "urn:uoa:canvas:resource:owner" x.resourceOwner ++
      S "urn:uoa:canvas:resource:department" x.resourceDepartment ++
      I "urn:uoa:canvas:resource:classification" x.resourceClassification =
    Category.resource.attributes.flatMap (linesOf S I x) := by
  simp only [Category.attributes, List.flatMap_cons, List.flatMap_nil, List.append_nil,
    List.append_assoc]
  rfl

theorem lines_action :
    S "urn:oasis:names:tc:xacml:1.0:action:action-id" x.action =
    Category.action.attributes.flatMap (linesOf S I x) := by
  simp only [Category.attributes, List.flatMap_cons, List.flatMap_nil, List.append_nil]
  rfl

theorem lines_environment :
    S "urn:uoa:canvas:environment:network" x.envNetwork ++
      I "urn:uoa:canvas:environment:hour" x.envHour =
    Category.environment.attributes.flatMap (linesOf S I x) := by
  simp only [Category.attributes, List.flatMap_cons, List.flatMap_nil, List.append_nil]
  rfl

/-- What a builder writes for an attribute are the segments of its entry. -/
def Writes (num : N → Text) : Prop :=
  (∀ a : Attribute, a.xsType = xsString → ∀ s, Follows (S a.urn (some s))
      (writeSegments (L.entry (entryOf a (spellingOf num (.text s)))))) ∧
    (∀ a : Attribute, a.xsType = xsInteger → ∀ n, Follows (I a.urn (some n))
      (writeSegments (L.entry (entryOf a (spellingOf num (.number n)))))) ∧
    ∀ id, S id none = [] ∧ I id none = []

theorem follows_linesOf {num : N → Text} (h : Writes L S I num) (a : Attribute) :
    Follows (linesOf S I x a)
      (writeSegments ((((x.get a).map (spellingOf num)).map (entryOf a)).toList.flatMap L.entry)) := by
  have hstring (b : Attribute) (hb : b.xsType = xsString) (v : Option Text) :
      Follows (S b.urn v) (writeSegments ((((v.map Field.text).map (spellingOf num)).map
        (entryOf b)).toList.flatMap L.entry)) := by
    cases v with
    | none =>
      rw [(h.2.2 b.urn).1]
      exact follows_nil
    | some s => simpa using h.1 b hb s
  have hnumber (b : Attribute) (hb : b.xsType = xsInteger) (v : Option N) :
      Follows (I b.urn v) (writeSegments ((((v.map Field.number).map (spellingOf num)).map
        (entryOf b)).toList.flatMap L.entry)) := by
    cases v with
    | none =>
      rw [(h.2.2 b.urn).2]
      exact follows_nil
    | some n => simpa using h.2.1 b hb n
  cases a <;> first
    | exact hstring _ rfl _
    | exact hnumber _ rfl _

end Builder

theorem blockOf_ok {w : Attribute → Option Spelling}
    (hw : ∀ a sp, w a = some sp → Reads sp.raw sp.value) (c : Category) :
    (blockOf G.tag w c).Ok F where
  plain := G.plain c
  group := G.group c
  entries := by
    intro e he
    obtain ⟨a, -, ha⟩ := List.mem_filterMap.mp he
    obtain ⟨sp, hsp, rfl⟩ := Option.map_eq_some_iff.mp ha
    exact ⟨urn_plain a, xsType_plain a, hw a sp hsp⟩

/-- The canonical document is read as the attributes it was written for. -/
theorem read_canonical {order : List Category} {w : Attribute → Option Spelling}
    (hw : ∀ a sp, w a = some sp → Reads sp.raw sp.value) {doc last : Text} (hlast : Blank last)
    (hbody : body doc = canonical L G order w ++ last) :
    F.read doc = some ((order.flatMap Category.attributes).filterMap fun a =>
      ((w a).map Spelling.value).map (suppliedOf a)) := by
  have hok : ∀ b ∈ order.map (blockOf G.tag w), b.Ok F := by
    intro b hb
    obtain ⟨c, -, rfl⟩ := List.mem_map.mp hb
    exact blockOf_ok G hw c
  rw [L.read hok hlast hbody, supplied_blockOf]
  congr 1
  refine List.filterMap_congr fun a _ => ?_
  rw [Option.map_map]
  rfl

theorem deliver_canonical {order : List Category} {w : Attribute → Option Spelling}
    (hw : ∀ a sp, w a = some sp → Reads sp.raw sp.value) {doc last : Text} (hlast : Blank last)
    (hbody : body doc = canonical L G order w ++ last) :
    deliver F doc = typedAll ((order.flatMap Category.attributes).filterMap fun a =>
      ((w a).map Spelling.value).map (suppliedOf a)) := by
  rw [deliver, read_canonical L G hw hlast hbody, Option.bind_some]

/-- Whatever is written for an attribute has to be made of the characters of XML. -/
theorem isXmlChar_of_deliver {order : List Category} {w : Attribute → Option Spelling}
    {doc last : Text} (hbody : body doc = canonical L G order w ++ last) {ts : List Triple}
    (h : deliver F doc = some ts) {a : Attribute} (ha : a.category ∈ order) {sp : Spelling}
    (hsp : w a = some sp) : ∀ c ∈ sp.raw, isXmlChar c = true := by
  have hchars : ∀ c ∈ body doc, isXmlChar c = true := by
    obtain ⟨_, hread, -⟩ := Option.bind_eq_some_iff.mp h
    obtain ⟨_, htokens, -⟩ := Option.bind_eq_some_iff.mp hread
    exact isXmlChar_of_bodyTokens htokens
  intro c hc
  refine hchars c ?_
  rw [hbody]
  refine List.mem_append_left _ (List.mem_flatMap.mpr ?_)
  refine ⟨⟨sp.raw, sp.value, .stop "AttributeValue".toList⟩, ?_, List.mem_append_left _ hc⟩
  have hentry : entryOf a sp ∈ entriesOf a.category w :=
    List.mem_filterMap.mpr ⟨a, mem_attributes a, by rw [hsp, Option.map_some]⟩
  simp only [Layout.document, List.mem_append, List.mem_flatMap, List.mem_map]
  refine .inr (.inl ⟨_, ⟨a.category, ha, rfl⟩, ?_⟩)
  simp only [Layout.block, List.mem_append, List.mem_flatMap]
  refine .inr (.inl ⟨entryOf a sp, hentry, ?_⟩)
  simp [Layout.entry, Layout.entryTail, entryOf]

theorem dataType_of_text {N : Type} {x : Arguments N} {a : Attribute} {s : Text}
    (h : x.get a = some (.text s)) : a.dataType = .string := by
  cases a <;> simp [Arguments.get] at h <;> rfl

theorem dataType_of_number {N : Type} {x : Arguments N} {a : Attribute} {n : N}
    (h : x.get a = some (.number n)) : a.dataType = .integer := by
  cases a <;> simp [Arguments.get] at h <;> rfl

/-- The value of an attribute once it has been written and read. -/
def delivered {N : Type} (num : N → Text) (x : Arguments N) (a : Attribute) : Option Value :=
  (x.get a).bind fun f => a.read (spellingOf num f).value

theorem delivered_text {N : Type} (num : N → Text) {x : Arguments N} {a : Attribute} {s : Text}
    (h : x.get a = some (.text s)) : delivered num x a = some (.text (normalizeLineEnds s)) := by
  rw [delivered, h, Option.bind_some, Attribute.read, dataType_of_text h]
  rfl

theorem delivered_number {N : Type} (num : N → Text) {x : Arguments N} {a : Attribute} {n : N}
    (h : x.get a = some (.number n)) : delivered num x a = (integerValue (num n)).map .number := by
  rw [delivered, h, Option.bind_some, Attribute.read, dataType_of_number h]
  rfl

/-- The document of a builder is delivered exactly when its strings are made of the characters
of XML and its numbers are written as integers. -/
theorem deliver_eq_some_iff {N : Type} {num : N → Text} (hnum : ∀ n, Reads (num n) (num n))
    {x : Arguments N} {order : List Category} (horder : ∀ c, c ∈ order) {doc last : Text}
    (hlast : Blank last)
    (hbody : body doc = canonical L G order (fun a => (x.get a).map (spellingOf num)) ++ last)
    {ts : List Triple} :
    deliver F doc = some ts ↔
      (∀ a s, x.get a = some (.text s) → ∀ c ∈ s, isXmlChar c = true) ∧
      (∀ a n, x.get a = some (.number n) → (integerValue (num n)).isSome) ∧
        present order (delivered num x) = ts := by
  have hpresent : (order.flatMap Category.attributes).filterMap (fun a =>
      ((((x.get a).map (spellingOf num)).map Spelling.value).bind a.read).map a.triple) =
        present order (delivered num x) := by
    refine List.filterMap_congr fun a _ => ?_
    rw [delivered, Option.map_map, Option.bind_map]
    rfl
  -- once the strings are known to be made of XML characters, only the data types can fail
  have hdeliver (hchars : ∀ a s, x.get a = some (.text s) → ∀ c ∈ s, isXmlChar c = true) :
      deliver F doc = some ts ↔ (∀ a f, x.get a = some f → (a.read (spellingOf num f).value).isSome) ∧
        present order (delivered num x) = ts := by
    have hw (a : Attribute) (sp : Spelling) (hsp : (x.get a).map (spellingOf num) = some sp) :
        Reads sp.raw sp.value := by
      obtain ⟨f, hf, rfl⟩ := Option.map_eq_some_iff.mp hsp
      cases f with
      | text s => exact reads_flatMap_entity (hchars a s hf)
      | number n => exact hnum n
    rw [deliver_canonical L G hw hlast hbody, typedAll_eq_some, hpresent]
    refine and_congr_left fun _ => ⟨fun h a f hf => ?_, fun h a _ s hs => ?_⟩
    · exact h a (List.mem_flatMap.mpr ⟨a.category, horder _, mem_attributes a⟩) _ (by rw [hf]; rfl)
    · obtain ⟨sp, hsp, rfl⟩ := Option.map_eq_some_iff.mp hs
      obtain ⟨f, hf, rfl⟩ := Option.map_eq_some_iff.mp hsp
      exact h a f hf
  have hread : (∀ a f, x.get a = some f → (a.read (spellingOf num f).value).isSome) ↔
      ∀ a n, x.get a = some (.number n) → (integerValue (num n)).isSome := by
    constructor
    · intro h a n hn
      have hsome := h a (.number n) hn
      rw [Attribute.read, dataType_of_number hn] at hsome
      simpa [spellingOf] using hsome
    · intro h a f hf
      rw [Attribute.read]
      cases f with
      | text s => simp [dataType_of_text hf]
      | number n => simpa [dataType_of_number hf, spellingOf] using h a n hf
  constructor
  · intro h
    have hchars (a : Attribute) (s : Text) (hs : x.get a = some (.text s)) :
        ∀ c ∈ s, isXmlChar c = true :=
      isXmlChar_of_flatMap_entity
        (isXmlChar_of_deliver L G hbody h (horder a.category) (by rw [hs]; rfl))
    exact ⟨hchars, (and_congr_left' hread).mp ((hdeliver hchars).mp h)⟩
  · rintro ⟨hchars, h⟩
    exact (hdeliver hchars).mpr ((and_congr_left' hread).mpr h)

end AbacMiddleLayer.Corpus
