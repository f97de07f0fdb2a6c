import AbacMiddleLayer.Xacml.Layout

/-! # The request of the Postgres gate

`ABACML.createXACMLRequest` splices the login name, the verb and the resource address
into a version 3.0 request as they are. The document says what it was given exactly when
none of the three has anything in it that XML reads as something else.
-/
namespace AbacMiddleLayer.MiddleLayer
open Xml Context

def createXACMLRequest (name action uri : Text) : Text :=
  "<Request xmlns=\"urn:oasis:names:tc:xacml:3.0:core:schema:wd-17\" CombinedDecision=\"false\" ReturnPolicyIdList=\"false\">\n".toList ++
  "<Attributes Category=\"urn:oasis:names:tc:xacml:1.0:subject-category:access-subject\">\n".toList ++
  "<Attribute AttributeId=\"urn:oasis:names:tc:xacml:1.0:subject:subject-id\" IncludeInResult=\"false\">\n".toList ++
  "<AttributeValue DataType=\"http://www.w3.org/2001/XMLSchema#string\">".toList ++ name ++
    "</AttributeValue>\n".toList ++
  "</Attribute>\n".toList ++
  "</Attributes>\n".toList ++
  "<Attributes Category=\"urn:oasis:names:tc:xacml:3.0:attribute-category:action\">\n".toList ++
  "<Attribute AttributeId=\"urn:oasis:names:tc:xacml:1.0:action:action-id\" IncludeInResult=\"false\">\n".toList ++
  "<AttributeValue DataType=\"http://www.w3.org/2001/XMLSchema#string\">".toList ++ action ++
    "</AttributeValue>\n".toList ++
  "</Attribute>\n".toList ++
  "</Attributes>\n".toList ++
  "<Attributes Category=\"urn:oasis:names:tc:xacml:3.0:attribute-category:resource\">\n".toList ++
  "<Attribute AttributeId=\"urn:oasis:names:tc:xacml:1.0:resource:resource-id\" IncludeInResult=\"false\">\n".toList ++
  "<AttributeValue DataType=\"http://www.w3.org/2001/XMLSchema#string\">".toList ++ uri ++
    "</AttributeValue>\n".toList ++
  "</Attribute>\n".toList ++
  "</Attributes>\n".toList ++
  "</Request>".toList

def subjectIdUrn : String := "urn:oasis:names:tc:xacml:1.0:subject:subject-id"

def actionIdUrn : String := "urn:oasis:names:tc:xacml:1.0:action:action-id"

def resourceIdUrn : String := "urn:oasis:names:tc:xacml:1.0:resource:resource-id"

def attributeTag (id : Text) : Tag :=
  tagOf "Attribute" [("AttributeId", id), ("IncludeInResult", "false".toList)]

theorem attributeTag_plain {id : Text} (h : ∀ c ∈ id, isPlain c = true) :
    (attributeTag id).Plain := by
  refine tagOf_cons_plain (isName_toList (by decide)) h (by simp) ?_
  exact tagOf_cons_plain (isName_toList (by decide)) false_plain (by simp)
    (tagOf_nil_plain (isName_toList (by decide)))

/-- How `ABACML` writes requests: every tag on a line of its own. -/
def javaLayout : Layout xacml3 where
  root := requestTag
  attributeTag id _ := attributeTag id
  valueTag := valueTag
  rootIndent := []
  groupIndent := ['\n']
  attributeIndent := ['\n']
  valueIndent := ['\n']
  rootPlain := requestTag_plain
  isRoot := requestTag_isRoot
  attributePlain h _ := attributeTag_plain h
  attributeName _ _ := rfl
  attributeId _ _ := by rw [attributeTag, attr_tagOf]; rfl
  valuePlain h := valueTag_plain h
  valueName := valueTag_name
  dataType _ _ := by simp only [xacml3, valueTag, attr_tagOf]; rfl
  rootBlank := by decide
  groupBlank := blank_lineFeed
  attributeBlank := blank_lineFeed
  valueBlank := blank_lineFeed

theorem subjectLine :
    "<Attributes Category=\"urn:oasis:names:tc:xacml:1.0:subject-category:access-subject\">\n".toList =
      startLine (attributesTag accessSubject.toList) := by
  simp only [startLine, attributesTag, accessSubject, tagOf, List.map_cons, List.map_nil]
  repeat rw [String.toList_ofList]
  rfl

theorem actionLine :
    "<Attributes Category=\"urn:oasis:names:tc:xacml:3.0:attribute-category:action\">\n".toList =
      startLine (attributesTag actionCategory.toList) := by
  simp only [startLine, attributesTag, actionCategory, tagOf, List.map_cons, List.map_nil]
  repeat rw [String.toList_ofList]
  rfl

theorem resourceLine :
    "<Attributes Category=\"urn:oasis:names:tc:xacml:3.0:attribute-category:resource\">\n".toList =
      startLine (attributesTag resourceCategory.toList) := by
  simp only [startLine, attributesTag, resourceCategory, tagOf, List.map_cons, List.map_nil]
  repeat rw [String.toList_ofList]
  rfl

theorem subjectIdLine :
    "<Attribute AttributeId=\"urn:oasis:names:tc:xacml:1.0:subject:subject-id\" IncludeInResult=\"false\">\n".toList = startLine (attributeTag subjectIdUrn.toList) := by
  simp only [startLine, attributeTag, subjectIdUrn, tagOf, List.map_cons, List.map_nil]
  repeat rw [String.toList_ofList]
  rfl

theorem actionIdLine :
    "<Attribute AttributeId=\"urn:oasis:names:tc:xacml:1.0:action:action-id\" IncludeInResult=\"false\">\n".toList = startLine (attributeTag actionIdUrn.toList) := by
  simp only [startLine, attributeTag, actionIdUrn, tagOf, List.map_cons, List.map_nil]
  repeat rw [String.toList_ofList]
  rfl

theorem resourceIdLine :
    "<Attribute AttributeId=\"urn:oasis:names:tc:xacml:1.0:resource:resource-id\" IncludeInResult=\"false\">\n".toList = startLine (attributeTag resourceIdUrn.toList) := by
  simp only [startLine, attributeTag, resourceIdUrn, tagOf, List.map_cons, List.map_nil]
  repeat rw [String.toList_ofList]
  rfl

/-- A group with one attribute, as it is written and as it is read. -/
def legacyBlock (category id : String) (raw value : Text) : Block :=
  ⟨attributesTag category.toList, category.toList, [⟨id.toList, xsString.toList, raw, value⟩]⟩

def legacyBlocks (name action uri n a u : Text) : List Block :=
  [legacyBlock accessSubject subjectIdUrn name n, legacyBlock actionCategory actionIdUrn action a,
    legacyBlock resourceCategory resourceIdUrn uri u]

theorem createXACMLRequest_eq (name action uri n a u : Text) :
    createXACMLRequest name action uri =
      writeSegments (javaLayout.document (legacyBlocks name action uri n a u)) := by
  unfold createXACMLRequest
  simp only [requestLine, subjectLine, subjectIdLine, stringValueTag, valueStopLine,
    attributeStopLine, attributesStopLine, actionLine, actionIdLine, resourceLine, resourceIdLine,
    requestStopTag]
  simp only [Layout.document, Layout.documentHead, Layout.documentTail, Layout.block,
    Layout.blockHead, Layout.blockTail, Layout.entry, Layout.entryHead, Layout.entryTail,
    tagSegment, javaLayout, legacyBlocks, legacyBlock, writeSegments, startLine, stopLine,
    List.flatMap_cons, List.flatMap_nil, List.append_assoc, List.cons_append, List.nil_append,
    List.append_nil, attributesTag, tagOf]

/-- A request of `ABACML` starts with its root element, there is no XML declaration. -/
theorem body_javaLayout (bs : List Block) :
    body (writeSegments (javaLayout.document bs)) = writeSegments (javaLayout.document bs) := by
  have hname : "Request".toList = ['R', 'e', 'q', 'u', 'e', 's', 't'] := String.toList_ofList
  simp only [Layout.document, Layout.documentHead, tagSegment, javaLayout, requestTag, tagOf,
    writeSegments, Markup.write, Markup.body, List.flatMap_append, List.flatMap_cons, hname,
    List.nil_append, List.cons_append]
  rfl

/-- The request that the three arguments are meant to make. -/
def legacyRequest (name action uri : Text) : List Supplied :=
  [⟨accessSubject.toList, subjectIdUrn.toList, xsString.toList, name⟩,
    ⟨actionCategory.toList, actionIdUrn.toList, xsString.toList, action⟩,
    ⟨resourceCategory.toList, resourceIdUrn.toList, xsString.toList, uri⟩]

/-- The categories of a request with the attribute that each has. -/
def legacyNames : List (String × String) :=
  [(accessSubject, subjectIdUrn), (actionCategory, actionIdUrn), (resourceCategory, resourceIdUrn)]

theorem legacyNames_plain : ∀ p ∈ legacyNames,
    (∀ c ∈ p.1.toList, isPlain c = true) ∧ ∀ c ∈ p.2.toList, isPlain c = true := by
  simp only [legacyNames, List.forall_mem_cons]
  exact ⟨⟨forall_toList (by decide), forall_toList (by decide)⟩,
    ⟨forall_toList (by decide), forall_toList (by decide)⟩,
    ⟨forall_toList (by decide), forall_toList (by decide)⟩, List.forall_mem_nil _⟩

theorem subject_mem : (accessSubject, subjectIdUrn) ∈ legacyNames := .head _

theorem action_mem : (actionCategory, actionIdUrn) ∈ legacyNames := .tail _ (.head _)

theorem resource_mem : (resourceCategory, resourceIdUrn) ∈ legacyNames := .tail _ (.tail _ (.head _))

theorem legacyBlock_ok {category id : String} (hnames : (category, id) ∈ legacyNames)
    {raw value : Text} (h : Reads raw value) :
    (legacyBlock category id raw value).Ok xacml3 where
  plain := attributesTag_plain (legacyNames_plain _ hnames).1
  group := xacml3_group category.toList
  entries := by
    simp only [legacyBlock, List.mem_singleton, forall_eq]
    exact ⟨(legacyNames_plain _ hnames).2, xsString_plain, h⟩

theorem legacyBlock_reads_self {bs before after : List Block} {category id : String} {raw : Text}
    (hbs : bs = before ++ legacyBlock category id raw raw :: after)
    (hbefore : ∀ b ∈ before, b.Ok xacml3) (hnames : (category, id) ∈ legacyNames) {doc last : Text}
    (hbody : body doc = writeSegments (javaLayout.document bs) ++ last)
    (hread : xacml3.read doc = some (bs.flatMap Block.supplied)) : Reads raw raw :=
  javaLayout.reads_self hbs hbefore (attributesTag_plain (legacyNames_plain _ hnames).1)
    (xacml3_group _) rfl (legacyNames_plain _ hnames).2 xsString_plain rfl hbody hread

theorem legacyBlocks_supplied (name action uri n a u : Text) :
    (legacyBlocks name action uri n a u).flatMap Block.supplied = legacyRequest n a u := by
  simp only [legacyBlocks, legacyBlock, legacyRequest, Block.supplied, List.flatMap_cons,
    List.flatMap_nil, List.map_cons, List.map_nil, List.cons_append, List.nil_append]

/-- What the decision point is told, when each argument can be read at all. -/
theorem read_createXACMLRequest {name action uri n a u : Text} (hname : Reads name n)
    (haction : Reads action a) (huri : Reads uri u) :
    xacml3.read (createXACMLRequest name action uri) = some (legacyRequest n a u) := by
  have hblank : Blank [] := by decide
  have hbody : body (createXACMLRequest name action uri) = writeSegments (javaLayout.document
      (legacyBlocks name action uri n a u)) ++ [] := by
    rw [createXACMLRequest_eq name action uri n a u, body_javaLayout, List.append_nil]
  rw [← legacyBlocks_supplied name action uri]
  refine javaLayout.read ?_ hblank hbody
  simp only [legacyBlocks, List.mem_cons, List.not_mem_nil, or_false, forall_eq_or_imp, forall_eq]
  exact ⟨legacyBlock_ok subject_mem hname,
    legacyBlock_ok action_mem haction,
    legacyBlock_ok resource_mem huri⟩

/-- Nothing in the text is markup, a reference, a line end that XML rewrites, or a
character that XML does not have. -/
def Literal (s : Text) : Prop :=
  (∀ c ∈ s, isXmlChar c = true ∧ c ≠ '<' ∧ c ≠ '&' ∧ c ≠ '\r') ∧ hasCdataEnd s = false

instance (s : Text) : Decidable (Literal s) :=
  @instDecidableAnd _ _
    (List.decidableBAll (fun c => isXmlChar c = true ∧ c ≠ '<' ∧ c ≠ '&' ∧ c ≠ '\r') s) _

theorem reads_self_iff {s : Text} : Reads s s ↔ Literal s := by
  constructor
  · intro h
    obtain ⟨hamp, hcr⟩ := (readText_eq_self_iff s).mp h.value
    refine ⟨fun c hc => ⟨h.chars c hc, ?_, ?_, ?_⟩, ?_⟩
    · rintro rfl
      exact h.noTag hc
    · rintro rfl
      exact hamp hc
    · rintro rfl
      exact hcr hc
    · simpa [normalizeLineEnds_eq_self hcr] using h.noCdataEnd
  · rintro ⟨hchars, hend⟩
    have hcr : '\r' ∉ s := fun hc => (hchars _ hc).2.2.2 rfl
    exact
      { noTag := fun hc => (hchars _ hc).2.1 rfl
        chars := fun c hc => (hchars c hc).1
        noCdataEnd := by rwa [normalizeLineEnds_eq_self hcr]
        value := (readText_eq_self_iff s).mpr ⟨fun hc => (hchars _ hc).2.2.1 rfl, hcr⟩ }

/-- The request says what the gate asked exactly when all three arguments are literal. -/
theorem createXACMLRequest_faithful_iff (name action uri : Text) :
    xacml3.read (createXACMLRequest name action uri) = some (legacyRequest name action uri) ↔
      Literal name ∧ Literal action ∧ Literal uri := by
  constructor
  · intro h
    have hbody : body (createXACMLRequest name action uri) = writeSegments (javaLayout.document
        (legacyBlocks name action uri name action uri)) ++ [] := by
      rw [createXACMLRequest_eq name action uri name action uri, body_javaLayout, List.append_nil]
    rw [← legacyBlocks_supplied name action uri] at h
    -- each argument is literal once the ones before it are
    have hname : Reads name name :=
      legacyBlock_reads_self (show _ = [] ++ [_, _, _] from rfl) (List.forall_mem_nil _)
        subject_mem hbody h
    have hsubject := legacyBlock_ok subject_mem hname
    have haction : Reads action action :=
      legacyBlock_reads_self (show _ = [_] ++ [_, _] from rfl) (by simpa using hsubject)
        action_mem hbody h
    have hverb := legacyBlock_ok action_mem haction
    have huri : Reads uri uri :=
      legacyBlock_reads_self (show _ = [_, _] ++ [_] from rfl) (by simpa using ⟨hsubject, hverb⟩)
        resource_mem hbody h
    exact ⟨reads_self_iff.mp hname, reads_self_iff.mp haction, reads_self_iff.mp huri⟩
  · rintro ⟨hname, haction, huri⟩
    exact read_createXACMLRequest (reads_self_iff.mpr hname) (reads_self_iff.mpr haction)
      (reads_self_iff.mpr huri)

/-- Two login names, one request, and it names neither of them. -/
theorem different_names_same_request :
    xacml3.read (createXACMLRequest "R&#38;D".toList "SELECT".toList "/UOA_CANVAS_LMS/lms".toList) =
        xacml3.read
          (createXACMLRequest "R&amp;D".toList "SELECT".toList "/UOA_CANVAS_LMS/lms".toList) ∧
      xacml3.read
          (createXACMLRequest "R&amp;D".toList "SELECT".toList "/UOA_CANVAS_LMS/lms".toList) ≠
        some (legacyRequest "R&amp;D".toList "SELECT".toList "/UOA_CANVAS_LMS/lms".toList) := by
  have hnumeric : Reads "R&#38;D".toList "R&D".toList :=
    ⟨by decide +kernel, forall_toList (by decide), by decide +kernel, by decide +kernel⟩
  have hentity : Reads "R&amp;D".toList "R&D".toList :=
    ⟨by decide +kernel, forall_toList (by decide), by decide +kernel, by decide +kernel⟩
  have haction : Reads "SELECT".toList "SELECT".toList := reads_self_iff.mpr (by decide +kernel)
  have huri : Reads "/UOA_CANVAS_LMS/lms".toList "/UOA_CANVAS_LMS/lms".toList :=
    reads_self_iff.mpr (by decide +kernel)
  rw [read_createXACMLRequest hnumeric haction huri, read_createXACMLRequest hentity haction huri]
  refine ⟨rfl, fun h => ?_⟩
  have hvalue : "R&D".toList = "R&amp;D".toList := by
    simpa only [legacyRequest, Option.some.injEq, List.cons.injEq, Supplied.mk.injEq, true_and,
      and_true] using h
  exact absurd hvalue (by decide +kernel)

end AbacMiddleLayer.MiddleLayer
