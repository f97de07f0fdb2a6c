import AbacMiddleLayer.Corpus.Documents
import AbacMiddleLayer.Corpus.Scenario

/-! # The request files

`build_xacml3_request` and `build_xacml2_request` of `generate-corpus.py` write the
request files of AuthzForce and of SunXACML. Numbers go into the document as Python
formats them.
-/
namespace AbacMiddleLayer.Corpus
open Xml Context Decimal

def xmlEscape (s : Text) : Text :=
  replaceAll [('&', "&amp;"), ('<', "&lt;"), ('>', "&gt;"), ('"', "&quot;"), ('\'', "&apos;")] s

theorem xmlEscape_eq (s : Text) : xmlEscape s = s.flatMap entity := replaceAll_markup s

theorem number_isNumeric (n : Number) : ∀ c ∈ n.str, isNumeric c = true := by
  intro c hc
  rw [isNumeric, Bool.or_eq_true, decide_eq_true_eq]
  cases n with
  | int n =>
    rcases mem_decimal hc with hc | rfl
    · exact .inl hc
    · exact .inr (by decide)
  | float x => exact x.chars c hc

theorem reads_number (n : Number) : Reads n.str n.str := reads_of_isNumeric (number_isNumeric n)

def spaces (n : ℕ) : Text := List.replicate n ' '

def stringAttr (attributeId : String) : Option Text → Text
  | none => []
  | some value =>
    "    <Attribute IncludeInResult=\"false\" AttributeId=\"".toList ++ attributeId.toList ++
      "\">\n".toList ++
    "      <AttributeValue DataType=\"http://www.w3.org/2001/XMLSchema#string\">".toList ++
      xmlEscape value ++ "</AttributeValue>\n".toList ++
    "    </Attribute>\n".toList

def integerAttr (attributeId : String) : Option Number → Text
  | none => []
  | some value =>
    "    <Attribute IncludeInResult=\"false\" AttributeId=\"".toList ++ attributeId.toList ++
      "\">\n".toList ++
    "      <AttributeValue DataType=\"http://www.w3.org/2001/XMLSchema#integer\">".toList ++
      value.str ++ "</AttributeValue>\n".toList ++
    "    </Attribute>\n".toList

def buildXacml3Request (x : Arguments Number) : Text :=
  let subjectAttrs :=
    stringAttr "urn:oasis:names:tc:xacml:1.0:subject:subject-id" x.subjectId ++
    stringAttr "urn:uoa:canvas:subject:role" x.subjectRole ++
    stringAttr "urn:uoa:canvas:subject:department" x.subjectDepartment ++
    integerAttr "urn:uoa:canvas:subject:clearance" x.subjectClearance
  let resourceAttrs :=
    stringAttr "urn:oasis:names:tc:xacml:1.0:resource:resource-id" x.resourceId ++
    stringAttr "urn:uoa:canvas:resource:owner" x.resourceOwner ++
    stringAttr "urn:uoa:canvas:resource:department" x.resourceDepartment ++
    integerAttr "urn:uoa:canvas:resource:classification" x.resourceClassification
  let actionAttrs := stringAttr "urn:oasis:names:tc:xacml:1.0:action:action-id" x.action
  let envAttrs :=
    stringAttr "urn:uoa:canvas:environment:network" x.envNetwork ++
    integerAttr "urn:uoa:canvas:environment:hour" x.envHour
  "<?xml version=\"1.0\" encoding=\"UTF-8\"?>\n".toList ++
  "<Request xmlns=\"urn:oasis:names:tc:xacml:3.0:core:schema:wd-17\" CombinedDecision=\"false\" ReturnPolicyIdList=\"false\">\n".toList ++
  "  <Attributes Category=\"urn:oasis:names:tc:xacml:1.0:subject-category:access-subject\">\n".toList ++
  subjectAttrs ++ "  </Attributes>\n".toList ++
  "  <Attributes Category=\"urn:oasis:names:tc:xacml:3.0:attribute-category:resource\">\n".toList ++
  resourceAttrs ++ "  </Attributes>\n".toList ++
  "  <Attributes Category=\"urn:oasis:names:tc:xacml:3.0:attribute-category:action\">\n".toList ++
  actionAttrs ++ "  </Attributes>\n".toList ++
  "  <Attributes Category=\"urn:oasis:names:tc:xacml:3.0:attribute-category:environment\">\n".toList ++
  envAttrs ++ "  </Attributes>\n".toList ++
  "</Request>\n".toList

/-- The attribute tag of `_string_attr` and `_integer_attr`. -/
def attributeTag3 (id : Text) : Tag :=
  tagOf "Attribute" [("IncludeInResult", "false".toList), ("AttributeId", id)]

theorem attributeTag3_plain {id : Text} (h : ∀ c ∈ id, isPlain c = true) :
    (attributeTag3 id).Plain := by
  refine tagOf_cons_plain (isName_toList (by decide)) false_plain (by simp) ?_
  exact tagOf_cons_plain (isName_toList (by decide)) h (by simp)
    (tagOf_nil_plain (isName_toList (by decide)))

/-- How `build_xacml3_request` writes requests, behind the XML declaration. -/
def pythonLayout3 : Layout xacml3 where
  root := requestTag
  attributeTag id _ := attributeTag3 id
  valueTag := valueTag
  rootIndent := ['\n']
  groupIndent := '\n' :: spaces 2
  attributeIndent := '\n' :: spaces 4
  valueIndent := '\n' :: spaces 6
  rootPlain := requestTag_plain
  isRoot := requestTag_isRoot
  attributePlain h _ := attributeTag3_plain h
  attributeName _ _ := rfl
  attributeId _ _ := by rw [attributeTag3, attr_tagOf]; rfl
  valuePlain h := valueTag_plain h
  valueName := valueTag_name
  dataType _ _ := by simp only [xacml3, valueTag, attr_tagOf]; rfl
  rootBlank := blank_lineFeed
  groupBlank := by decide
  attributeBlank := by decide
  valueBlank := by decide

theorem attributeLine3 (id : Text) :
    "    <Attribute IncludeInResult=\"false\" AttributeId=\"".toList ++ (id ++ "\">\n".toList) =
      spaces 4 ++ startLine (attributeTag3 id) := by
  simp only [startLine, attributeTag3, tagOf, List.map_cons, List.map_nil, Markup.write, Markup.body,
    writeAttrs, List.flatMap_cons, List.flatMap_nil]
  repeat rw [String.toList_ofList]
  simp only [List.append_assoc, List.cons_append, List.nil_append]
  rfl

theorem indentedStringTag :
    "      <AttributeValue DataType=\"http://www.w3.org/2001/XMLSchema#string\">".toList =
      spaces 6 ++ (Markup.start (valueTag xsString.toList)).write := by
  rw [← stringValueTag]
  repeat rw [String.toList_ofList]
  rfl

theorem indentedIntegerTag :
    "      <AttributeValue DataType=\"http://www.w3.org/2001/XMLSchema#integer\">".toList =
      spaces 6 ++ (Markup.start (valueTag xsInteger.toList)).write := by
  rw [← integerValueTag]
  repeat rw [String.toList_ofList]
  rfl

theorem indentedAttributeStop : "    </Attribute>\n".toList = spaces 4 ++ stopLine "Attribute" := by
  rw [← attributeStopLine]
  repeat rw [String.toList_ofList]
  rfl

theorem indentedAttributesStop : "  </Attributes>\n".toList = spaces 2 ++ stopLine "Attributes" := by
  rw [← attributesStopLine]
  repeat rw [String.toList_ofList]
  rfl

theorem stringAttr_some (id : String) (s : Text) :
    stringAttr id (some s) = spaces 4 ++ startLine (attributeTag3 id.toList) ++ spaces 6 ++
      (Markup.start (valueTag xsString.toList)).write ++ s.flatMap entity ++
        stopLine "AttributeValue" ++ spaces 4 ++ stopLine "Attribute" := by
  rw [← attributeLine3]
  unfold stringAttr
  simp only [indentedStringTag, valueStopLine, indentedAttributeStop, xmlEscape_eq, List.append_assoc]

theorem integerAttr_some (id : String) (n : Number) :
    integerAttr id (some n) = spaces 4 ++ startLine (attributeTag3 id.toList) ++ spaces 6 ++
      (Markup.start (valueTag xsInteger.toList)).write ++ n.str ++
        stopLine "AttributeValue" ++ spaces 4 ++ stopLine "Attribute" := by
  rw [← attributeLine3]
  unfold integerAttr
  simp only [indentedIntegerTag, valueStopLine, indentedAttributeStop, List.append_assoc]

theorem python_writes3 : Writes pythonLayout3 stringAttr integerAttr Number.str := by
  refine ⟨fun a ha s => ?_, fun a ha n => ?_, fun id => ⟨rfl, rfl⟩⟩
  · rw [stringAttr_some, entryOf, ha]
    exact follows_entry pythonLayout3 ⟨a.urn.toList, xsString.toList, _, _⟩ rfl rfl
  · rw [integerAttr_some, entryOf, ha]
    exact follows_entry pythonLayout3 ⟨a.urn.toList, xsInteger.toList, _, _⟩ rfl rfl

/-- The line that opens a category. -/
def categoryLine3 (c : Category) : Text := spaces 2 ++ startLine (attributesTag c.urn.toList)

theorem subjectLine3 :
    "  <Attributes Category=\"urn:oasis:names:tc:xacml:1.0:subject-category:access-subject\">\n".toList =
      categoryLine3 .subject := by
  simp only [categoryLine3, startLine, attributesTag, Category.urn, tagOf, List.map_cons, List.map_nil]
  repeat rw [String.toList_ofList]
  rfl

theorem resourceLine3 :
    "  <Attributes Category=\"urn:oasis:names:tc:xacml:3.0:attribute-category:resource\">\n".toList =
      categoryLine3 .resource := by
  simp only [categoryLine3, startLine, attributesTag, Category.urn, tagOf, List.map_cons, List.map_nil]
  repeat rw [String.toList_ofList]
  rfl

theorem actionLine3 :
    "  <Attributes Category=\"urn:oasis:names:tc:xacml:3.0:attribute-category:action\">\n".toList =
      categoryLine3 .action := by
  simp only [categoryLine3, startLine, attributesTag, Category.urn, tagOf, List.map_cons, List.map_nil]
  repeat rw [String.toList_ofList]
  rfl

theorem environmentLine3 :
    "  <Attributes Category=\"urn:oasis:names:tc:xacml:3.0:attribute-category:environment\">\n".toList =
      categoryLine3 .environment := by
  simp only [categoryLine3, startLine, attributesTag, Category.urn, tagOf, List.map_cons, List.map_nil]
  repeat rw [String.toList_ofList]
  rfl

theorem requestStopLine : "</Request>\n".toList = (Markup.stop "Request".toList).write ++ ['\n'] := by
  repeat rw [String.toList_ofList]
  rfl

/-- The XML declaration of the request files, without the line feed behind it. -/
theorem body_declaration (rest : Text) :
    body ("<?xml version=\"1.0\" encoding=\"UTF-8\"?>\n".toList ++ rest) = '\n' :: rest := by
  rw [String.toList_ofList]
  rfl

def fileOrder : List Category := [.subject, .resource, .action, .environment]

theorem buildXacml3Request_body (x : Arguments Number) :
    body (buildXacml3Request x) = canonical pythonLayout3 grouping3 fileOrder
      (fun a => (x.get a).map (spellingOf Number.str)) ++ ['\n'] := by
  have hroot : pythonLayout3.rootIndent ++ startLine pythonLayout3.root =
      '\n' :: startLine requestTag := rfl
  have hfirst (c : Category) : spaces 2 ++ startLine (grouping3.tag c) = categoryLine3 c := rfl
  have hname (c : Category) : (grouping3.tag c).name = "Attributes".toList := rfl
  rw [canonical_eq_lines pythonLayout3 grouping3 (follows_linesOf pythonLayout3 _ _ x python_writes3)
    hroot rfl hfirst hname fun _ => rfl]
  unfold buildXacml3Request
  simp only [requestLine, subjectLine3, resourceLine3, actionLine3, environmentLine3,
    indentedAttributesStop, requestStopLine, lines_subject, lines_resource,
    lines_action stringAttr integerAttr, lines_environment]
  simp only [List.append_assoc, body_declaration, fileOrder, List.flatMap_cons, List.flatMap_nil,
    List.append_nil, List.cons_append]

def sunxacmlStringAttr (attributeId : String) : Option Text → Text
  | none => []
  | some value =>
    "    <Attribute AttributeId=\"".toList ++ attributeId.toList ++
      "\" DataType=\"http://www.w3.org/2001/XMLSchema#string\">\n".toList ++
    "      <AttributeValue>".toList ++ xmlEscape value ++ "</AttributeValue>\n".toList ++
    "    </Attribute>\n".toList

def sunxacmlIntegerAttr (attributeId : String) : Option Number → Text
  | none => []
  | some value =>
    "    <Attribute AttributeId=\"".toList ++ attributeId.toList ++
      "\" DataType=\"http://www.w3.org/2001/XMLSchema#integer\">\n".toList ++
    "      <AttributeValue>".toList ++ value.str ++ "</AttributeValue>\n".toList ++
    "    </Attribute>\n".toList

def buildXacml2Request (x : Arguments Number) : Text :=
  let subjectAttrs :=
    sunxacmlStringAttr "urn:oasis:names:tc:xacml:1.0:subject:subject-id" x.subjectId ++
    sunxacmlStringAttr "urn:uoa:canvas:subject:role" x.subjectRole ++
    sunxacmlStringAttr "urn:uoa:canvas:subject:department" x.subjectDepartment ++
    sunxacmlIntegerAttr "urn:uoa:canvas:subject:clearance" x.subjectClearance
  let resourceAttrs :=
    sunxacmlStringAttr "urn:oasis:names:tc:xacml:1.0:resource:resource-id" x.resourceId ++
    sunxacmlStringAttr "urn:uoa:canvas:resource:owner" x.resourceOwner ++
    sunxacmlStringAttr "urn:uoa:canvas:resource:department" x.resourceDepartment ++
    sunxacmlIntegerAttr "urn:uoa:canvas:resource:classification" x.resourceClassification
  let actionAttrs := sunxacmlStringAttr "urn:oasis:names:tc:xacml:1.0:action:action-id" x.action
  let envAttrs :=
    sunxacmlStringAttr "urn:uoa:canvas:environment:network" x.envNetwork ++
    sunxacmlIntegerAttr "urn:uoa:canvas:environment:hour" x.envHour
  "<?xml version=\"1.0\" encoding=\"UTF-8\"?>\n".toList ++
  "<Request xmlns=\"urn:oasis:names:tc:xacml:2.0:context:schema:os\">\n".toList ++
  "  <Subject>\n".toList ++ subjectAttrs ++ "  </Subject>\n".toList ++
  "  <Resource>\n".toList ++ resourceAttrs ++ "  </Resource>\n".toList ++
  "  <Action>\n".toList ++ actionAttrs ++ "  </Action>\n".toList ++
  "  <Environment>\n".toList ++ envAttrs ++ "  </Environment>\n".toList ++
  "</Request>\n".toList

def requestTag2 : Tag :=
  tagOf "Request" [("xmlns", "urn:oasis:names:tc:xacml:2.0:context:schema:os".toList)]

def attributeTag2 (id dataType : Text) : Tag :=
  tagOf "Attribute" [("AttributeId", id), ("DataType", dataType)]

def valueTag2 : Tag := tagOf "AttributeValue" []

theorem requestTag2_plain : requestTag2.Plain :=
  tagOf_cons_plain (isName_toList (by decide)) (forall_toList (by decide)) (by simp)
    (tagOf_nil_plain (isName_toList (by decide)))

theorem attributeTag2_plain {id d : Text} (hid : ∀ c ∈ id, isPlain c = true)
    (hd : ∀ c ∈ d, isPlain c = true) : (attributeTag2 id d).Plain := by
  refine tagOf_cons_plain (isName_toList (by decide)) hid (by simp) ?_
  exact tagOf_cons_plain (isName_toList (by decide)) hd (by simp)
    (tagOf_nil_plain (isName_toList (by decide)))

/-- How `build_xacml2_request` writes requests, behind the XML declaration. -/
def pythonLayout2 : Layout xacml2 where
  root := requestTag2
  attributeTag := attributeTag2
  valueTag _ := valueTag2
  rootIndent := ['\n']
  groupIndent := '\n' :: spaces 2
  attributeIndent := '\n' :: spaces 4
  valueIndent := '\n' :: spaces 6
  rootPlain := requestTag2_plain
  isRoot := by simp only [xacml2, requestTag2, attr_tagOf]; rfl
  attributePlain := attributeTag2_plain
  attributeName _ _ := rfl
  attributeId _ _ := by rw [attributeTag2, attr_tagOf]; rfl
  valuePlain _ := tagOf_nil_plain (isName_toList (by decide))
  valueName _ := rfl
  dataType _ _ := by simp only [xacml2, attributeTag2, attr_tagOf]; rfl
  rootBlank := blank_lineFeed
  groupBlank := by decide
  attributeBlank := by decide
  valueBlank := by decide

/-- The element of a category in a version 2.0 request. -/
def Category.element : Category → String
  | .subject => "Subject"
  | .resource => "Resource"
  | .action => "Action"
  | .environment => "Environment"

theorem xacml2_group (c : Category) : xacml2.group (tagOf c.element []) = some c.urn.toList := by
  cases c <;> rfl

def grouping2 : Grouping xacml2 where
  tag c := tagOf c.element []
  plain c := by
    cases c <;> exact tagOf_nil_plain (isName_toList (by decide))
  group := xacml2_group

theorem stringLine2 (id : Text) :
    "    <Attribute AttributeId=\"".toList ++ (id ++
      "\" DataType=\"http://www.w3.org/2001/XMLSchema#string\">\n".toList) =
      spaces 4 ++ startLine (attributeTag2 id xsString.toList) := by
  simp only [startLine, attributeTag2, xsString, tagOf, List.map_cons, List.map_nil, Markup.write,
    Markup.body, writeAttrs, List.flatMap_cons, List.flatMap_nil]
  repeat rw [String.toList_ofList]
  simp only [List.append_assoc, List.cons_append, List.nil_append]
  rfl

theorem integerLine2 (id : Text) :
    "    <Attribute AttributeId=\"".toList ++ (id ++
      "\" DataType=\"http://www.w3.org/2001/XMLSchema#integer\">\n".toList) =
      spaces 4 ++ startLine (attributeTag2 id xsInteger.toList) := by
  simp only [startLine, attributeTag2, xsInteger, tagOf, List.map_cons, List.map_nil, Markup.write,
    Markup.body, writeAttrs, List.flatMap_cons, List.flatMap_nil]
  repeat rw [String.toList_ofList]
  simp only [List.append_assoc, List.cons_append, List.nil_append]
  rfl

theorem indentedValueTag2 :
    "      <AttributeValue>".toList = spaces 6 ++ (Markup.start valueTag2).write := by
  simp only [valueTag2, tagOf, List.map_nil]
  repeat rw [String.toList_ofList]
  rfl

theorem sunxacmlStringAttr_some (id : String) (s : Text) :
    sunxacmlStringAttr id (some s) = spaces 4 ++
      startLine (attributeTag2 id.toList xsString.toList) ++ spaces 6 ++
      (Markup.start valueTag2).write ++ s.flatMap entity ++ stopLine "AttributeValue" ++ spaces 4 ++
        stopLine "Attribute" := by
  rw [← stringLine2]
  unfold sunxacmlStringAttr
  simp only [indentedValueTag2, valueStopLine, indentedAttributeStop, xmlEscape_eq, List.append_assoc]

theorem sunxacmlIntegerAttr_some (id : String) (n : Number) :
    sunxacmlIntegerAttr id (some n) = spaces 4 ++
      startLine (attributeTag2 id.toList xsInteger.toList) ++ spaces 6 ++
      (Markup.start valueTag2).write ++ n.str ++ stopLine "AttributeValue" ++ spaces 4 ++
        stopLine "Attribute" := by
  rw [← integerLine2]
  unfold sunxacmlIntegerAttr
  simp only [indentedValueTag2, valueStopLine, indentedAttributeStop, List.append_assoc]

theorem python_writes2 : Writes pythonLayout2 sunxacmlStringAttr sunxacmlIntegerAttr Number.str := by
  refine ⟨fun a ha s => ?_, fun a ha n => ?_, fun id => ⟨rfl, rfl⟩⟩
  · rw [sunxacmlStringAttr_some, entryOf, ha]
    exact follows_entry pythonLayout2 ⟨a.urn.toList, xsString.toList, _, _⟩ rfl rfl
  · rw [sunxacmlIntegerAttr_some, entryOf, ha]
    exact follows_entry pythonLayout2 ⟨a.urn.toList, xsInteger.toList, _, _⟩ rfl rfl

def elementLine (c : Category) : Text := spaces 2 ++ startLine (tagOf c.element [])

def elementStopLine (c : Category) : Text := spaces 2 ++ stopLine c.element

theorem requestLine2 :
    "<Request xmlns=\"urn:oasis:names:tc:xacml:2.0:context:schema:os\">\n".toList =
      startLine requestTag2 := by
  simp only [startLine, requestTag2, tagOf, List.map_cons, List.map_nil]
  repeat rw [String.toList_ofList]
  rfl

theorem subjectLine2 : "  <Subject>\n".toList = elementLine .subject ∧
    "  </Subject>\n".toList = elementStopLine .subject := by
  simp only [elementLine, elementStopLine, Category.element, tagOf, startLine, stopLine, List.map_nil]
  repeat rw [String.toList_ofList]
  exact ⟨rfl, rfl⟩

theorem resourceLine2 : "  <Resource>\n".toList = elementLine .resource ∧
    "  </Resource>\n".toList = elementStopLine .resource := by
  simp only [elementLine, elementStopLine, Category.element, tagOf, startLine, stopLine, List.map_nil]
  repeat rw [String.toList_ofList]
  exact ⟨rfl, rfl⟩

theorem actionLine2 : "  <Action>\n".toList = elementLine .action ∧
    "  </Action>\n".toList = elementStopLine .action := by
  simp only [elementLine, elementStopLine, Category.element, tagOf, startLine, stopLine, List.map_nil]
  repeat rw [String.toList_ofList]
  exact ⟨rfl, rfl⟩

theorem environmentLine2 : "  <Environment>\n".toList = elementLine .environment ∧
    "  </Environment>\n".toList = elementStopLine .environment := by
  simp only [elementLine, elementStopLine, Category.element, tagOf, startLine, stopLine, List.map_nil]
  repeat rw [String.toList_ofList]
  exact ⟨rfl, rfl⟩

theorem buildXacml2Request_body (x : Arguments Number) :
    body (buildXacml2Request x) = canonical pythonLayout2 grouping2 fileOrder
      (fun a => (x.get a).map (spellingOf Number.str)) ++ ['\n'] := by
  have hroot : pythonLayout2.rootIndent ++ startLine pythonLayout2.root =
      '\n' :: startLine requestTag2 := rfl
  have hfirst (c : Category) : spaces 2 ++ startLine (grouping2.tag c) = elementLine c := rfl
  have hname (c : Category) : (grouping2.tag c).name = c.element.toList := rfl
  have hlast (c : Category) : spaces 2 ++ stopLine c.element = elementStopLine c := rfl
  rw [canonical_eq_lines pythonLayout2 grouping2 (follows_linesOf pythonLayout2 _ _ x python_writes2)
    hroot rfl hfirst hname hlast]
  unfold buildXacml2Request
  simp only [requestLine2, subjectLine2, resourceLine2, actionLine2, environmentLine2,
    requestStopLine, lines_subject, lines_resource,
    lines_action sunxacmlStringAttr sunxacmlIntegerAttr, lines_environment]
  simp only [List.append_assoc, body_declaration, fileOrder, List.flatMap_cons, List.flatMap_nil,
    List.append_nil, List.cons_append]

end AbacMiddleLayer.Corpus
