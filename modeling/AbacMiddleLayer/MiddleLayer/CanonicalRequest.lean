import AbacMiddleLayer.Corpus.Documents
import AbacMiddleLayer.MiddleLayer.LegacyRequest
import AbacMiddleLayer.Xml.Escaping

/-! # The request of the benchmark harness

`ABACML.createCanonicalXACMLRequest` writes the attributes whose arguments are not
`null`. Strings are escaped here, so any text of XML characters is delivered, with its
line ends as XML has them.
-/
namespace AbacMiddleLayer.MiddleLayer
open Xml Context Decimal Corpus

def escapeXml (value : Text) : Text :=
  replaceAll [('&', "&amp;"), ('<', "&lt;"), ('>', "&gt;"), ('"', "&quot;"), ('\'', "&apos;")] value

def appendStringAttribute (attributeId : String) : Option Text → Text
  | none => []
  | some value =>
    "<Attribute AttributeId=\"".toList ++ attributeId.toList ++
      "\" IncludeInResult=\"false\">\n".toList ++
    "<AttributeValue DataType=\"http://www.w3.org/2001/XMLSchema#string\">".toList ++
      escapeXml value ++ "</AttributeValue>\n".toList ++
    "</Attribute>\n".toList

def appendIntegerAttribute (attributeId : String) : Option ℤ → Text
  | none => []
  | some value =>
    "<Attribute AttributeId=\"".toList ++ attributeId.toList ++
      "\" IncludeInResult=\"false\">\n".toList ++
    "<AttributeValue DataType=\"http://www.w3.org/2001/XMLSchema#integer\">".toList ++
      decimal value ++ "</AttributeValue>\n".toList ++
    "</Attribute>\n".toList

/-- The document, an argument that is `null` left out. -/
def createCanonicalXACMLRequest (x : Arguments ℤ) : Text :=
  "<Request xmlns=\"urn:oasis:names:tc:xacml:3.0:core:schema:wd-17\" CombinedDecision=\"false\" ReturnPolicyIdList=\"false\">\n".toList ++
  "<Attributes Category=\"urn:oasis:names:tc:xacml:1.0:subject-category:access-subject\">\n".toList ++
  appendStringAttribute "urn:oasis:names:tc:xacml:1.0:subject:subject-id" x.subjectId ++
  appendStringAttribute "urn:uoa:canvas:subject:role" x.subjectRole ++
  appendStringAttribute "urn:uoa:canvas:subject:department" x.subjectDepartment ++
  appendIntegerAttribute "urn:uoa:canvas:subject:clearance" x.subjectClearance ++
  "</Attributes>\n".toList ++
  "<Attributes Category=\"urn:oasis:names:tc:xacml:3.0:attribute-category:action\">\n".toList ++
  appendStringAttribute "urn:oasis:names:tc:xacml:1.0:action:action-id" x.action ++
  "</Attributes>\n".toList ++
  "<Attributes Category=\"urn:oasis:names:tc:xacml:3.0:attribute-category:resource\">\n".toList ++
  appendStringAttribute "urn:oasis:names:tc:xacml:1.0:resource:resource-id" x.resourceId ++
  appendStringAttribute "urn:uoa:canvas:resource:owner" x.resourceOwner ++
  appendStringAttribute "urn:uoa:canvas:resource:department" x.resourceDepartment ++
  appendIntegerAttribute "urn:uoa:canvas:resource:classification" x.resourceClassification ++
  "</Attributes>\n".toList ++
  "<Attributes Category=\"urn:oasis:names:tc:xacml:3.0:attribute-category:environment\">\n".toList ++
  appendStringAttribute "urn:uoa:canvas:environment:network" x.envNetwork ++
  appendIntegerAttribute "urn:uoa:canvas:environment:hour" x.envHour ++
  "</Attributes>\n".toList ++
  "</Request>".toList

theorem attributeLine (id : Text) :
    "<Attribute AttributeId=\"".toList ++ (id ++ "\" IncludeInResult=\"false\">\n".toList) =
      startLine (attributeTag id) := by
  simp only [startLine, attributeTag, tagOf, List.map_cons, List.map_nil, Markup.write, Markup.body,
    writeAttrs, List.flatMap_cons, List.flatMap_nil]
  repeat rw [String.toList_ofList]
  simp only [List.append_assoc, List.cons_append, List.nil_append]

theorem environmentLine :
    "<Attributes Category=\"urn:oasis:names:tc:xacml:3.0:attribute-category:environment\">\n".toList =
      startLine (attributesTag environmentCategory.toList) := by
  simp only [startLine, attributesTag, environmentCategory, tagOf, List.map_cons, List.map_nil]
  repeat rw [String.toList_ofList]
  rfl

theorem follows_javaEntry (id d raw value : Text) :
    Follows (startLine (attributeTag id) ++ ((Markup.start (valueTag d)).write ++
      (raw ++ (stopLine "AttributeValue" ++ stopLine "Attribute"))))
      (writeSegments (javaLayout.entry ⟨id, d, raw, value⟩)) := by
  have h := follows_entry javaLayout ⟨id, d, raw, value⟩ (i := []) (j := []) rfl rfl
  simpa only [List.append_assoc, List.nil_append, javaLayout] using h

theorem escapeXml_eq (s : Text) : escapeXml s = s.flatMap entity := replaceAll_markup s

theorem appendStringAttribute_some (id : String) (s : Text) :
    appendStringAttribute id (some s) = startLine (attributeTag id.toList) ++
      ((Markup.start (valueTag xsString.toList)).write ++
        (s.flatMap entity ++ (stopLine "AttributeValue" ++ stopLine "Attribute"))) := by
  rw [← attributeLine]
  unfold appendStringAttribute
  simp only [stringValueTag, valueStopLine, attributeStopLine, escapeXml_eq, List.append_assoc]

theorem appendIntegerAttribute_some (id : String) (n : ℤ) :
    appendIntegerAttribute id (some n) = startLine (attributeTag id.toList) ++
      ((Markup.start (valueTag xsInteger.toList)).write ++
        (decimal n ++ (stopLine "AttributeValue" ++ stopLine "Attribute"))) := by
  rw [← attributeLine]
  unfold appendIntegerAttribute
  simp only [integerValueTag, valueStopLine, attributeStopLine, List.append_assoc]

theorem java_writes : Writes javaLayout appendStringAttribute appendIntegerAttribute decimal := by
  refine ⟨fun a ha s => ?_, fun a ha n => ?_, fun id => ⟨rfl, rfl⟩⟩
  · rw [appendStringAttribute_some, entryOf, ha]
    exact follows_javaEntry a.urn.toList xsString.toList _ _
  · rw [appendIntegerAttribute_some, entryOf, ha]
    exact follows_javaEntry a.urn.toList xsInteger.toList _ _

def canonicalOrder : List Category := [.subject, .action, .resource, .environment]

theorem createCanonicalXACMLRequest_eq (x : Arguments ℤ) :
    createCanonicalXACMLRequest x = canonical javaLayout grouping3 canonicalOrder fun a =>
      (x.get a).map (spellingOf decimal) := by
  have hname (c : Category) : (grouping3.tag c).name = "Attributes".toList := rfl
  rw [canonical_eq_lines javaLayout grouping3 (follows_linesOf javaLayout _ _ x java_writes)
    (List.nil_append _) rfl (fun c => List.nil_append _) hname (fun c => List.nil_append _)]
  unfold createCanonicalXACMLRequest
  simp only [requestLine, subjectLine, actionLine, resourceLine, environmentLine, attributesStopLine,
    requestStopTag]
  simp only [canonicalOrder, List.flatMap_cons, List.flatMap_nil, ← lines_subject, ← lines_action,
    ← lines_resource, ← lines_environment, javaLayout, grouping3, Category.urn, accessSubject,
    actionCategory, resourceCategory, environmentCategory, List.append_assoc, List.append_nil]

theorem canonicalOrder_complete (c : Category) : c ∈ canonicalOrder := by cases c <;> decide

theorem reads_decimal (n : ℤ) : Reads (decimal n) (decimal n) := by
  refine reads_of_isNumeric fun c hc => ?_
  rw [isNumeric, Bool.or_eq_true, decide_eq_true_eq]
  rcases mem_decimal hc with hc | rfl
  · exact .inl hc
  · exact .inr (by decide)

theorem body_createCanonicalXACMLRequest (x : Arguments ℤ) :
    body (createCanonicalXACMLRequest x) = canonical javaLayout grouping3 canonicalOrder
      (fun a => (x.get a).map (spellingOf decimal)) ++ [] := by
  rw [createCanonicalXACMLRequest_eq, canonical, body_javaLayout, List.append_nil]

theorem deliver_createCanonicalXACMLRequest {x : Arguments ℤ}
    (h : ∀ a t, x.get a = some (.text t) → ∀ c ∈ t, isXmlChar c = true) :
    deliver xacml3 (createCanonicalXACMLRequest x) =
      some (present canonicalOrder (delivered decimal x)) := by
  refine (deliver_eq_some_iff javaLayout grouping3 reads_decimal canonicalOrder_complete (by decide)
    (body_createCanonicalXACMLRequest x)).mpr ⟨h, fun a n _ => ?_, rfl⟩
  rw [integerValue_decimal]
  rfl

/-- The strings among the arguments have only characters of XML that it leaves alone. -/
def Sendable (x : Arguments ℤ) : Prop :=
  ∀ a s, x.get a = some (.text s) → ∀ c ∈ s, isXmlChar c = true ∧ c ≠ '\r'

theorem sendable_of_all {x : Arguments ℤ} (h : ∀ a s, x.get a = some (.text s) →
    (s.all fun c => isXmlChar c && decide (c ≠ '\r')) = true) : Sendable x := by
  intro a s hs c hc
  simpa using List.all_eq_true.mp (h a s hs) c hc

/-- A value as it stands in a document. -/
def lexical : Value → Text
  | .text s => s
  | .number n => decimal n

/-- The attributes of a category that the arguments which are not `null` give. -/
def suppliedBy (x : Arguments ℤ) (c : Category) : List Supplied :=
  c.attributes.filterMap fun a => (x.get a).map fun v => suppliedOf a (lexical v)

theorem Sendable.normalizeLineEnds_eq {x : Arguments ℤ} (h : Sendable x) {a : Attribute} {s : Text}
    (hs : x.get a = some (.text s)) : normalizeLineEnds s = s :=
  normalizeLineEnds_eq_self fun hmem => (h a s hs '\r' hmem).2 rfl

theorem Sendable.delivered_eq {x : Arguments ℤ} (h : Sendable x) : delivered decimal x = x.get := by
  funext a
  cases hget : x.get a with
  | none => rw [delivered, hget, Option.bind_none]
  | some v =>
    cases v with
    | text s => rw [delivered_text decimal hget, h.normalizeLineEnds_eq hget]
    | number n => rw [delivered_number decimal hget, integerValue_decimal, Option.map_some]

theorem Sendable.deliver_eq {x : Arguments ℤ} (h : Sendable x) :
    deliver xacml3 (createCanonicalXACMLRequest x) = some (present canonicalOrder x.get) := by
  rw [deliver_createCanonicalXACMLRequest fun a t ht c hc => (h a t ht c hc).1, h.delivered_eq]

theorem Sendable.read_eq {x : Arguments ℤ} (h : Sendable x) :
    xacml3.read (createCanonicalXACMLRequest x) = some (canonicalOrder.flatMap (suppliedBy x)) := by
  have hreads (a : Attribute) (sp : Spelling) (hsp : (x.get a).map (spellingOf decimal) = some sp) :
      Reads sp.raw sp.value := by
    obtain ⟨v, hv, rfl⟩ := Option.map_eq_some_iff.mp hsp
    cases v with
    | text s => exact reads_flatMap_entity fun c hc => (h a s hv c hc).1
    | number n => exact reads_decimal n
  rw [read_canonical javaLayout grouping3 hreads (by decide) (body_createCanonicalXACMLRequest x)]
  unfold suppliedBy
  rw [← List.filterMap_flatMap]
  congr 1
  refine List.filterMap_congr fun a _ => ?_
  cases hget : x.get a with
  | none => rfl
  | some v =>
    cases v with
    | text s => simp [spellingOf, lexical, h.normalizeLineEnds_eq hget]
    | number n => rfl

theorem get_injective {x y : Arguments ℤ} (h : x.get = y.get) : x = y := by
  have htext {s t : Option Text} (hst : s.map (Field.text (N := ℤ)) = t.map .text) : s = t :=
    Option.map_injective (fun _ _ h => Field.text.inj h) hst
  have hnumber {m n : Option ℤ} (hmn : m.map Field.number = n.map .number) : m = n :=
    Option.map_injective (fun _ _ h => Field.number.inj h) hmn
  have hget (a : Attribute) : x.get a = y.get a := congrFun h a
  obtain ⟨⟩ := x
  obtain ⟨⟩ := y
  congr 1
  · exact htext (hget .subjectId)
  · exact htext (hget .subjectRole)
  · exact htext (hget .subjectDepartment)
  · exact hnumber (hget .subjectClearance)
  · exact htext (hget .resourceId)
  · exact htext (hget .resourceOwner)
  · exact htext (hget .resourceDepartment)
  · exact hnumber (hget .resourceClassification)
  · exact htext (hget .action)
  · exact htext (hget .envNetwork)
  · exact hnumber (hget .envHour)

/-- The request is read back, category by category, as the arguments that are not `null`, each
with its identifier, data type and value, and different arguments give different requests. -/
theorem canonicalRequest_roundTrip {x : Arguments ℤ} (hx : Sendable x) :
    xacml3.read (createCanonicalXACMLRequest x) = some (canonicalOrder.flatMap (suppliedBy x)) ∧
      deliver xacml3 (createCanonicalXACMLRequest x) = some (present canonicalOrder x.get) ∧
      ∀ y, Sendable y → createCanonicalXACMLRequest y = createCanonicalXACMLRequest x → y = x := by
  refine ⟨hx.read_eq, hx.deliver_eq, fun y hy heq => ?_⟩
  have hdeliver := hy.deliver_eq
  rw [heq, hx.deliver_eq, Option.some.injEq] at hdeliver
  refine get_injective ((present_same_iff canonicalOrder_complete canonicalOrder_complete).mp ?_)
  intro t
  rw [hdeliver]

/-- Arguments with characters of markup. -/
def markupArguments : Arguments ℤ where
  subjectId := some ['O', '\'', 'N', '<', '/', '>']
  subjectRole := none
  subjectDepartment := some ['R', '&', 'D']
  subjectClearance := some (-2)
  resourceId := some []
  resourceOwner := none
  resourceDepartment := some ['R', '&', 'a', 'm', 'p', ';', 'D']
  resourceClassification := none
  action := some ['S', 'E', 'L', 'E', 'C', 'T']
  envNetwork := none
  envHour := some 10

theorem markupArguments_roundTrip :
    Sendable markupArguments ∧
      xacml3.read (createCanonicalXACMLRequest markupArguments) =
        some (canonicalOrder.flatMap (suppliedBy markupArguments)) := by
  have hsendable : Sendable markupArguments := by
    refine sendable_of_all fun a s hs => ?_
    cases a <;> simp only [Arguments.get, markupArguments, Option.map_some, Option.map_none,
      Option.some.injEq, Field.text.injEq, reduceCtorEq] at hs <;> subst hs <;> decide
  exact ⟨hsendable, (canonicalRequest_roundTrip hsendable).1⟩

end AbacMiddleLayer.MiddleLayer
