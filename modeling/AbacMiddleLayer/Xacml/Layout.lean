import AbacMiddleLayer.Xacml.Context

/-! # Written request documents

A layout is a way to write a request: the tags, and the blanks in front of them. Its
fields carry the proofs that the reader of a format takes the tags for what they are, so
that every document in the layout delivers the attributes it was written for.
-/
namespace AbacMiddleLayer.Context
open Xml

/-- Blanks and line feeds, as programs put them between tags. -/
def Blank (s : Text) : Prop := ∀ c ∈ s, c = ' ' ∨ c = '\n'

instance (s : Text) : Decidable (Blank s) := List.decidableBAll (fun c => c = ' ' ∨ c = '\n') s

theorem blank_lineFeed : Blank ['\n'] := by decide

/-- An attribute to write: the text that goes into the document, and what it says. -/
structure Entry where
  id : Text
  dataType : Text
  raw : Text
  value : Text

structure Entry.Ok (e : Entry) : Prop where
  id : ∀ c ∈ e.id, isPlain c = true
  dataType : ∀ c ∈ e.dataType, isPlain c = true
  reads : Reads e.raw e.value

/-- A group of attributes to write. -/
structure Block where
  tag : Tag
  category : Text
  entries : List Entry

structure Block.Ok (F : Format) (b : Block) : Prop where
  plain : b.tag.Plain
  group : F.group b.tag = some b.category
  entries : ∀ e ∈ b.entries, e.Ok

def Block.supplied (b : Block) : List Supplied :=
  b.entries.map fun e => ⟨b.category, e.id, e.dataType, e.value⟩

structure Layout (F : Format) where
  root : Tag
  attributeTag : Text → Text → Tag
  valueTag : Text → Tag
  rootIndent : Text
  groupIndent : Text
  attributeIndent : Text
  valueIndent : Text
  rootPlain : root.Plain
  isRoot : F.root root = true
  attributePlain {id d : Text} : (∀ c ∈ id, isPlain c = true) → (∀ c ∈ d, isPlain c = true) →
    (attributeTag id d).Plain
  attributeName (id d : Text) : (attributeTag id d).name = "Attribute".toList
  attributeId (id d : Text) : attr (attributeTag id d) "AttributeId" = some id
  valuePlain {d : Text} : (∀ c ∈ d, isPlain c = true) → (valueTag d).Plain
  valueName (d : Text) : (valueTag d).name = "AttributeValue".toList
  dataType (id d : Text) : F.dataType (attributeTag id d) (valueTag d) = some d
  rootBlank : Blank rootIndent
  groupBlank : Blank groupIndent
  attributeBlank : Blank attributeIndent
  valueBlank : Blank valueIndent

/-- A tag behind white space. -/
def tagSegment (indent : Text) (m : Markup) : Segment := ⟨indent, indent, m⟩

namespace Layout

variable {F : Format} (L : Layout F)

def entryHead (e : Entry) : List Segment :=
  [tagSegment L.attributeIndent (.start (L.attributeTag e.id e.dataType)),
    tagSegment L.valueIndent (.start (L.valueTag e.dataType))]

def entryTail (e : Entry) : List Segment :=
  [⟨e.raw, e.value, .stop "AttributeValue".toList⟩,
    tagSegment L.attributeIndent (.stop "Attribute".toList)]

def entry (e : Entry) : List Segment := L.entryHead e ++ L.entryTail e

def blockHead (b : Block) : List Segment := [tagSegment L.groupIndent (.start b.tag)]

def blockTail (b : Block) : List Segment := [tagSegment L.groupIndent (.stop b.tag.name)]

def block (b : Block) : List Segment :=
  L.blockHead b ++ (b.entries.flatMap L.entry ++ L.blockTail b)

def documentHead : List Segment := [tagSegment L.rootIndent (.start L.root)]

def documentTail : List Segment := [tagSegment ['\n'] (.stop "Request".toList)]

def document (bs : List Block) : List Segment :=
  L.documentHead ++ (bs.flatMap L.block ++ documentTail)

end Layout

-- Programs end lines with a line feed, segments start with one.
def startLine (tag : Tag) : Text := (Markup.start tag).write ++ ['\n']

def stopLine (name : String) : Text := (Markup.stop name.toList).write ++ ['\n']

/-- Lines that say the same as a run of segments, once a line feed stands before them. -/
def Follows (text written : Text) : Prop := '\n' :: text = written ++ ['\n']

theorem follows_nil : Follows [] [] := rfl

theorem Follows.before {t u : Text} (h : Follows t u) (rest : Text) :
    '\n' :: (t ++ rest) = u ++ '\n' :: rest := by
  rw [Follows] at h
  rw [← List.cons_append, h, List.append_assoc, List.singleton_append]

theorem Follows.append {s t u v : Text} (h : Follows s u) (h' : Follows t v) :
    Follows (s ++ t) (u ++ v) := by
  rw [Follows, h.before, h', List.append_assoc]

section Follows

variable {F : Format} (L : Layout F)

theorem writeSegments_append (s t : List Segment) :
    writeSegments (s ++ t) = writeSegments s ++ writeSegments t := by
  simp [writeSegments]

theorem follows_flatMap {α β : Type*} {l : List α} {text : α → Text} {f : β → List Segment}
    {g : α → List β} (h : ∀ a ∈ l, Follows (text a) (writeSegments ((g a).flatMap f))) :
    Follows (l.flatMap text) (writeSegments ((l.flatMap g).flatMap f)) := by
  induction l with
  | nil => exact follows_nil
  | cons a l ih =>
    rw [List.flatMap_cons, List.flatMap_cons, List.flatMap_append, writeSegments_append]
    exact (h a (by simp)).append (ih fun b hb => h b (by simp [hb]))

theorem follows_entry (e : Entry) {i j : Text} (hi : L.attributeIndent = '\n' :: i)
    (hj : L.valueIndent = '\n' :: j) :
    Follows (i ++ startLine (L.attributeTag e.id e.dataType) ++ j ++
      (Markup.start (L.valueTag e.dataType)).write ++ e.raw ++ stopLine "AttributeValue" ++ i ++
      stopLine "Attribute") (writeSegments (L.entry e)) := by
  simp only [Follows, Layout.entry, Layout.entryHead, Layout.entryTail, tagSegment, writeSegments,
    hi, hj, startLine, stopLine, List.flatMap_cons, List.flatMap_nil, List.append_nil,
    List.append_assoc, List.cons_append, List.nil_append]

theorem follows_block {b : Block} {name : String} (hname : b.tag.name = name.toList) {text i : Text}
    (hi : L.groupIndent = '\n' :: i) (h : Follows text (writeSegments (b.entries.flatMap L.entry))) :
    Follows (i ++ startLine b.tag ++ text ++ i ++ stopLine name) (writeSegments (L.block b)) := by
  have hblock : writeSegments (L.block b) = '\n' :: (i ++ ((Markup.start b.tag).write ++
      (writeSegments (b.entries.flatMap L.entry) ++
        '\n' :: (i ++ (Markup.stop name.toList).write)))) := by
    simp only [Layout.block, Layout.blockHead, Layout.blockTail, tagSegment, writeSegments, hi, hname,
      List.flatMap_append, List.flatMap_cons, List.flatMap_nil, List.append_nil, List.append_assoc,
      List.cons_append, List.nil_append]
  rw [Follows, hblock]
  simp only [startLine, stopLine, List.append_assoc, List.cons_append, List.nil_append, h.before]

/-- A document by lines. -/
theorem writeSegments_document {bs : List Block} {text : Text}
    (h : Follows text (writeSegments (bs.flatMap L.block))) :
    writeSegments (L.document bs) = L.rootIndent ++ (startLine L.root ++ (text ++
      (Markup.stop "Request".toList).write)) := by
  have hdocument : writeSegments (L.document bs) = L.rootIndent ++ ((Markup.start L.root).write ++
      (writeSegments (bs.flatMap L.block) ++ '\n' :: (Markup.stop "Request".toList).write)) := by
    simp only [Layout.document, Layout.documentHead, Layout.documentTail, tagSegment,
      writeSegments_append]
    simp only [writeSegments, List.flatMap_cons, List.flatMap_nil, List.append_nil,
      List.append_assoc, List.cons_append, List.nil_append]
  rw [hdocument, startLine, List.append_assoc, List.singleton_append, h.before]

end Follows

theorem Blank.isSpace {s : Text} (h : Blank s) : s.all isSpace = true := by
  rw [List.all_eq_true]
  intro c hc
  rcases h c hc with rfl | rfl <;> rfl

theorem Blank.reads {s : Text} (h : Blank s) : Reads s s where
  noTag := fun hmem => by rcases h _ hmem with hc | hc <;> simp at hc
  chars := fun c hc => by rcases h c hc with rfl | rfl <;> decide
  noCdataEnd := by
    refine hasCdataEnd_eq_false fun hmem => ?_
    rcases mem_normalizeLineEnds hmem with hmem | hmem
    · rcases h _ hmem with hc | hc <;> simp at hc
    · simp at hmem
  value := by
    rw [readText_eq_self_iff]
    constructor <;> intro hmem <;> rcases h _ hmem with hc | hc <;> simp at hc

theorem tagSegment_ok {indent : Text} (h : Blank indent) {m : Markup} (hm : m.Plain) :
    (tagSegment indent m).Ok := ⟨hm, h.reads⟩

section Ok

variable {F : Format} (L : Layout F) {e : Entry} {b : Block}

theorem entryHead_ok (hid : ∀ c ∈ e.id, isPlain c = true)
    (htype : ∀ c ∈ e.dataType, isPlain c = true) : ∀ s ∈ L.entryHead e, s.Ok := by
  simp only [Layout.entryHead, List.mem_cons, List.not_mem_nil, or_false, forall_eq_or_imp, forall_eq]
  exact ⟨tagSegment_ok L.attributeBlank (L.attributePlain hid htype),
    tagSegment_ok L.valueBlank (L.valuePlain htype)⟩

theorem entryTail_ok (h : e.Ok) : ∀ s ∈ L.entryTail e, s.Ok := by
  simp only [Layout.entryTail, List.mem_cons, List.not_mem_nil, or_false, forall_eq_or_imp, forall_eq]
  have hvalue : isName "AttributeValue".toList = true := isName_toList (by decide)
  have hattribute : isName "Attribute".toList = true := isName_toList (by decide)
  exact ⟨⟨hvalue, h.reads⟩, tagSegment_ok L.attributeBlank hattribute⟩

theorem entry_ok (h : e.Ok) : ∀ s ∈ L.entry e, s.Ok :=
  List.forall_mem_append.mpr ⟨entryHead_ok L h.id h.dataType, entryTail_ok L h⟩

theorem blockHead_ok (h : b.tag.Plain) : ∀ s ∈ L.blockHead b, s.Ok := by
  simpa [Layout.blockHead] using tagSegment_ok L.groupBlank (m := .start b.tag) h

theorem blockTail_ok (h : b.Ok F) : ∀ s ∈ L.blockTail b, s.Ok := by
  simpa [Layout.blockTail] using tagSegment_ok L.groupBlank (m := .stop b.tag.name) h.plain.name

theorem block_ok (h : b.Ok F) : ∀ s ∈ L.block b, s.Ok := by
  refine List.forall_mem_append.mpr ⟨blockHead_ok L h.plain,
    List.forall_mem_append.mpr ⟨?_, blockTail_ok L h⟩⟩
  exact List.forall_mem_flatMap.mpr fun e he => entry_ok L (h.entries e he)

theorem documentHead_ok : ∀ s ∈ L.documentHead, s.Ok := by
  simpa [Layout.documentHead] using tagSegment_ok L.rootBlank (m := .start L.root) L.rootPlain

theorem document_ok {bs : List Block} (h : ∀ b ∈ bs, b.Ok F) : ∀ s ∈ L.document bs, s.Ok := by
  have hname : isName "Request".toList = true := isName_toList (by decide)
  refine List.forall_mem_append.mpr ⟨documentHead_ok L, List.forall_mem_append.mpr ⟨?_, ?_⟩⟩
  · exact List.forall_mem_flatMap.mpr fun b hb => block_ok L (h b hb)
  · have hblank := blank_lineFeed
    simpa [Layout.documentTail] using tagSegment_ok hblank (m := .stop "Request".toList) hname

end Ok

section Passes

variable {F : Format} (L : Layout F)

@[simp] theorem segmentTokens_append (s t : List Segment) :
    segmentTokens (s ++ t) = segmentTokens s ++ segmentTokens t := by
  simp [segmentTokens]

/-- A tag behind white space leads from any place outside of a value where it is allowed. -/
theorem passes_tagSegment {indent : Text} (h : Blank indent) {m : Markup} {p q : Place}
    (hp : ∀ s, s.all isSpace = true → Format.text s p = some (p, []))
    (hm : F.step p (.markup m) = some (q, [])) :
    F.Passes p (segmentTokens [tagSegment indent m]) q [] := by
  have htext : F.Passes p [.text indent] p [] := Format.passes_step (hp indent h.isSpace)
  exact htext.append (Format.passes_step hm)

theorem passes_entryHead (g : Group) (e : Entry) :
    F.Passes (.group g) (segmentTokens (L.entryHead e))
      (.value g e.id (L.attributeTag e.id e.dataType) e.dataType) [] := by
  have hattribute : F.Passes (.group g) _ (.attribute g e.id (L.attributeTag e.id e.dataType)) [] :=
    passes_tagSegment L.attributeBlank (m := .start (L.attributeTag e.id e.dataType))
      (fun s hs => by simp [Format.text, hs])
      (by simp [Format.step, Format.start, L.attributeName, L.attributeId])
  have hvalue := passes_tagSegment (F := F) L.valueBlank (m := .start (L.valueTag e.dataType))
    (p := .attribute g e.id (L.attributeTag e.id e.dataType))
    (fun s hs => by simp [Format.text, hs])
    (by simp [Format.step, Format.start, L.valueName, L.dataType]; rfl)
  exact hattribute.append hvalue

theorem passes_entryTail (g : Group) (e : Entry) (tag : Tag) :
    F.Passes (.value g e.id tag e.dataType) (segmentTokens (L.entryTail e)) (.group g)
      [⟨g.category, e.id, e.dataType, e.value⟩] := by
  have htext : F.Passes (.value g e.id tag e.dataType) [.text e.value] (.afterValue g e.id tag)
      [⟨g.category, e.id, e.dataType, e.value⟩] := Format.passes_step rfl
  have hstop : F.Passes (.afterValue g e.id tag) [.markup (.stop "AttributeValue".toList)]
      (.attribute g e.id tag) [] :=
    Format.passes_step (by simp [Format.step, Format.stop])
  have hclose : F.Passes (.attribute g e.id tag) _ (.group g) [] :=
    passes_tagSegment L.attributeBlank (m := .stop "Attribute".toList)
      (fun s hs => by simp [Format.text, hs]) (by simp [Format.step, Format.stop])
  exact (htext.append hstop).append hclose

theorem passes_entry (g : Group) (e : Entry) :
    F.Passes (.group g) (segmentTokens (L.entry e)) (.group g)
      [⟨g.category, e.id, e.dataType, e.value⟩] := by
  rw [Layout.entry, segmentTokens_append]
  exact (passes_entryHead L g e).append (passes_entryTail L g e _)

theorem passes_entries (g : Group) (es : List Entry) :
    F.Passes (.group g) (segmentTokens (es.flatMap L.entry)) (.group g)
      (es.map fun e => ⟨g.category, e.id, e.dataType, e.value⟩) := by
  induction es with
  | nil => exact Format.passes_nil
  | cons e es ih =>
    rw [List.flatMap_cons, segmentTokens_append]
    exact (passes_entry L g e).append ih

theorem passes_blockHead {b : Block} (h : F.group b.tag = some b.category) :
    F.Passes .request (segmentTokens (L.blockHead b)) (.group ⟨b.tag.name, b.category⟩) [] :=
  passes_tagSegment L.groupBlank (fun s hs => by simp [Format.text, hs])
    (by simp [Format.step, Format.start, h])

theorem passes_blockTail (b : Block) :
    F.Passes (.group ⟨b.tag.name, b.category⟩) (segmentTokens (L.blockTail b)) .request [] :=
  passes_tagSegment L.groupBlank (fun s hs => by simp [Format.text, hs])
    (by simp [Format.step, Format.stop])

theorem passes_block {b : Block} (h : F.group b.tag = some b.category) :
    F.Passes .request (segmentTokens (L.block b)) .request b.supplied := by
  rw [Layout.block, segmentTokens_append, segmentTokens_append]
  simpa [Block.supplied] using (passes_blockHead L h).append
    ((passes_entries L ⟨b.tag.name, b.category⟩ b.entries).append (passes_blockTail L b))

theorem passes_blocks {bs : List Block} (h : ∀ b ∈ bs, b.Ok F) :
    F.Passes .request (segmentTokens (bs.flatMap L.block)) .request
      (bs.flatMap Block.supplied) := by
  induction bs with
  | nil => exact Format.passes_nil
  | cons b bs ih =>
    rw [List.flatMap_cons, segmentTokens_append]
    exact (passes_block L (h b (by simp)).group).append (ih fun c hc => h c (by simp [hc]))

theorem passes_documentHead : F.Passes .outside (segmentTokens L.documentHead) .request [] :=
  passes_tagSegment L.rootBlank (fun s hs => by simp [Format.text, hs])
    (by simp [Format.step, Format.start, L.isRoot])

theorem passes_document {bs : List Block} (h : ∀ b ∈ bs, b.Ok F) :
    F.Passes .outside (segmentTokens (L.document bs)) .after (bs.flatMap Block.supplied) := by
  have hblank : Blank ['\n'] := by decide
  have htail : F.Passes .request (segmentTokens Layout.documentTail) .after [] :=
    passes_tagSegment hblank (fun s hs => by simp [Format.text, hs])
      (by simp [Format.step, Format.stop])
  rw [Layout.document, segmentTokens_append, segmentTokens_append]
  simpa using (passes_documentHead L).append ((passes_blocks L h).append htail)

end Passes

/-- A document in a layout delivers the attributes it was written for. -/
theorem Layout.read {F : Format} (L : Layout F) {bs : List Block} (h : ∀ b ∈ bs, b.Ok F)
    {doc last : Text} (hlast : Blank last)
    (hbody : body doc = writeSegments (L.document bs) ++ last) :
    F.read doc = some (bs.flatMap Block.supplied) := by
  refine (passes_document L h).read hlast.isSpace ?_
  rw [tokens, hbody]
  exact bodyTokens_segments (document_ok L h) hlast.reads

/-- When a document is read as it was meant, the first text of a block, meant as it is
written, has nothing in it to be read otherwise, whatever comes after it. -/
theorem Layout.reads_self {F : Format} (L : Layout F) {bs before after : List Block} {b : Block}
    (hbs : bs = before ++ b :: after) (hbefore : ∀ b ∈ before, b.Ok F) (hplain : b.tag.Plain)
    (hgroup : F.group b.tag = some b.category) {e : Entry} {es : List Entry}
    (hentries : b.entries = e :: es) (hid : ∀ c ∈ e.id, isPlain c = true)
    (htype : ∀ c ∈ e.dataType, isPlain c = true) (hvalue : e.value = e.raw) {doc last : Text}
    (hbody : body doc = writeSegments (L.document bs) ++ last)
    (hread : F.read doc = some (bs.flatMap Block.supplied)) : Reads e.raw e.raw := by
  have hok : ∀ s ∈ L.documentHead ++ (before.flatMap L.block ++ (L.blockHead b ++ L.entryHead e)),
      s.Ok := by
    simp only [List.forall_mem_append]
    exact ⟨documentHead_ok L, List.forall_mem_flatMap.mpr fun c hc => block_ok L (hbefore c hc),
      blockHead_ok L hplain, entryHead_ok L hid htype⟩
  have hpass := (passes_documentHead L).append ((passes_blocks L hbefore).append
    ((passes_blockHead L hgroup).append (passes_entryHead L ⟨b.tag.name, b.category⟩ e)))
  simp only [← segmentTokens_append, List.nil_append, List.append_nil] at hpass
  obtain ⟨rest, hrest⟩ : ∃ rest, writeSegments (L.document bs) ++ last =
      writeSegments (L.documentHead ++ (before.flatMap L.block ++ (L.blockHead b ++ L.entryHead e))) ++
        (e.raw ++ '<' :: rest) := by
    simp only [hbs, Layout.document, Layout.block, Layout.entry, Layout.entryTail, hentries,
      writeSegments, List.flatMap_append, List.flatMap_cons, List.append_assoc, Markup.write,
      List.cons_append]
    exact ⟨_, rfl⟩
  rw [hbs, List.flatMap_append, List.flatMap_cons, Block.supplied, hentries, List.map_cons,
    hvalue] at hread
  exact hpass.reads_self hok (hbody.trans hrest) hread

def requestTag : Tag :=
  tagOf "Request" [("xmlns", "urn:oasis:names:tc:xacml:3.0:core:schema:wd-17".toList),
    ("CombinedDecision", "false".toList), ("ReturnPolicyIdList", "false".toList)]

def attributesTag (category : Text) : Tag := tagOf "Attributes" [("Category", category)]

def valueTag (dataType : Text) : Tag := tagOf "AttributeValue" [("DataType", dataType)]

theorem false_plain : ∀ c ∈ "false".toList, isPlain c = true := forall_toList (by decide)

theorem requestTag_plain : requestTag.Plain := by
  refine tagOf_cons_plain (isName_toList (by decide)) (forall_toList (by decide)) (by simp) ?_
  refine tagOf_cons_plain (isName_toList (by decide)) false_plain (by simp) ?_
  refine tagOf_cons_plain (isName_toList (by decide)) false_plain (by simp) ?_
  exact tagOf_nil_plain (isName_toList (by decide))

theorem requestTag_isRoot : xacml3.root requestTag = true := by
  simp only [xacml3, requestTag, attr_tagOf]
  rfl

theorem attributesTag_plain {category : Text} (h : ∀ c ∈ category, isPlain c = true) :
    (attributesTag category).Plain :=
  tagOf_cons_plain (isName_toList (by decide)) h (by simp)
    (tagOf_nil_plain (isName_toList (by decide)))

theorem valueTag_name (d : Text) : (valueTag d).name = "AttributeValue".toList := rfl

theorem valueTag_plain {d : Text} (h : ∀ c ∈ d, isPlain c = true) : (valueTag d).Plain :=
  tagOf_cons_plain (isName_toList (by decide)) h (by simp)
    (tagOf_nil_plain (isName_toList (by decide)))

theorem xsString_plain : ∀ c ∈ xsString.toList, isPlain c = true := forall_toList (by decide)

theorem xacml3_group (category : Text) : xacml3.group (attributesTag category) = some category := by
  simp only [xacml3, attributesTag, attr_tagOf]
  rfl

theorem requestLine :
    "<Request xmlns=\"urn:oasis:names:tc:xacml:3.0:core:schema:wd-17\" CombinedDecision=\"false\" ReturnPolicyIdList=\"false\">\n".toList = startLine requestTag := by
  simp only [startLine, requestTag, tagOf, List.map_cons, List.map_nil]
  repeat rw [String.toList_ofList]
  rfl

theorem stringValueTag :
    "<AttributeValue DataType=\"http://www.w3.org/2001/XMLSchema#string\">".toList =
      (Markup.start (valueTag xsString.toList)).write := by
  simp only [valueTag, xsString, tagOf, List.map_cons, List.map_nil]
  repeat rw [String.toList_ofList]
  rfl

theorem integerValueTag :
    "<AttributeValue DataType=\"http://www.w3.org/2001/XMLSchema#integer\">".toList =
      (Markup.start (valueTag xsInteger.toList)).write := by
  simp only [valueTag, xsInteger, tagOf, List.map_cons, List.map_nil]
  repeat rw [String.toList_ofList]
  rfl

theorem valueStopLine : "</AttributeValue>\n".toList = stopLine "AttributeValue" := by
  rw [stopLine]
  repeat rw [String.toList_ofList]
  rfl

theorem attributeStopLine : "</Attribute>\n".toList = stopLine "Attribute" := by
  rw [stopLine]
  repeat rw [String.toList_ofList]
  rfl

theorem attributesStopLine : "</Attributes>\n".toList = stopLine "Attributes" := by
  rw [stopLine]
  repeat rw [String.toList_ofList]
  rfl

theorem requestStopTag : "</Request>".toList = (Markup.stop "Request".toList).write := by
  repeat rw [String.toList_ofList]
  rfl

end AbacMiddleLayer.Context
