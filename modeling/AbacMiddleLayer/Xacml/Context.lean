import AbacMiddleLayer.Xml.Segments

/-! # Request documents

A request context is read token by token: a root element, groups of attributes under
a category, attributes with an identifier, and values. Versions 3.0 and 2.0 differ in
the elements that open a group and in where the data type stands; both deliver the same
kind of attribute. Comments, `Content` and `ResourceContent` are outside of this fragment.
-/
namespace AbacMiddleLayer.Context
open Xml

/-- An attribute value as the request delivers it to the decision point. -/
structure Supplied where
  category : Text
  id : Text
  dataType : Text
  value : Text
deriving DecidableEq, Repr

def attr (tag : Tag) (name : String) : Option Text := tag.attrs.lookup name.toList

/-- A tag whose names are literals of a program. -/
def tagOf (name : String) (attrs : List (String × Text)) : Tag :=
  ⟨name.toList, attrs.map fun a => (a.1.toList, a.2)⟩

theorem attr_tagOf (name key : String) (attrs : List (String × Text)) :
    attr (tagOf name attrs) key = attrs.lookup key :=
  lookup_toList attrs key

theorem isName_toList {l : List Char} (h : isName l = true) :
    isName (String.ofList l).toList = true := by
  rw [String.toList_ofList]
  exact h

theorem tagOf_nil_plain {name : String} (hname : isName name.toList = true) :
    (tagOf name []).Plain where
  name := hname
  attrs := nofun
  nodup := List.nodup_nil

theorem tagOf_cons_plain {name key : String} {value : Text} {attrs : List (String × Text)}
    (hkey : isName key.toList = true) (hvalue : ∀ c ∈ value, isPlain c = true)
    (hnew : key ∉ attrs.map Prod.fst) (h : (tagOf name attrs).Plain) :
    (tagOf name ((key, value) :: attrs)).Plain where
  name := h.name
  attrs := List.forall_mem_cons.mpr ⟨⟨hkey, hvalue⟩, h.attrs⟩
  nodup := by
    refine List.nodup_cons.mpr ⟨fun hmem => hnew ?_, h.nodup⟩
    obtain ⟨b, hb, hkey⟩ := List.mem_map.mp hmem
    obtain ⟨a, ha, rfl⟩ := List.mem_map.mp hb
    exact List.mem_map.mpr ⟨a, ha, String.toList_injective hkey⟩

/-- What distinguishes the versions of the request document. -/
structure Format where
  root : Tag → Bool
  /-- The category under which an element groups attributes. -/
  group : Tag → Option Text
  /-- The data type of a value, from the tags of the attribute and of the value. -/
  dataType : Tag → Tag → Option Text

structure Group where
  element : Text
  category : Text
deriving DecidableEq, Repr

/-- Where in the document the reader is. -/
inductive Place where
  | outside
  | request
  | group (g : Group)
  | attribute (g : Group) (id : Text) (tag : Tag)
  | value (g : Group) (id : Text) (tag : Tag) (dataType : Text)
  | afterValue (g : Group) (id : Text) (tag : Tag)
  | after
deriving DecidableEq, Repr

namespace Format

variable (F : Format)

def start (tag : Tag) : Place → Option Place
  | .outside => if F.root tag then some .request else none
  | .request => (F.group tag).map fun category => .group ⟨tag.name, category⟩
  | .group g =>
    if tag.name = "Attribute".toList then (attr tag "AttributeId").map fun id => .attribute g id tag
    else none
  | .attribute g id owner =>
    if tag.name = "AttributeValue".toList then
      (F.dataType owner tag).map fun d => .value g id owner d
    else none
  | _ => none

def stop (name : Text) : Place → Option Place
  | .request => if name = "Request".toList then some .after else none
  | .group g => if name = g.element then some .request else none
  | .attribute g _ _ => if name = "Attribute".toList then some (.group g) else none
  | .afterValue g id tag =>
    if name = "AttributeValue".toList then some (.attribute g id tag) else none
  | _ => none

/-- Text is a value inside of an `AttributeValue`, and only white space elsewhere. -/
def text (s : Text) : Place → Option (Place × List Supplied)
  | .value g id tag d => some (.afterValue g id tag, [⟨g.category, id, d, s⟩])
  | p => if s.all isSpace then some (p, []) else none

def step (p : Place) : Token → Option (Place × List Supplied)
  | .text s => text s p
  | .markup (.start tag) => (F.start tag p).map fun q => (q, [])
  | .markup (.stop name) => (stop name p).map fun q => (q, [])

/-- The attributes that the tokens deliver from a place to the end of the document. -/
def readLoop : Place → List Token → Option (List Supplied)
  | p, [] => if p = .after then some [] else none
  | p, t :: ts => (F.step p t).bind fun r => (readLoop r.1 ts).map (r.2 ++ ·)

/-- The attributes that a document delivers. -/
def read (doc : Text) : Option (List Supplied) := (tokens doc).bind (F.readLoop .outside)

/-- Reading `ts` leads from one place to another and delivers `out`. -/
def Passes (p : Place) (ts : List Token) (q : Place) (out : List Supplied) : Prop :=
  ∀ rest, F.readLoop p (ts ++ rest) = (F.readLoop q rest).map (out ++ ·)

variable {F} {p q r : Place} {ts us : List Token} {out more : List Supplied}

theorem passes_nil : F.Passes p [] p [] := by
  intro rest
  cases h : F.readLoop p rest <;> simp [h]

theorem Passes.append (h : F.Passes p ts q out) (h' : F.Passes q us r more) :
    F.Passes p (ts ++ us) r (out ++ more) := by
  intro rest
  rw [List.append_assoc, h, h', Option.map_map]
  congr 1
  funext l
  simp

theorem passes_step {t : Token} (h : F.step p t = some (q, out)) : F.Passes p [t] q out := by
  intro rest
  rw [List.singleton_append, readLoop, h]
  rfl

theorem Passes.read {s : Text} {doc : Text} (h : F.Passes .outside ts .after out)
    (hs : s.all isSpace = true) (hdoc : tokens doc = some (ts ++ [.text s])) :
    F.read doc = some out := by
  rw [Format.read, hdoc, Option.bind_some, h]
  simp [readLoop, step, text, hs]

/-- What stands first in a value is delivered right after what was delivered before. -/
theorem Passes.value_first {g : Group} {id : Text} {tag : Tag} {d s : Text} {all : List Supplied}
    (h : F.Passes p ts (.value g id tag d) out)
    (hread : F.readLoop p (ts ++ .text s :: us) = some all) :
    ∃ others, all = out ++ ⟨g.category, id, d, s⟩ :: others := by
  rw [h] at hread
  simp only [readLoop, step, text, Option.bind_some, Option.map_map, Option.map_eq_some_iff,
    Function.comp_apply] at hread
  obtain ⟨others, -, rfl⟩ := hread
  exact ⟨others, rfl⟩

/-- The part of a text before its first tag, the tag that follows the text at the latest. -/
theorem before_first_tag (s rest : Text) :
    ∃ t u rest', '<' ∉ t ∧ s = t ++ u ∧ u ++ '<' :: rest = '<' :: rest' := by
  induction s with
  | nil => exact ⟨[], [], rest, by simp, rfl, rfl⟩
  | cons c cs ih =>
    by_cases hc : c = '<'
    · exact ⟨[], c :: cs, cs ++ '<' :: rest, by simp, rfl, by simp [hc]⟩
    · obtain ⟨t, u, rest', ht, rfl, hrest⟩ := ih
      exact ⟨c :: t, u, rest', by simp [Ne.symm hc, ht], rfl, hrest⟩

/-- A text that is written into a value and delivered as it is has no markup and no
references: the part before its first tag would be too short to say the whole. -/
theorem Passes.reads_self {segs : List Segment} (hok : ∀ s ∈ segs, s.Ok) {g : Group} {id d : Text}
    {tag : Tag} (hpass : F.Passes .outside (segmentTokens segs) (.value g id tag d) out)
    {doc s rest : Text} (hbody : body doc = writeSegments segs ++ (s ++ '<' :: rest))
    (hread : F.read doc = some (out ++ ⟨g.category, id, d, s⟩ :: more)) : Reads s s := by
  obtain ⟨t, u, rest', ht, rfl, hrest⟩ := before_first_tag s rest
  obtain ⟨ts, hts, hloop⟩ := Option.bind_eq_some_iff.mp hread
  rw [tokens, hbody, List.append_assoc, hrest] at hts
  obtain ⟨value, others, hreads, rfl⟩ := bodyTokens_after hok ht hts
  obtain ⟨later, hlater⟩ := hpass.value_first hloop
  obtain rfl : value = t ++ u := by
    simpa using (List.cons.inj (List.append_cancel_left hlater)).1.symm
  have hlength := readText_length_le hreads.value
  obtain rfl : u = [] := by
    rw [List.length_append] at hlength
    exact List.eq_nil_of_length_eq_zero (by omega)
  simpa using hreads

end Format

def accessSubject : String := "urn:oasis:names:tc:xacml:1.0:subject-category:access-subject"

def resourceCategory : String := "urn:oasis:names:tc:xacml:3.0:attribute-category:resource"

def actionCategory : String := "urn:oasis:names:tc:xacml:3.0:attribute-category:action"

def environmentCategory : String := "urn:oasis:names:tc:xacml:3.0:attribute-category:environment"

def xsString : String := "http://www.w3.org/2001/XMLSchema#string"

def xsInteger : String := "http://www.w3.org/2001/XMLSchema#integer"

def xacml3 : Format where
  root tag := decide (tag.name = "Request".toList ∧
    attr tag "xmlns" = some "urn:oasis:names:tc:xacml:3.0:core:schema:wd-17".toList)
  group tag := if tag.name = "Attributes".toList then attr tag "Category" else none
  dataType _ value := attr value "DataType"

/-- Version 2.0 groups attributes by element; the categories are those version 3.0 names. -/
def xacml2 : Format where
  root tag := decide (tag.name = "Request".toList ∧
    attr tag "xmlns" = some "urn:oasis:names:tc:xacml:2.0:context:schema:os".toList)
  group tag :=
    if tag.name = "Subject".toList then
      some ((attr tag "SubjectCategory").getD accessSubject.toList)
    else if tag.name = "Resource".toList then some resourceCategory.toList
    else if tag.name = "Action".toList then some actionCategory.toList
    else if tag.name = "Environment".toList then some environmentCategory.toList
    else none
  dataType owner _ := attr owner "DataType"

end AbacMiddleLayer.Context
