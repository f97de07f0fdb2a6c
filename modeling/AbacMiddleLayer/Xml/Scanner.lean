import AbacMiddleLayer.Xml.References

/-! # A scanner for elements and text

A document is cut into text and markup, one text between any two tags. Comments,
CDATA sections, processing instructions and document type declarations are outside
of this fragment and refused; an XML declaration in front is skipped.
-/
namespace AbacMiddleLayer.Xml

structure Tag where
  name : Text
  attrs : List (Text × Text) := []
deriving DecidableEq, Repr

inductive Markup where
  | start (tag : Tag)
  | stop (name : Text)
deriving DecidableEq, Repr

inductive Token where
  | text (s : Text)
  | markup (m : Markup)
deriving DecidableEq, Repr

inductive Mode where
  | text
  | tag
  | quoted (q : Char)
deriving DecidableEq, Repr

/-- A piece of the document: text, or what stands between `<` and `>`. -/
inductive Raw where
  | text (s : Text)
  | tag (body : Text)
deriving DecidableEq, Repr

abbrev ScanState := List Raw × Mode × Text

def emit (r : Raw) (s : ScanState) : ScanState := (r :: s.1, s.2)

/-- The pieces completed, and the mode and the piece under way at the end. -/
def scanLoop : Mode → Text → Text → Option ScanState
  | m, piece, [] => some ([], m, piece)
  | .text, piece, c :: cs =>
    if c = '<' then (scanLoop .tag [] cs).map (emit (.text piece))
    else scanLoop .text (piece ++ [c]) cs
  | .tag, piece, c :: cs =>
    if c = '>' then (scanLoop .text [] cs).map (emit (.tag piece))
    else if c = '<' then none
    else if c = '"' ∨ c = '\'' then scanLoop (.quoted c) (piece ++ [c]) cs
    else scanLoop .tag (piece ++ [c]) cs
  | .quoted q, piece, c :: cs =>
    if c = '<' then none
    else if c = q then scanLoop .tag (piece ++ [c]) cs
    else scanLoop (.quoted q) (piece ++ [c]) cs

def isSpace (c : Char) : Bool := c = ' ' || c = '\t' || c = '\n' || c = '\r'

/-- Outside of ASCII every character is taken for a letter. -/
def isNameStart (c : Char) : Bool :=
  isXmlChar c && (c.isAlpha || c = '_' || c = ':' || 0x80 ≤ c.toNat)

def isNameChar (c : Char) : Bool :=
  isNameStart c || (isXmlChar c && (c.isDigit || c = '-' || c = '.'))

inductive AttrMode where
  | gap (space : Bool)
  | name (n : Text)
  | equals (n : Text)
  | value (n : Text)
  | quoted (n : Text) (q : Char) (v : Text)

/-- An attribute's value: references are replaced, white space is turned into blanks. -/
def attrValue (v : Text) : Option Text := decode (v.map fun c => if isSpace c then ' ' else c)

/-- The attributes of a tag. -/
def attrLoop : AttrMode → Text → Option (List (Text × Text))
  | .gap _, [] => some []
  | _, [] => none
  | .gap space, c :: cs =>
    if isSpace c then attrLoop (.gap true) cs
    else if space && isNameStart c then attrLoop (.name [c]) cs
    else none
  | .name n, c :: cs =>
    if c = '=' then attrLoop (.value n) cs
    else if isSpace c then attrLoop (.equals n) cs
    else if isNameChar c then attrLoop (.name (n ++ [c])) cs
    else none
  | .equals n, c :: cs =>
    if c = '=' then attrLoop (.value n) cs
    else if isSpace c then attrLoop (.equals n) cs
    else none
  | .value n, c :: cs =>
    if isSpace c then attrLoop (.value n) cs
    else if c = '"' ∨ c = '\'' then attrLoop (.quoted n c []) cs
    else none
  | .quoted n q v, c :: cs =>
    if c = q then (attrValue v).bind fun value => (attrLoop (.gap false) cs).map ((n, value) :: ·)
    else attrLoop (.quoted n q (v ++ [c])) cs

def isName : Text → Bool
  | [] => false
  | c :: cs => isNameStart c && cs.all isNameChar

/-- Name and attributes of a start tag, no attribute twice. -/
def startTag (body : Text) : Option Tag :=
  let name := body.takeWhile isNameChar
  if isName name then
    ((attrLoop (.gap false) (body.dropWhile isNameChar)).map (Tag.mk name)).filter fun tag =>
      decide (tag.attrs.map Prod.fst).Nodup
  else none

/-- The tokens of what stands between `<` and `>`; an empty-element tag is a start tag, no
text, and an end tag. -/
def tagTokens : Text → Option (List Token)
  | '/' :: body =>
    let name := body.takeWhile isNameChar
    if isName name && (body.dropWhile isNameChar).all isSpace then some [.markup (.stop name)]
    else none
  | body =>
    if body.getLast? = some '/' then
      (startTag body.dropLast).map fun tag =>
        [.markup (.start tag), .text [], .markup (.stop tag.name)]
    else (startTag body).map fun tag => [.markup (.start tag)]

/-- The character sequence that ends a CDATA section, which text must not contain. -/
def hasCdataEnd : Text → Bool
  | ']' :: ']' :: '>' :: _ => true
  | _ :: cs => hasCdataEnd cs
  | [] => false

def rawTokens : Raw → Option (List Token)
  | .text s => if hasCdataEnd s then none else (decode s).map fun t => [.text t]
  | .tag body => tagTokens body

def tokenize : List Raw → Option (List Token)
  | [] => some []
  | r :: rs => (rawTokens r).bind fun ts => (tokenize rs).map (ts ++ ·)

/-- The rest of an XML declaration is dropped. -/
def dropDeclaration : Text → Text
  | '?' :: '>' :: cs => cs
  | _ :: cs => dropDeclaration cs
  | [] => []

/-- A document without its XML declaration. -/
def body : Text → Text
  | '<' :: '?' :: 'x' :: 'm' :: 'l' :: cs => dropDeclaration cs
  | doc => doc

/-- The tokens of a document without XML declaration. -/
def bodyTokens (doc : Text) : Option (List Token) :=
  if (normalizeLineEnds doc).all isXmlChar then
    match scanLoop .text [] (normalizeLineEnds doc) with
    | some (raws, .text, last) => tokenize (raws ++ [.text last])
    | _ => none
  else none

/-- The tokens of a document. -/
def tokens (doc : Text) : Option (List Token) := bodyTokens (body doc)

end AbacMiddleLayer.Xml
