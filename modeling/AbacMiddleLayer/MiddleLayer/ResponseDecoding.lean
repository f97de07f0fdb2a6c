import AbacMiddleLayer.MiddleLayer.CanonicalDecision

/-! # Decoding a response

The end of `Check_ABAC_Permission` and `decisionToString`: the string that the decision
point returns is parsed, read as a response, and reduced to a Boolean or to the name of a
decision. Both catch `ParsingException` only, and an unparsable string is passed on as a
`null` element, which `ResponseCtx.getInstance` dereferences.
-/
namespace AbacMiddleLayer.MiddleLayer
open Xacml Xml Context Corpus

/-- The decisions of `AbstractResult`. -/
inductive ResultDecision where
  | permit
  | deny
  | indeterminate
  | notApplicable
  | indeterminateDeny
  | indeterminatePermit
  | indeterminateDenyOrPermit
deriving DecidableEq, Repr

/-- A valid response: its results in the order in which `getResults` gives them, at least one. -/
structure ResponseCtx where
  results : List ResultDecision
  nonempty : results ≠ []

def ResponseCtx.first (ctx : ResponseCtx) : ResultDecision := ctx.results.head ctx.nonempty

/-- The libraries that the decoding calls, on any type of elements. -/
structure Library (E : Type*) where
  /-- The root element of a document; `none` is an exception of the parser. -/
  parse : Text → Option E
  /-- The response that an element is, if it is a valid one. -/
  response : E → Option ResponseCtx

inductive Throwable where
  | parsingException
  | nullPointerException
deriving DecidableEq, Repr

/-- A handler for `ParsingException`; every other exception passes. -/
def catchParsing {α : Type*} (handled : α) : Except Throwable α → Except Throwable α
  | .error .parsingException => .ok handled
  | result => result

section Decoding
variable {E : Type*} (L : Library E)

/-- The root element, or `null` when the parser throws. -/
def getXacmlResponse (response : Text) : Option E := L.parse response

/-- `ResponseCtx.getInstance` dereferences its argument. -/
def getInstance : Option E → Except Throwable ResponseCtx
  | none => .error .nullPointerException
  | some root =>
    match L.response root with
    | none => .error .parsingException
    | some ctx => .ok ctx

/-- The decoding in `Check_ABAC_Permission`. -/
def decodePermission (response : Text) : Except Throwable Bool :=
  catchParsing false do
    let responseCtx ← getInstance L (getXacmlResponse L response)
    if responseCtx.first = .permit then return true else return false

/-- The method `decisionToString` on the string itself. -/
def decodeDecision (response : Text) : Except Throwable String :=
  catchParsing "Indeterminate" do
    let responseCtx ← getInstance L (getXacmlResponse L response)
    let decision := responseCtx.first
    if decision = .permit then return "Permit"
    else if decision = .deny then return "Deny"
    else if decision = .notApplicable then return "NotApplicable"
    else return "Indeterminate"

/-- `Check_ABAC_Permission` with the decision point it asks. -/
def checkAbacPermission (pdp : Text → Text) (name action uri : Text) : Except Throwable Bool :=
  decodePermission L (pdp (createXACMLRequest name action uri))

/-- `Evaluate_ABAC_Decision` with the decision point it asks. -/
def evaluateAbacResponse (pdp : Text → Text) (x : Arguments ℤ) : Except Throwable String :=
  decodeDecision L (pdp (createCanonicalXACMLRequest x))

/-- The response that a string is: it parses, and its root is a valid response. -/
def responseOf (response : Text) : Option ResponseCtx := (L.parse response).bind L.response

variable {L} {response : Text}

theorem getInstance_of_unparsable (h : L.parse response = none) :
    getInstance L (getXacmlResponse L response) = .error .nullPointerException := by
  rw [getXacmlResponse, h, getInstance]

theorem getInstance_of_invalid (h : L.parse response ≠ none) (h' : responseOf L response = none) :
    getInstance L (getXacmlResponse L response) = .error .parsingException := by
  obtain ⟨root, hroot⟩ := Option.ne_none_iff_exists'.mp h
  rw [responseOf, hroot, Option.bind_some] at h'
  simp only [getXacmlResponse, hroot, getInstance, h']

theorem getInstance_of_valid {ctx : ResponseCtx} (h : responseOf L response = some ctx) :
    getInstance L (getXacmlResponse L response) = .ok ctx := by
  obtain ⟨root, hroot, hctx⟩ := Option.bind_eq_some_iff.mp h
  simp only [getXacmlResponse, hroot, getInstance, hctx]

/-- An unparsable string ends both decodings with the exception that nothing catches. -/
theorem decode_of_unparsable (h : L.parse response = none) :
    decodePermission L response = .error .nullPointerException ∧
      decodeDecision L response = .error .nullPointerException := by
  rw [decodePermission, decodeDecision, getInstance_of_unparsable h]
  exact ⟨rfl, rfl⟩

theorem decode_of_invalid (h : L.parse response ≠ none) (h' : responseOf L response = none) :
    decodePermission L response = .ok false ∧ decodeDecision L response = .ok "Indeterminate" := by
  rw [decodePermission, decodeDecision, getInstance_of_invalid h h']
  exact ⟨rfl, rfl⟩

/-- The four names that a decision is reduced to. -/
def ResultDecision.report : ResultDecision → Decision
  | .permit => .permit
  | .deny => .deny
  | .notApplicable => .notApplicable
  | _ => .indeterminate

theorem decode_of_valid {ctx : ResponseCtx} (h : responseOf L response = some ctx) :
    decodePermission L response = .ok (decide (ctx.first = .permit)) ∧
      decodeDecision L response = .ok (decisionToString ctx.first.report) := by
  rw [decodePermission, decodeDecision, getInstance_of_valid h]
  change catchParsing false (if ctx.first = .permit then .ok true else .ok false) = _ ∧
    catchParsing "Indeterminate" (if ctx.first = .permit then .ok "Permit"
      else if ctx.first = .deny then .ok "Deny"
      else if ctx.first = .notApplicable then .ok "NotApplicable" else .ok "Indeterminate") = _
  cases ctx.first <;> exact ⟨rfl, rfl⟩

/-- Both decodings return, agree on Permit, and take nothing else than a response with a first
result Permit for it; what is no response is denied and Indeterminate. -/
structure Decodes (L : Library E) (response : Text) : Prop where
  returns : ∃ permitted decision,
    decodePermission L response = .ok permitted ∧ decodeDecision L response = .ok decision
  agree : decodePermission L response = .ok true ↔ decodeDecision L response = .ok "Permit"
  permit : decodePermission L response = .ok true ↔
    ∃ ctx, responseOf L response = some ctx ∧ ctx.first = .permit
  invalid : responseOf L response = none →
    decodePermission L response = .ok false ∧ decodeDecision L response = .ok "Indeterminate"

theorem decisionToString_eq_permit_iff (d : ResultDecision) :
    decisionToString d.report = "Permit" ↔ d = .permit := by
  cases d <;> decide

theorem decodes_of_valid {ctx : ResponseCtx} (h : responseOf L response = some ctx) :
    Decodes L response := by
  obtain ⟨hpermission, hdecision⟩ := decode_of_valid h
  have hpermit : decodePermission L response = .ok true ↔ ctx.first = .permit := by
    rw [hpermission, Except.ok.injEq, decide_eq_true_eq]
  constructor
  · exact ⟨_, _, hpermission, hdecision⟩
  · rw [hpermit, hdecision, Except.ok.injEq, decisionToString_eq_permit_iff]
  · rw [hpermit, h]
    constructor
    · exact fun hfirst => ⟨ctx, rfl, hfirst⟩
    · rintro ⟨ctx', hctx, hfirst⟩
      rw [Option.some.inj hctx]
      exact hfirst
  · rw [h]
    exact nofun

theorem decodes_of_invalid (h : L.parse response ≠ none) (h' : responseOf L response = none) :
    Decodes L response := by
  obtain ⟨hpermission, hdecision⟩ := decode_of_invalid h h'
  constructor
  · exact ⟨_, _, hpermission, hdecision⟩
  · rw [hpermission, hdecision]
    simp
  · rw [hpermission, h']
    simp
  · exact fun _ => ⟨hpermission, hdecision⟩

/-- The decodings do what they should exactly on the strings that parse. -/
theorem decodes_iff (L : Library E) (response : Text) :
    Decodes L response ↔ L.parse response ≠ none := by
  constructor
  · intro h hparse
    obtain ⟨permitted, -, hpermission, -⟩ := h.returns
    rw [(decode_of_unparsable hparse).1] at hpermission
    cases hpermission
  · intro h
    cases hresponse : responseOf L response with
    | none => exact decodes_of_invalid h hresponse
    | some ctx => exact decodes_of_valid hresponse

/-- A decision point that answers each request with a valid response for its decision. -/
def Answers (L : Library E) (pdp : Text → Text) (decide : Text → Decision) : Prop :=
  ∀ request, ∃ ctx, responseOf L (pdp request) = some ctx ∧ ctx.first.report = decide request

/-- Behind such a decision point, `Evaluate_ABAC_Decision` returns the name of the decision. -/
theorem evaluateAbacResponse_eq {pdp : Text → Text} {m : OnError}
    {p : Policy (Target Attribute) Attribute} (h : Answers L pdp (evaluate m p)) (x : Arguments ℤ) :
    evaluateAbacResponse L pdp x = .ok (evaluateAbacDecision m p x) := by
  obtain ⟨ctx, hctx, hdecision⟩ := h (createCanonicalXACMLRequest x)
  rw [evaluateAbacResponse, (decode_of_valid hctx).2, hdecision]
  rfl

/-- And `Check_ABAC_Permission` returns whether the decision is Permit. -/
theorem checkAbacPermission_eq {pdp : Text → Text} {decision : Text → Decision}
    (h : Answers L pdp decision) (name action uri : Text) :
    checkAbacPermission L pdp name action uri =
      .ok (decide (decision (createXACMLRequest name action uri) = .permit)) := by
  obtain ⟨ctx, hctx, hdecision⟩ := h (createXACMLRequest name action uri)
  rw [checkAbacPermission, (decode_of_valid hctx).1, ← hdecision]
  cases ctx.first <;> rfl

end Decoding

inductive Element where
  | node (tag : Tag) (text : Text) (children : List Element)

def Element.name : Element → Text
  | .node tag _ _ => tag.name

def Element.text : Element → Text
  | .node _ text _ => text

/-- An element whose end tag is still to come. -/
structure Frame where
  tag : Tag
  text : Text := []
  children : List Element := []

def Frame.element (f : Frame) : Element := .node f.tag f.text f.children

def isWhite : Token → Bool
  | .text s => s.all isSpace
  | .markup _ => false

/-- The root element, from the elements that are open, the innermost first. -/
def root : List Frame → List Token → Option Element
  | [], .text s :: ts => if s.all isSpace then root [] ts else none
  | fs, .markup (.start tag) :: ts => root ({ tag := tag } :: fs) ts
  | f :: fs, .text s :: ts => root ({ f with text := f.text ++ s } :: fs) ts
  | [f], .markup (.stop name) :: ts =>
    if name = f.tag.name ∧ ts.all isWhite then some f.element else none
  | f :: g :: fs, .markup (.stop name) :: ts =>
    if name = f.tag.name then root ({ g with children := g.children ++ [f.element] } :: fs) ts
    else none
  | _, _ => none

def document (s : Text) : Option Element := (tokens s).bind (root [])

def resultDecision (s : Text) : Option ResultDecision :=
  if s = "Permit".toList then some .permit
  else if s = "Deny".toList then some .deny
  else if s = "Indeterminate".toList then some .indeterminate
  else if s = "NotApplicable".toList then some .notApplicable
  else none

/-- The decision of a `Result`, which has one `Decision`. -/
def resultOf : Element → Option ResultDecision
  | .node _ _ children =>
    match children.filter fun e => e.name = "Decision".toList with
    | [decision] => resultDecision decision.text
    | _ => none

def validResponse : Element → Option ResponseCtx
  | .node tag _ children =>
    if tag.name = "Response".toList ∧
        attr tag "xmlns" = some "urn:oasis:names:tc:xacml:3.0:core:schema:wd-17".toList then do
      let results ← (children.filter fun e => e.name = "Result".toList).mapM resultOf
      if h : results ≠ [] then some ⟨results, h⟩ else none
    else none

/-- Documents without comments, CDATA sections and prefixes. -/
def plainLibrary : Library Element where
  parse := document
  response := validResponse

example : decodePermission plainLibrary
    "<Response xmlns=\"urn:oasis:names:tc:xacml:3.0:core:schema:wd-17\"><Result><Decision>Permit</Decision></Result></Response>".toList =
      .ok true := by
  decide +kernel

/-- The empty string does not parse, and both decodings end with an exception. -/
theorem empty_response_throws :
    decodePermission plainLibrary [] = .error .nullPointerException ∧
      decodeDecision plainLibrary [] = .error .nullPointerException ∧
      ¬ Decodes plainLibrary [] := by
  have hparse : plainLibrary.parse [] = none := rfl
  obtain ⟨hpermission, hdecision⟩ := decode_of_unparsable hparse
  refine ⟨hpermission, hdecision, fun h => ?_⟩
  obtain ⟨permitted, -, hreturns, -⟩ := h.returns
  rw [hpermission] at hreturns
  cases hreturns

end AbacMiddleLayer.MiddleLayer
