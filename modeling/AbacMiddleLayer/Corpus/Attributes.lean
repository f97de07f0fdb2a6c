import AbacMiddleLayer.Text
import AbacMiddleLayer.Xacml.Policy

/-! # The canonical attributes

The eleven attributes of `benchmark/docs/semantic-mapping.md`: category,
identifier and data type of each. Every engine's adapter reproduces this table.
-/
namespace AbacMiddleLayer.Corpus
open Xacml

inductive Category where
  | subject
  | resource
  | action
  | environment
deriving DecidableEq, Repr

/-- The category identifiers of a version 3.0 request. -/
def Category.urn : Category → String
  | .subject => "urn:oasis:names:tc:xacml:1.0:subject-category:access-subject"
  | .resource => "urn:oasis:names:tc:xacml:3.0:attribute-category:resource"
  | .action => "urn:oasis:names:tc:xacml:3.0:attribute-category:action"
  | .environment => "urn:oasis:names:tc:xacml:3.0:attribute-category:environment"

inductive Attribute where
  | subjectId
  | subjectRole
  | subjectDepartment
  | subjectClearance
  | resourceId
  | resourceOwner
  | resourceDepartment
  | resourceClassification
  | action
  | envNetwork
  | envHour
deriving DecidableEq, Repr

namespace Attribute

def category : Attribute → Category
  | subjectId | subjectRole | subjectDepartment | subjectClearance => .subject
  | resourceId | resourceOwner | resourceDepartment | resourceClassification => .resource
  | action => .action
  | envNetwork | envHour => .environment

def urn : Attribute → String
  | subjectId => "urn:oasis:names:tc:xacml:1.0:subject:subject-id"
  | subjectRole => "urn:uoa:canvas:subject:role"
  | subjectDepartment => "urn:uoa:canvas:subject:department"
  | subjectClearance => "urn:uoa:canvas:subject:clearance"
  | resourceId => "urn:oasis:names:tc:xacml:1.0:resource:resource-id"
  | resourceOwner => "urn:uoa:canvas:resource:owner"
  | resourceDepartment => "urn:uoa:canvas:resource:department"
  | resourceClassification => "urn:uoa:canvas:resource:classification"
  | action => "urn:oasis:names:tc:xacml:1.0:action:action-id"
  | envNetwork => "urn:uoa:canvas:environment:network"
  | envHour => "urn:uoa:canvas:environment:hour"

def dataType : Attribute → DataType
  | subjectClearance | resourceClassification | envHour => .integer
  | _ => .string

end Attribute

/-- What an attribute may hold, with numbers as a program has them. -/
inductive Field (N : Type) where
  | text (s : Text)
  | number (n : N)
deriving DecidableEq, Repr

/-- The arguments that every builder of requests takes, `none` for one that is missing. -/
structure Arguments (N : Type) where
  subjectId : Option Text
  subjectRole : Option Text
  subjectDepartment : Option Text
  subjectClearance : Option N
  resourceId : Option Text
  resourceOwner : Option Text
  resourceDepartment : Option Text
  resourceClassification : Option N
  action : Option Text
  envNetwork : Option Text
  envHour : Option N

def Arguments.get {N : Type} (x : Arguments N) : Attribute → Option (Field N)
  | .subjectId => x.subjectId.map .text
  | .subjectRole => x.subjectRole.map .text
  | .subjectDepartment => x.subjectDepartment.map .text
  | .subjectClearance => x.subjectClearance.map .number
  | .resourceId => x.resourceId.map .text
  | .resourceOwner => x.resourceOwner.map .text
  | .resourceDepartment => x.resourceDepartment.map .text
  | .resourceClassification => x.resourceClassification.map .number
  | .action => x.action.map .text
  | .envNetwork => x.envNetwork.map .text
  | .envHour => x.envHour.map .number

/-- Every canonical attribute is present under its own data type. -/
def AllPresent (r : Request Attribute) : Prop := ∀ a : Attribute, (r a.dataType a).isSome

/-- The attribute is designated under its own data type. -/
def WellTyped (d : DataType) (a : Attribute) : Prop := d = a.dataType

instance (d : DataType) (a : Attribute) : Decidable (WellTyped d a) :=
  inferInstanceAs (Decidable (d = a.dataType))

theorem AllPresent.isSome {r : Request Attribute} (h : AllPresent r) {d : DataType} {a : Attribute}
    (hd : WellTyped d a) : (r d a).isSome := by
  obtain rfl : d = a.dataType := hd
  exact h a

end AbacMiddleLayer.Corpus
