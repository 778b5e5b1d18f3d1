import FirebirdSchema.Model.Primitive

/-!
# Faults

The reasons for which a schema has no script.  A fault can be attributed to the
entity set or the relationship set in which it was found; `Fault.root` forgets
every attribution.
-/

namespace FirebirdSchema

/-- A reason for which a schema has no script. -/
inductive Fault
  /-- An entity set without key members. -/
  | missingKey
  /-- A key member that is not the name of a property. -/
  | unknownKeyMember (member : String)
  /-- A relationship end that is bound to no entity set of the schema. -/
  | unknownEntitySet (name : String)
  /-- A relationship whose number of referential constraints is not one. -/
  | constraintCount (found : Nat)
  /-- A constraint that names a role without an end. -/
  | unknownRole (role : String)
  /-- A constraint that pairs lists of different lengths. -/
  | constraintArity (principal dependent : Nat)
  /-- A primitive type that the dialect does not support. -/
  | unsupportedKind (kind : PrimitiveKind)
  /-- Facets that the dialect cannot give to a primitive type. -/
  | invalidFacets (kind : PrimitiveKind) (reason : String)
  /-- An identifier without characters. -/
  | emptyIdentifier
  /-- An identifier over the limit of the server. -/
  | identifierTooLong (name : String) (limit : Nat)
  /-- A fault found in an entity set. -/
  | inEntitySet (name : String) (cause : Fault)
  /-- A fault found in a relationship set. -/
  | inRelationshipSet (name : String) (cause : Fault)
  deriving DecidableEq

namespace Fault

/-- The text that reports a fault. -/
def message : Fault → String
  | missingKey => "No key members declared"
  | unknownKeyMember member =>
    "Key member '" ++ member ++ "' is not a declared property"
  | unknownEntitySet name => "Unknown entity set: " ++ name
  | constraintCount found =>
    "Expected exactly one referential constraint (found " ++
      toString found ++ ")"
  | unknownRole role => "No association end for role '" ++ role ++ "'"
  | constraintArity principal dependent =>
    "Referential constraint maps " ++ toString principal ++
      " principal columns to " ++
      toString dependent ++ " dependent columns"
  | unsupportedKind kind =>
    "Primitive type " ++ Text.Named.name kind ++
      " is not supported by this dialect"
  | invalidFacets kind reason =>
    "Invalid facets for " ++ Text.Named.name kind ++ ": " ++ reason
  | emptyIdentifier => "Cannot quote an empty identifier"
  | identifierTooLong name limit =>
    "Identifier '" ++ name ++ "' exceeds the maximum length of " ++
      toString limit
  | inEntitySet name cause => "Entity set '" ++ name ++ "': " ++ cause.message
  | inRelationshipSet name cause =>
    "Relationship set '" ++ name ++ "': " ++ cause.message

/-- The fault that an attribution is about. -/
def cause? : Fault → Option Fault
  | inEntitySet _ cause => some cause
  | inRelationshipSet _ cause => some cause
  | _ => none

/-- The fault behind every attribution. -/
def root : Fault → Fault
  | inEntitySet _ cause => cause.root
  | inRelationshipSet _ cause => cause.root
  | fault => fault

/-- The faults behind the outermost attribution, the second outermost, and so
on. -/
def causes : Fault → List Fault
  | inEntitySet _ cause => cause :: cause.causes
  | inRelationshipSet _ cause => cause :: cause.causes
  | _ => []

/-- Whether a fault is attributed to a set. -/
def IsAttributed (fault : Fault) : Prop :=
  fault.cause?.isSome

instance (fault : Fault) : Decidable fault.IsAttributed :=
  inferInstanceAs (Decidable (fault.cause?.isSome = true))

@[simp] theorem root_inEntitySet (name : String) (cause : Fault) :
    (inEntitySet name cause).root = cause.root := rfl

@[simp] theorem root_inRelationshipSet (name : String) (cause : Fault) :
    (inRelationshipSet name cause).root = cause.root := rfl

theorem not_isAttributed_root (fault : Fault) : ¬fault.root.IsAttributed := by
  induction fault with
  | inEntitySet name cause ih => exact ih
  | inRelationshipSet name cause ih => exact ih
  | _ => simp [root, IsAttributed, cause?]

/-- A fault that is attributed to no set is its own root. -/
theorem root_eq_self {fault : Fault} (h : fault.cause? = none) :
    fault.root = fault := by
  cases fault with
  | inEntitySet name cause => cases h
  | inRelationshipSet name cause => cases h
  | _ => rfl

/-- A fault that is attributed to no set has no cause behind it. -/
theorem causes_eq_nil {fault : Fault} (h : fault.cause? = none) :
    fault.causes = [] := by
  cases fault with
  | inEntitySet name cause => cases h
  | inRelationshipSet name cause => cases h
  | _ => rfl

end Fault

end FirebirdSchema
