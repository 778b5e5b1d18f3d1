import FirebirdSchema.Proofs.Traversal
import FirebirdSchema.Server.Firebird

/-!
# The faults of a Firebird dialect

A Firebird server finds fault with names and with types, and with nothing
else.  Its faults are attributed to no set and mention neither roles nor
entity sets.
-/

namespace FirebirdSchema

open Traversal

/-- A fault that a server finds with a name or with a type. -/
inductive Fault.IsOfServer : Fault → Prop
  | emptyIdentifier : IsOfServer .emptyIdentifier
  | identifierTooLong (name : String) (limit : Nat) :
      IsOfServer (.identifierTooLong name limit)
  | unsupportedKind (kind : PrimitiveKind) : IsOfServer (.unsupportedKind kind)
  | invalidFacets (kind : PrimitiveKind) (reason : String) :
      IsOfServer (.invalidFacets kind reason)

namespace Firebird

theorem faultsIn_quote (f : Firebird) (name : String) :
    FaultsIn Fault.IsOfServer (f.dialect.quote name) := by
  simp only [dialect, quote]
  split
  · exact .error .emptyIdentifier
  · split
    · exact .error (.identifierTooLong _ _)
    · exact .ok _

theorem faultsIn_decimalType (f : Firebird) (facets : Facets) :
    FaultsIn Fault.IsOfServer (f.decimalType facets) := by
  simp only [decimalType]
  split
  · exact .error (.invalidFacets _ _)
  · split
    · exact .error (.invalidFacets _ _)
    · exact .ok _

theorem faultsIn_columnType
    (f : Firebird) (kind : PrimitiveKind) (facets : Facets) :
    FaultsIn Fault.IsOfServer (f.dialect.columnType kind facets) := by
  have htype : FaultsIn Fault.IsOfServer (f.columnType kind facets) := by
    cases kind with
    | decimal => exact f.faultsIn_decimalType facets
    | dateTimeOffset =>
        simp only [columnType]
        split
        · exact .ok _
        · exact .error (.unsupportedKind _)
    | _ => exact .ok _
  intro fault h
  exact htype fault (map_eq_error_iff.mp h)

end Firebird

end FirebirdSchema
