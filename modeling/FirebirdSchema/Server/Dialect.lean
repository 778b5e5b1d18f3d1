import FirebirdSchema.Fault
import FirebirdSchema.Server.Version

/-!
# Dialects

A dialect says how a server writes identifiers and column types.  A dialect may
be made to refuse some primitive types; it then writes identifiers as before.
-/

namespace FirebirdSchema

/-- How a server writes identifiers and column types, or why it cannot. -/
structure Dialect where
  version : ServerVersion
  /-- The written form of an identifier. -/
  quote : String → Except Fault String
  /-- The text of the column type for a primitive type with facets. -/
  columnType : PrimitiveKind → Facets → Except Fault String

namespace Dialect

/-- A dialect that supports fewer primitive types. -/
def refusing (d : Dialect) (kinds : List PrimitiveKind) : Dialect :=
  { d with
    columnType := fun kind facets =>
      if kind ∈ kinds then .error (.unsupportedKind kind)
        else d.columnType kind facets }

theorem refusing_columnType_of_mem (d : Dialect) {kinds : List PrimitiveKind}
    {kind : PrimitiveKind} (h : kind ∈ kinds) (facets : Facets) :
    (d.refusing kinds).columnType kind facets =
      .error (.unsupportedKind kind) := by
  simp [refusing, h]

theorem refusing_columnType_of_not_mem (d : Dialect)
    {kinds : List PrimitiveKind} {kind : PrimitiveKind} (h : kind ∉ kinds)
    (facets : Facets) :
    (d.refusing kinds).columnType kind facets = d.columnType kind facets := by
  simp [refusing, h]

end Dialect

end FirebirdSchema
