import FirebirdSchema.Text.Named

/-!
# Primitive types

The primitive types of store properties and the facets that refine them.
-/

namespace FirebirdSchema

/-- The primitive type of a store property. -/
inductive PrimitiveKind
  | binary
  | boolean
  | byte
  | sbyte
  | int16
  | int32
  | int64
  | single
  | double
  | decimal
  | dateTime
  | dateTimeOffset
  | time
  | guid
  | string
  deriving DecidableEq

instance : Text.Named PrimitiveKind where
  values := [.binary, .boolean, .byte, .sbyte, .int16, .int32, .int64, .single,
    .double, .decimal, .dateTime, .dateTimeOffset, .time, .guid, .string]
  name
    | .binary => "Binary"
    | .boolean => "Boolean"
    | .byte => "Byte"
    | .sbyte => "SByte"
    | .int16 => "Int16"
    | .int32 => "Int32"
    | .int64 => "Int64"
    | .single => "Single"
    | .double => "Double"
    | .decimal => "Decimal"
    | .dateTime => "DateTime"
    | .dateTimeOffset => "DateTimeOffset"
    | .time => "Time"
    | .guid => "Guid"
    | .string => "String"
  find?_name k := by cases k <;> rfl

/-- The longest value that a text or binary property may hold. -/
inductive LengthBound
  /-- No bound. -/
  | max
  /-- At most `n` characters or bytes. -/
  | bounded (n : UInt32)
  deriving DecidableEq

/-- The facets that refine a primitive type.  A facet that is absent is left to
the server. -/
structure Facets where
  length : Option LengthBound := none
  fixedLength : Option Bool := none
  unicode : Option Bool := none
  precision : Option UInt8 := none
  scale : Option UInt8 := none
  deriving DecidableEq

end FirebirdSchema
