import FirebirdSchema.Model.Primitive

/-!
# Properties

A property of an entity set is stored in one column.  The functions below
describe a property step by step, starting from a nullable property without
facets.
-/

namespace FirebirdSchema

/-- Where the value of a property comes from. -/
inductive ValueGeneration
  /-- The application supplies the value. -/
  | none
  /-- The server assigns the value when a row is inserted. -/
  | identity
  /-- The server computes the value whenever a row is written. -/
  | computed
  deriving DecidableEq

instance : Text.Named ValueGeneration where
  values := [.none, .identity, .computed]
  name
    | .none => "None"
    | .identity => "Identity"
    | .computed => "Computed"
  find?_name g := by cases g <;> rfl

/-- A property of an entity set. -/
structure Property where
  name : String
  kind : PrimitiveKind
  facets : Facets := {}
  nullable : Bool := true
  generation : ValueGeneration := .none
  deriving DecidableEq

namespace Property

/-- A nullable property without facets, supplied by the application. -/
def ofKind (name : String) (kind : PrimitiveKind) : Property :=
  { name := name, kind := kind }

/-- States whether the column accepts nulls. -/
def withNullable (p : Property) (nullable : Bool) : Property :=
  { p with nullable := nullable }

/-- States that the column accepts no nulls. -/
def notNull (p : Property) : Property :=
  p.withNullable false

/-- States where the value comes from. -/
def withGeneration (p : Property) (generation : ValueGeneration) : Property :=
  { p with generation := generation }

/-- States that the server assigns the value on insertion. -/
def identity (p : Property) : Property :=
  p.withGeneration .identity

/-- Bounds the length. -/
def withLength (p : Property) (length : LengthBound) : Property :=
  { p with facets := { p.facets with length := some length } }

/-- States whether every value has the same length. -/
def withFixedLength (p : Property) (fixed : Bool) : Property :=
  { p with facets := { p.facets with fixedLength := some fixed } }

/-- States whether the text is Unicode text. -/
def withUnicode (p : Property) (unicode : Bool) : Property :=
  { p with facets := { p.facets with unicode := some unicode } }

/-- States how many digits a number has, and how many of them follow the decimal
point. -/
def withPrecision (p : Property) (precision scale : UInt8) : Property :=
  { p with
    facets :=
      { p.facets with precision := some precision, scale := some scale } }

/-- Whether the server assigns the value on insertion. -/
def isIdentity (p : Property) : Bool :=
  p.generation = .identity

end Property

end FirebirdSchema
