import FirebirdSchema.Server.ColumnType
import FirebirdSchema.Server.Dialect
import FirebirdSchema.Text.Quoted

/-!
# The Firebird dialect

A Firebird target is a server version with a limit on the length of identifiers.
It accepts the nonempty names within the limit, and maps primitive types to the
column types of the version.
-/

namespace FirebirdSchema

/-- A Firebird server with a limit on the length of identifiers. -/
structure Firebird where
  version : ServerVersion
  /-- The longest identifier, in the unit of `ServerVersion.nameLength`. -/
  identifierLimit : Nat := version.identifierLimit
  deriving DecidableEq

/-- The longest character column that can be stored inside the row. -/
def ColumnType.inlineLimit : UInt32 := 32765

/-- The length of a column that is bounded tightly enough to be stored inside
the row. -/
def Facets.inlineLength? (facets : Facets) : Option UInt32 :=
  match facets.length with
  | some (.bounded n) => if n ≤ ColumnType.inlineLimit then some n else none
  | _ => none

/-- Whether the length of a column is bounded tightly enough to be stored inside
the row. -/
def Facets.hasInlineLength (facets : Facets) : Bool :=
  match facets.length with
  | some (.bounded n) => n ≤ ColumnType.inlineLimit
  | _ => false

/-- The character set of a text column: Unicode when the facets say so, else
that of the server. -/
def Facets.charset? (facets : Facets) : Option CharacterSet :=
  if facets.unicode.getD false then some .utf8 else none

namespace Firebird

/-- A server with the identifier limit of its version. -/
def ofVersion (version : ServerVersion) : Firebird :=
  { version := version }

/-- The same server with another identifier limit. -/
def withIdentifierLimit (f : Firebird) (limit : Nat) : Firebird :=
  { f with identifierLimit := limit }

/-- The quoted form of a name.  The limit counts the name itself, before
quoting. -/
def quote (f : Firebird) (name : String) : Except Fault String :=
  if name = "" then .error .emptyIdentifier
  else if f.identifierLimit < f.version.nameLength name then
    .error (.identifierTooLong name f.identifierLimit)
  else .ok (Text.Quoted.quote name)

/-- The decimal type with the precision and scale of the facets, by default 18
and 2. -/
def decimalType (f : Firebird) (facets : Facets) : Except Fault ColumnType :=
  let precision := facets.precision.getD 18
  let scale := facets.scale.getD 2
  if precision = 0 ∨ f.version.decimalLimit < precision then
    .error (.invalidFacets .decimal ("precision " ++ toString precision.toNat ++
      " outside 1..=" ++ toString f.version.decimalLimit.toNat))
  else if precision < scale then
    .error (.invalidFacets .decimal ("scale " ++ toString scale.toNat ++
      " exceeds precision " ++ toString precision.toNat))
  else .ok (.decimal precision scale)

/-- The character type of a column inside the row: fixed when the facets say
so. -/
def inlineType (facets : Facets) (length : UInt32)
    (charset : Option CharacterSet) : ColumnType :=
  if facets.fixedLength.getD false then .char length charset
    else .varchar length charset

/-- The type of a column in a character set: inside the row when its length
allows it, else a large object of the given content. -/
def characterType (facets : Facets) (charset : Option CharacterSet)
    (content : BlobContent) : ColumnType :=
  match facets.inlineLength? with
  | some length => inlineType facets length charset
  | none => .blob content charset

/-- The type of a text column. -/
def textType (facets : Facets) : ColumnType :=
  characterType facets facets.charset? .text

/-- The type of a column of bytes.  Only inside the row are bytes characters of
a character set, so the length is looked at before the character type is asked
for. -/
def binaryType (facets : Facets) : ColumnType :=
  if facets.hasInlineLength then characterType facets (some .octets) .binary
  else .blob .binary none

/-- The column type for a primitive type with facets.  A boolean is stored as a
small integer, and a unique identifier as sixteen bytes. -/
def columnType (f : Firebird) (kind : PrimitiveKind) (facets : Facets) :
    Except Fault ColumnType :=
  match kind with
  | .boolean | .byte | .sbyte | .int16 => .ok .smallint
  | .int32 => .ok .int
  | .int64 => .ok .bigint
  | .single => .ok .float
  | .double => .ok .doublePrecision
  | .decimal => f.decimalType facets
  | .dateTime => .ok .timestamp
  | .time => .ok .time
  | .dateTimeOffset =>
    if f.version = .firebird4 then .ok .timestampWithTimeZone
    else .error (.unsupportedKind .dateTimeOffset)
  | .guid => .ok (.char 16 (some .octets))
  | .string => .ok (textType facets)
  | .binary => .ok (binaryType facets)

/-- How the server writes identifiers and column types. -/
def dialect (f : Firebird) : Dialect where
  version := f.version
  quote := f.quote
  columnType kind facets := (f.columnType kind facets).map ColumnType.sql

theorem quote_eq_ok_iff {f : Firebird} {name text : String} :
    f.quote name = .ok text ↔
      name ≠ "" ∧ f.version.nameLength name ≤ f.identifierLimit ∧
        text = Text.Quoted.quote name := by
  unfold quote
  split
  · rename_i hempty
    constructor
    · intro h
      cases h
    · rintro ⟨hnonempty, -, -⟩
      exact absurd hempty hnonempty
  · rename_i hnonempty
    split
    · rename_i hlong
      constructor
      · intro h
        cases h
      · rintro ⟨-, hshort, -⟩
        omega
    · rename_i hshort
      constructor
      · intro h
        cases h
        exact ⟨hnonempty, by omega, rfl⟩
      · rintro ⟨-, -, rfl⟩
        rfl

end Firebird

end FirebirdSchema
