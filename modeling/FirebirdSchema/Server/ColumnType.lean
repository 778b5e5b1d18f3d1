/-!
# Column types

The column types of a Firebird server and their text in a column definition.
-/

namespace FirebirdSchema

/-- A character set of a text column. -/
inductive CharacterSet
  | octets
  | utf8
  deriving DecidableEq

/-- The name of a character set. -/
def CharacterSet.sql : CharacterSet → String
  | octets => "OCTETS"
  | utf8 => "UTF8"

/-- What a large object holds. -/
inductive BlobContent
  | text
  | binary
  deriving DecidableEq

/-- The name of a large object's content. -/
def BlobContent.sql : BlobContent → String
  | text => "TEXT"
  | binary => "BINARY"

/-- A column type. -/
inductive ColumnType
  | smallint
  | int
  | bigint
  | float
  | doublePrecision
  | decimal (precision scale : UInt8)
  | timestamp
  | timestampWithTimeZone
  | time
  /-- Values of exactly `length` characters. -/
  | char (length : UInt32) (charset : Option CharacterSet)
  /-- Values of at most `length` characters. -/
  | varchar (length : UInt32) (charset : Option CharacterSet)
  /-- Values of any length, stored outside the row. -/
  | blob (content : BlobContent) (charset : Option CharacterSet)
  deriving DecidableEq

namespace ColumnType

/-- The clause that names the character set of a column, when there is one. -/
def charsetClause : Option CharacterSet → String
  | none => ""
  | some charset => " CHARACTER SET " ++ charset.sql

/-- The text of a column type. -/
def sql : ColumnType → String
  | smallint => "SMALLINT"
  | int => "INT"
  | bigint => "BIGINT"
  | float => "FLOAT"
  | doublePrecision => "DOUBLE PRECISION"
  | decimal precision scale =>
    "DECIMAL(" ++ toString precision.toNat ++ "," ++ toString scale.toNat ++ ")"
  | timestamp => "TIMESTAMP"
  | timestampWithTimeZone => "TIMESTAMP WITH TIME ZONE"
  | time => "TIME"
  | char length charset =>
    "CHAR(" ++ toString length.toNat ++ ")" ++ charsetClause charset
  | varchar length charset =>
    "VARCHAR(" ++ toString length.toNat ++ ")" ++ charsetClause charset
  | blob content charset =>
    "BLOB SUB_TYPE " ++ content.sql ++ charsetClause charset

end ColumnType

end FirebirdSchema
