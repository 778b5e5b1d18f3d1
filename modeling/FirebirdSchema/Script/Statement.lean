import FirebirdSchema.Model.Relationship
import FirebirdSchema.Script.Marker

/-!
# Statements of a script

A script creates tables, comments on their marked columns, and then adds foreign
keys.  Statements hold every identifier together with its written form, so that
writing them cannot fail.
-/

namespace FirebirdSchema

/-- An identifier and its written form. -/
structure Identifier where
  name : String
  text : String
  deriving DecidableEq

/-- The definition of a column. -/
structure Column where
  name : Identifier
  /-- The text of the column type. -/
  type : String
  /-- Whether the column stands for a truth value, so that it holds only zero
  and one. -/
  isTruthValue : Bool
  nullable : Bool
  deriving DecidableEq

/-- The creation of a table, with the comments on its marked columns. -/
structure TableBlock where
  name : Identifier
  columns : List Column
  /-- The name of the primary key constraint. -/
  keyName : Identifier
  /-- The columns of the primary key. -/
  keyColumns : List Identifier
  comments : List (Identifier × Marker)
  deriving DecidableEq

/-- The addition of a foreign key to a table. -/
structure ForeignKey where
  /-- The table that refers. -/
  table : Identifier
  name : Identifier
  columns : List Identifier
  /-- The table that is referred to. -/
  principal : Identifier
  principalColumns : List Identifier
  deleteRule : DeleteRule
  deriving DecidableEq

/-- The tables of a schema and the foreign keys between them, in the order of a
script. -/
structure Script where
  tables : List TableBlock
  foreignKeys : List ForeignKey
  deriving DecidableEq

/-- A statement of a script. -/
inductive Statement
  /-- Creates the table of a block, which may exist already. -/
  | recreateTable (block : TableBlock)
  | commentOnColumn (table column : Identifier) (marker : Marker)
  | addForeignKey (key : ForeignKey)
  deriving DecidableEq

/-- The statements of a table block: the creation of the table, then the
comments. -/
def TableBlock.statements (block : TableBlock) : List Statement :=
  .recreateTable block ::
    block.comments.map fun comment =>
      .commentOnColumn block.name comment.1 comment.2

/-- The statements of a script, in order. -/
def Script.statements (script : Script) : List Statement :=
  script.tables.flatMap TableBlock.statements ++
    script.foreignKeys.map .addForeignKey

end FirebirdSchema
