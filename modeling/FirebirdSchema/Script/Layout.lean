import FirebirdSchema.Script.Statement

/-!
# The layout of a script

How statements are written down.  Every line of a table block ends with the line
ending of the layout; blocks and foreign keys are separated by one line ending
each.
-/

namespace FirebirdSchema

/-- How lines end. -/
inductive LineEnding
  | lf
  | crlf
  deriving DecidableEq

/-- The characters of a line ending. -/
def LineEnding.text : LineEnding → String
  | lf => "\n"
  | crlf => "\r\n"

/-- The line ending of a script, and what stands before a column definition. -/
structure Layout where
  lineEnding : LineEnding := .lf
  indent : String := "\t"
  deriving DecidableEq

/-- The text of a column definition. -/
def Column.render (column : Column) : String :=
  column.name.text ++ " " ++ column.type ++
    (if column.isTruthValue then " CHECK (" ++ column.name.text ++ " IN (1,0))"
      else "") ++
    (if column.nullable then "" else " NOT NULL")

/-- The text of a delete rule. -/
def DeleteRule.sql : DeleteRule → String
  | none => "NO ACTION"
  | cascade => "CASCADE"

namespace Layout

/-- A text with the line ending behind it. -/
def line (layout : Layout) (text : String) : String :=
  text ++ layout.lineEnding.text

/-- Texts with one line ending between every two of them. -/
def separate (layout : Layout) (texts : List String) : String :=
  layout.lineEnding.text.intercalate texts

/-- Written identifiers, separated by commas. -/
def identifiers (names : List Identifier) : String :=
  ", ".intercalate (names.map Identifier.text)

/-- The text of a comment on a column. -/
def comment (layout : Layout) (table column : Identifier) (marker : Marker) :
    String :=
  layout.line
    ("COMMENT ON COLUMN " ++ table.text ++ "." ++ column.text ++ " IS '" ++
      marker.text ++ "';")

/-- The text of a table block. -/
def tableBlock (layout : Layout) (block : TableBlock) : String :=
  layout.line ("RECREATE TABLE " ++ block.name.text ++ " (") ++
    String.join (block.columns.map fun column =>
      layout.line (layout.indent ++ column.render ++ ",")) ++
    layout.line ("CONSTRAINT " ++ block.keyName.text ++ " PRIMARY KEY (" ++
      identifiers block.keyColumns ++ ")") ++
    layout.line ");" ++
    String.join (block.comments.map fun entry =>
      layout.comment block.name entry.1 entry.2)

/-- The text of a foreign key in front of its last clause. -/
def foreignKeyHead (layout : Layout) (key : ForeignKey) : String :=
  layout.line ("ALTER TABLE " ++ key.table.text ++ " ADD CONSTRAINT " ++
    key.name.text ++ " FOREIGN KEY (" ++ identifiers key.columns ++ ")") ++
    layout.line ("REFERENCES " ++ key.principal.text ++ "(" ++
      identifiers key.principalColumns ++ ")")

/-- The text of a foreign key. -/
def foreignKey (layout : Layout) (key : ForeignKey) : String :=
  layout.foreignKeyHead key ++ "ON DELETE " ++ key.deleteRule.sql ++ ";"

/-- The text of a script. -/
def script (layout : Layout) (s : Script) : String :=
  layout.line "-- Tables" ++
    layout.line (layout.separate (s.tables.map layout.tableBlock)) ++
    layout.line "-- Foreign Key Constraints" ++
    layout.line (layout.separate (s.foreignKeys.map layout.foreignKey)) ++
    layout.line "" ++ "-- EOF"

end Layout

end FirebirdSchema
