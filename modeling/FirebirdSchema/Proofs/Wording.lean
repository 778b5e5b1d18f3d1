import FirebirdSchema.Proofs.Sections
import FirebirdSchema.Proofs.Table

/-!
# The wording of a script

The texts of a script, of its blocks and of its foreign keys, spelled out down
to the written identifiers.  Statements about what a script says are made in
these words, and not in terms of the functions that write it.
-/

namespace FirebirdSchema

open Traversal

/-! ## Lines, clauses and names -/

theorem LineEnding.text_eq (lineEnding : LineEnding) :
    lineEnding.text = if lineEnding = .crlf then "\r\n" else "\n" := by
  cases lineEnding <;> rfl

/-- The last clause of a foreign key. -/
def DeleteRule.clause (rule : DeleteRule) : String :=
  if rule = .cascade then "ON DELETE CASCADE;" else "ON DELETE NO ACTION;"

theorem DeleteRule.onDelete_eq_clause (rule : DeleteRule) :
    "ON DELETE " ++ rule.sql ++ ";" = rule.clause := by
  cases rule <;> rfl

/-- The names that are written are those that were asked for, each of them
quoted. -/
theorem Dialect.mapM_quote_of_mapM_identifier {d : Dialect}
    {names : List String} {is : List Identifier}
    (h : names.mapM d.identifier = .ok is) :
    is.map Identifier.name = names ∧
      names.mapM d.quote = .ok (is.map Identifier.text) := by
  constructor
  · have hnames : is.map Identifier.name = names.map id := by
      refine map_eq_map_of_mapM_eq_ok ?_ h
      intro name _ i hi
      exact (Dialect.identifier_eq_ok_iff.mp hi).1
    rwa [List.map_id] at hnames
  · rw [mapM_eq_ok_iff] at h ⊢
    rw [List.forall₂_map_right_iff]
    exact h.imp fun name i hi => (Dialect.identifier_eq_ok_iff.mp hi).2

/-! ## Texts -/

namespace Layout

variable (layout : Layout)

theorem comment_eq (table column : Identifier) (marker : Marker) :
    layout.comment table column marker =
      "COMMENT ON COLUMN " ++ table.text ++ "." ++ column.text ++ " IS '" ++
        marker.text ++ "';" ++ layout.lineEnding.text :=
  rfl

theorem tableBlock_eq (block : TableBlock) :
    layout.tableBlock block =
      "RECREATE TABLE " ++ block.name.text ++ " (" ++ layout.lineEnding.text ++
        String.join (block.columns.map fun column =>
          layout.indent ++ column.name.text ++ " " ++ column.type ++
            (if column.isTruthValue
              then " CHECK (" ++ column.name.text ++ " IN (1,0))" else "") ++
            (if column.nullable then "" else " NOT NULL") ++ "," ++
            layout.lineEnding.text) ++
        "CONSTRAINT " ++ block.keyName.text ++ " PRIMARY KEY (" ++
        ", ".intercalate (block.keyColumns.map Identifier.text) ++ ")" ++
        layout.lineEnding.text ++ ");" ++ layout.lineEnding.text ++
        String.join (block.comments.map fun entry =>
          "COMMENT ON COLUMN " ++ block.name.text ++ "." ++ entry.1.text ++
            " IS '" ++ entry.2.text ++ "';" ++ layout.lineEnding.text) := by
  simp only [tableBlock, line, Column.render, comment, identifiers,
    String.append_assoc]

theorem foreignKeyHead_eq (key : ForeignKey) :
    layout.foreignKeyHead key =
      "ALTER TABLE " ++ key.table.text ++ " ADD CONSTRAINT " ++ key.name.text ++
        " FOREIGN KEY (" ++
        ", ".intercalate (key.columns.map Identifier.text) ++ ")" ++
        layout.lineEnding.text ++ "REFERENCES " ++ key.principal.text ++ "(" ++
        ", ".intercalate (key.principalColumns.map Identifier.text) ++ ")" ++
        layout.lineEnding.text := by
  simp only [foreignKeyHead, line, identifiers, String.append_assoc]

theorem foreignKey_eq (key : ForeignKey) :
    layout.foreignKey key =
      layout.foreignKeyHead key ++ key.deleteRule.clause := by
  simp only [foreignKey, ← DeleteRule.onDelete_eq_clause, String.append_assoc]

theorem sections_eq (tables foreignKeys : List String) :
    layout.sections tables foreignKeys =
      "-- Tables" ++ layout.lineEnding.text ++
        layout.lineEnding.text.intercalate tables ++ layout.lineEnding.text ++
        "-- Foreign Key Constraints" ++ layout.lineEnding.text ++
        layout.lineEnding.text.intercalate foreignKeys ++
        layout.lineEnding.text ++ layout.lineEnding.text ++ "-- EOF" := by
  simp only [sections, tableSection, foreignKeySection, closing, line, separate,
    String.append_assoc, String.empty_append]

end Layout

end FirebirdSchema
