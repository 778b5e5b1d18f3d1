import FirebirdSchema.Proofs.Content

/-!
# The characters of a script

The text of a script for a Firebird server, spelled out as a list of characters.
Every statement of the script becomes a concatenation of fixed pieces, quoted
names, column types and line endings, so that a reader of the text can be
followed from piece to piece.
-/

namespace FirebirdSchema

/-! ## Lists with separators -/

/-- The codes of a list, with a separator between every two of them. -/
def separated {α β : Type} (separator : List β) (code : α → List β) :
    List α → List β
  | [] => []
  | x :: xs => code x ++ xs.flatMap fun y => separator ++ code y

theorem separated_nil {α β : Type} (code : α → List β) (xs : List α) :
    separated [] code xs = xs.flatMap code := by
  cases xs with
  | nil => rfl
  | cons x xs => rfl

/-- What may stand behind a code may stand behind codes, if every further code
may stand there. -/
theorem follow_flatMap_append {α : Type} {code : α → List Char}
    {follow stop : List Char → Prop} (hnext : ∀ a rest, follow (code a ++ rest))
    (hstop : ∀ rest, stop rest → follow rest) (xs : List α) {rest : List Char}
    (hrest : stop rest) : follow (xs.flatMap code ++ rest) := by
  cases xs with
  | nil => exact hstop rest hrest
  | cons x xs =>
      rw [List.flatMap_cons, List.append_assoc]
      exact hnext x _

theorem intercalate_map_eq_separated {α : Type} (separator : List Char)
    (code : α → List Char) (xs : List α) :
    separator.intercalate (xs.map code) = separated separator code xs := by
  cases xs with
  | nil => rfl
  | cons x xs =>
      induction xs generalizing x with
      | nil => simp [separated]
      | cons y xs ih =>
          have htail := ih y
          simp only [separated, List.map_cons, List.flatMap_cons] at htail ⊢
          rw [List.intercalate_cons_cons, htail]
          simp only [List.append_assoc]

/-! ## Pieces -/

/-- The characters of a name between double quotes. -/
def quotedChars (name : String) : List Char :=
  Text.Quoted.encode name.toList

/-- The characters of names between double quotes, separated by commas. -/
def quotedListChars (names : List String) : List Char :=
  separated ", ".toList quotedChars names

namespace Layout

/-- The characters of the line ending. -/
def newline (layout : Layout) : List Char :=
  layout.lineEnding.text.toList

theorem newline_eq (layout : Layout) :
    layout.newline = ['\n'] ∨ layout.newline = ['\r', '\n'] := by
  unfold newline
  cases layout.lineEnding with
  | lf => exact Or.inl (by simp [LineEnding.text])
  | crlf => exact Or.inr (by simp [LineEnding.text])

/-- The indentation consists of spaces and tabulators. -/
def HasBlankIndent (layout : Layout) : Prop :=
  ∀ c ∈ layout.indent.toList, c = ' ' ∨ c = '\t'

instance (layout : Layout) : Decidable layout.HasBlankIndent :=
  List.decidableBAll (fun c => c = ' ' ∨ c = '\t') layout.indent.toList

theorem toList_line (layout : Layout) (text : String) :
    (layout.line text).toList = text.toList ++ layout.newline :=
  String.toList_append

theorem toList_identifiers (names : List String) :
    (identifiers (names.map .quoted)).toList = quotedListChars names := by
  have hnames : names.map
    ((String.toList ∘ Identifier.text) ∘ Identifier.quoted) =
      names.map quotedChars :=
    List.map_congr_left fun name _ => Text.Quoted.toList_quote name
  rw [identifiers, String.toList_intercalate, List.map_map, List.map_map,
    hnames, intercalate_map_eq_separated, quotedListChars]

theorem toList_separate {α : Type} (layout : Layout) (text : α → String)
    (xs : List α) :
    (layout.separate (xs.map text)).toList =
      separated layout.newline (fun x => (text x).toList) xs := by
  rw [separate, String.toList_intercalate, List.map_map,
    ← intercalate_map_eq_separated]
  rfl

end Layout

theorem Identifier.toList_text_quoted (name : String) :
    (Identifier.quoted name).text.toList = quotedChars name :=
  Text.Quoted.toList_quote name

/-! ## Column types -/

namespace ColumnType

theorem toList_sql_decimal (precision scale : UInt8) :
    (decimal precision scale).sql.toList =
      "DECIMAL(".toList ++ (Nat.toDigits 10 precision.toNat ++
        (",".toList ++ (Nat.toDigits 10 scale.toNat ++ ")".toList))) := by
  simp [sql]

theorem toList_sql_char (length : UInt32) (charset : Option CharacterSet) :
    (char length charset).sql.toList =
      "CHAR(".toList ++ (Nat.toDigits 10 length.toNat ++
        (")".toList ++ (charsetClause charset).toList)) := by
  simp [sql]

theorem toList_sql_varchar (length : UInt32) (charset : Option CharacterSet) :
    (varchar length charset).sql.toList =
      "VARCHAR(".toList ++ (Nat.toDigits 10 length.toNat ++
        (")".toList ++ (charsetClause charset).toList)) := by
  simp [sql]

theorem toList_sql_blob (content : BlobContent)
    (charset : Option CharacterSet) :
    (blob content charset).sql.toList =
      "BLOB SUB_TYPE ".toList ++
        (content.sql.toList ++ (charsetClause charset).toList) := by
  simp [sql]

theorem toList_charsetClause_some (charset : CharacterSet) :
    (charsetClause (some charset)).toList =
      " CHARACTER SET ".toList ++ charset.sql.toList :=
  String.toList_append

end ColumnType

/-! ## Statements -/

namespace ColumnContent

/-- The characters of the check that a column of a name holds only zero and
one. -/
def checkChars (name : String) : Bool → List Char
  | true => " CHECK (".toList ++ (quotedChars name ++ " IN (1,0))".toList)
  | false => []

/-- The characters that forbid nulls. -/
def nullChars : Bool → List Char
  | true => []
  | false => " NOT NULL".toList

/-- The characters of the line that defines a column. -/
def chars (layout : Layout) (c : ColumnContent) : List Char :=
  layout.indent.toList ++
    (quotedChars c.name ++
      (" ".toList ++
        (c.type.sql.toList ++
          (checkChars c.name c.isTruthValue ++
            (nullChars c.nullable ++ (",".toList ++ layout.newline))))))

theorem toList_line_render (layout : Layout) (c : ColumnContent) :
    (layout.line (layout.indent ++ c.column.render ++ ",")).toList =
      c.chars layout := by
  have hcheck :
      (if c.isTruthValue then " CHECK (" ++ (Identifier.quoted c.name).text ++
        " IN (1,0))" else "").toList = checkChars c.name c.isTruthValue := by
    cases c.isTruthValue with
    | true =>
        simp only [if_true, String.toList_append, Identifier.toList_text_quoted,
          List.append_assoc]
        rfl
    | false => rfl
  have hnull : (if c.nullable then "" else " NOT NULL").toList =
      nullChars c.nullable := by
    cases c.nullable <;> rfl
  unfold Column.render column chars
  simp only [Layout.toList_line, String.toList_append,
    Identifier.toList_text_quoted, hcheck, hnull, List.append_assoc]

end ColumnContent

namespace TableContent

/-- The characters of the comment on a column of a table. -/
def commentChars (layout : Layout) (table : String) (entry : String × Marker) :
    List Char :=
  "COMMENT ON COLUMN ".toList ++
    (quotedChars table ++
      (".".toList ++
        (quotedChars entry.1 ++
          (" IS '".toList ++
            (entry.2.text.toList ++ ("';".toList ++ layout.newline))))))

/-- The characters of a table block. -/
def chars (layout : Layout) (t : TableContent) : List Char :=
  "RECREATE TABLE ".toList ++
    (quotedChars t.name ++
      (" (".toList ++
        (layout.newline ++
          (t.columns.flatMap (ColumnContent.chars layout) ++
            ("CONSTRAINT ".toList ++
              (quotedChars ("PK_" ++ t.name) ++
                (" PRIMARY KEY (".toList ++
                  (quotedListChars t.keyMembers ++
                    (")".toList ++
                      (layout.newline ++
                        (");".toList ++
                          (layout.newline ++
                            t.comments.flatMap
                              (commentChars layout t.name)))))))))))))

theorem toList_comment (layout : Layout) (table : String)
    (entry : String × Marker) :
    (layout.comment (.quoted table) (Identifier.quotedComment entry).1
      (Identifier.quotedComment entry).2).toList =
        commentChars layout table entry := by
  unfold Layout.comment Identifier.quotedComment commentChars
  simp only [Layout.toList_line, String.toList_append,
    Identifier.toList_text_quoted, List.append_assoc]

theorem toList_join_columns (layout : Layout) (columns : List ColumnContent) :
    (String.join ((columns.map ColumnContent.column).map fun column =>
      layout.line (layout.indent ++ column.render ++ ","))).toList =
        columns.flatMap (ColumnContent.chars layout) := by
  rw [String.toList_join, List.map_map, List.flatMap_map]
  exact List.flatMap_congr fun c _ => c.toList_line_render layout

theorem toList_join_comments (layout : Layout) (table : String)
    (comments : List (String × Marker)) :
    (String.join ((comments.map Identifier.quotedComment).map fun entry =>
      layout.comment (.quoted table) entry.1 entry.2)).toList =
        comments.flatMap (commentChars layout table) := by
  rw [String.toList_join, List.map_map, List.flatMap_map]
  exact List.flatMap_congr fun entry _ => toList_comment layout table entry

theorem toList_tableBlock (layout : Layout) (t : TableContent) :
    (layout.tableBlock t.block).toList = t.chars layout := by
  unfold Layout.tableBlock block chars
  simp only [Layout.toList_line, String.toList_append, toList_join_columns,
    toList_join_comments, Layout.toList_identifiers,
    Identifier.toList_text_quoted,
    List.append_assoc]

end TableContent

namespace ForeignKeyContent

/-- The characters of a foreign key. -/
def chars (layout : Layout) (k : ForeignKeyContent) : List Char :=
  "ALTER TABLE ".toList ++ (quotedChars k.table ++ (" ADD CONSTRAINT ".toList ++
    (quotedChars ("FK_" ++ k.name) ++ (" FOREIGN KEY (".toList ++
    (quotedListChars k.columns ++ (")".toList ++ (layout.newline ++
    ("REFERENCES ".toList ++ (quotedChars k.principal ++ ("(".toList ++
    (quotedListChars k.principalColumns ++ (")".toList ++ (layout.newline ++
    ("ON DELETE ".toList ++
      (k.deleteRule.sql.toList ++ ";".toList)))))))))))))))

theorem toList_foreignKey (layout : Layout) (k : ForeignKeyContent) :
    (layout.foreignKey k.foreignKey).toList = k.chars layout := by
  unfold Layout.foreignKey Layout.foreignKeyHead foreignKey chars
  simp only [Layout.toList_line, String.toList_append,
    Layout.toList_identifiers, Identifier.toList_text_quoted, List.append_assoc]

end ForeignKeyContent

namespace SchemaContent

/-- The characters of a script. -/
def chars (layout : Layout) (c : SchemaContent) : List Char :=
  "-- Tables".toList ++ (layout.newline ++
    (separated layout.newline (TableContent.chars layout) c.tables ++
      (layout.newline ++
        ("-- Foreign Key Constraints".toList ++
          (layout.newline ++
            (separated layout.newline (ForeignKeyContent.chars layout)
              c.foreignKeys ++
                (layout.newline ++ (layout.newline ++ "-- EOF".toList))))))))

theorem toList_script (layout : Layout) (c : SchemaContent) :
    (layout.script c.script).toList = c.chars layout := by
  unfold Layout.script script chars
  simp only [Layout.toList_line, String.toList_append, List.map_map,
    Layout.toList_separate, Function.comp_apply, TableContent.toList_tableBlock,
    ForeignKeyContent.toList_foreignKey, String.toList_empty, List.nil_append,
    List.append_assoc]

end SchemaContent

end FirebirdSchema
