import FirebirdSchema.Proofs.Tokenizer

/-!
# The tokens of a script

The tokens that a schema content stands for, stated without any text, and the
proof that a tokenizer finds exactly these in a script.  A name is one token
wherever it is written, so no name can end an identifier, open a comment or
finish a statement.
-/

namespace FirebirdSchema

open Sql Sql.Token

/-! ## The tokens of a content -/

/-- The tokens of names that are separated by commas. -/
def nameTokens (names : List String) : List Token :=
  separated [symbol ','] (fun name => [identifier name]) names

namespace ColumnType

/-- The tokens of the clause that names a character set. -/
def charsetTokens : Option CharacterSet → List Token
  | none => []
  | some charset => [word "CHARACTER", word "SET"] ++ [word charset.sql]

/-- The tokens of a column type. -/
def tokens : ColumnType → List Token
  | smallint => [word "SMALLINT"]
  | int => [word "INT"]
  | bigint => [word "BIGINT"]
  | float => [word "FLOAT"]
  | doublePrecision => [word "DOUBLE", word "PRECISION"]
  | decimal precision scale =>
    [word "DECIMAL", symbol '('] ++ [number (toString precision.toNat)] ++
      [symbol ','] ++
      [number (toString scale.toNat)] ++ [symbol ')']
  | timestamp => [word "TIMESTAMP"]
  | timestampWithTimeZone =>
    [word "TIMESTAMP", word "WITH", word "TIME", word "ZONE"]
  | time => [word "TIME"]
  | char length charset =>
    [word "CHAR", symbol '('] ++ [number (toString length.toNat)] ++
      [symbol ')'] ++
      charsetTokens charset
  | varchar length charset =>
    [word "VARCHAR", symbol '('] ++ [number (toString length.toNat)] ++
      [symbol ')'] ++
      charsetTokens charset
  | blob content charset =>
    [word "BLOB", word "SUB_TYPE"] ++ [word content.sql] ++
      charsetTokens charset

end ColumnType

namespace ColumnContent

/-- The tokens of the check that a column of a name holds only zero and one. -/
def checkTokens (name : String) : Bool → List Token
  | true => [word "CHECK", symbol '('] ++ ([identifier name] ++
      [word "IN", symbol '(', number "1", symbol ',', number "0", symbol ')',
        symbol ')'])
  | false => []

/-- The tokens that forbid nulls. -/
def nullTokens : Bool → List Token
  | true => []
  | false => [word "NOT", word "NULL"]

/-- The tokens of the definition of a column. -/
def tokens (c : ColumnContent) : List Token :=
  [identifier c.name] ++ c.type.tokens ++ checkTokens c.name c.isTruthValue ++
    nullTokens c.nullable ++ [symbol ',']

end ColumnContent

namespace TableContent

/-- The tokens of the comment on a column of a table. -/
def commentTokens (table : String) (entry : String × Marker) : List Token :=
  [word "COMMENT", word "ON", word "COLUMN"] ++ [identifier table] ++
    [symbol '.'] ++
    [identifier entry.1] ++ [word "IS", string entry.2.text, symbol ';']

/-- The tokens of a table block. -/
def tokens (t : TableContent) : List Token :=
  [word "RECREATE", word "TABLE"] ++ [identifier t.name] ++ [symbol '('] ++
    t.columns.flatMap ColumnContent.tokens ++ [word "CONSTRAINT"] ++
    [identifier ("PK_" ++ t.name)] ++ [word "PRIMARY", word "KEY",
      symbol '('] ++
    nameTokens t.keyMembers ++ [symbol ')'] ++ [symbol ')', symbol ';'] ++
    t.comments.flatMap (commentTokens t.name)

end TableContent

/-- The tokens of a delete rule. -/
def DeleteRule.tokens : DeleteRule → List Token
  | none => [word "NO", word "ACTION"]
  | cascade => [word "CASCADE"]

/-- The tokens of a foreign key. -/
def ForeignKeyContent.tokens (k : ForeignKeyContent) : List Token :=
  [word "ALTER", word "TABLE"] ++ [identifier k.table] ++
    [word "ADD", word "CONSTRAINT"] ++ [identifier ("FK_" ++ k.name)] ++
    [word "FOREIGN", word "KEY", symbol '('] ++ nameTokens k.columns ++
    [symbol ')'] ++
    [word "REFERENCES"] ++ [identifier k.principal] ++ [symbol '('] ++
    nameTokens k.principalColumns ++ [symbol ')'] ++
    [word "ON", word "DELETE"] ++
    k.deleteRule.tokens ++ [symbol ';']

/-- The tokens of a script. -/
def SchemaContent.tokens (c : SchemaContent) : List Token :=
  [comment "-- Tables"] ++ c.tables.flatMap TableContent.tokens ++
    [comment "-- Foreign Key Constraints"] ++
    c.foreignKeys.flatMap ForeignKeyContent.tokens ++
    [comment "-- EOF"]

/-! ## Reading a script -/

namespace Sql

theorem isDelimited_cons {c : Char}
    (h : c.isWhitespace = true ∨ isPunctuation c = true) (rest : List Char) :
    IsDelimited (c :: rest) := by
  intro d hd
  obtain rfl : c = d := Option.some.inj hd
  exact h

namespace Reads

variable {next : List Char → Prop} {cs ds : List Char}
  {tokens more : List Token}

theorem literal (h : steps .start cs = some (tokens, .start))
    (hmore : Reads next ds more) :
    Reads next (cs ++ ds) (tokens ++ more) :=
  (reads_of_steps h fun _ => True).append hmore fun _ _ => trivial

theorem quoted (name : String)
    (hnext : ∀ rest, next rest → IsDelimited (ds ++ rest))
    (hmore : Reads next ds more) :
    Reads next (quotedChars name ++ ds) ([.identifier name] ++ more) :=
  (reads_quotedChars name).append hmore hnext

theorem quotedList (names : List String)
    (hnext : ∀ rest, next rest → IsDelimited (ds ++ rest))
    (hmore : Reads next ds more) :
    Reads next (quotedListChars names ++ ds) (nameTokens names ++ more) :=
  (reads_quotedListChars names).append hmore hnext

theorem number (n : Nat) (hnext : ∀ rest, next rest → IsDelimited (ds ++ rest))
    (hmore : Reads next ds more) :
    Reads next (Nat.toDigits 10 n ++ ds) ([.number (toString n)] ++ more) :=
  (reads_toDigits n).append hmore hnext

theorem skip (h : steps .start cs = some ([], .start))
    (hmore : Reads next ds more) :
    Reads next (cs ++ ds) more :=
  literal h hmore

end Reads

theorem steps_newline (layout : Layout) :
    steps .start layout.newline = some ([], .start) := by
  rcases layout.newline_eq with h | h
  · rw [h]
    rfl
  · rw [h]
    rfl

theorem steps_indent {layout : Layout} (hblank : layout.HasBlankIndent) :
    steps .start layout.indent.toList = some ([], .start) := by
  unfold Layout.HasBlankIndent at hblank
  generalize layout.indent.toList = indent at hblank ⊢
  induction indent with
  | nil => rfl
  | cons c cs ih =>
      have hcs := ih fun d hd => hblank d (List.mem_cons_of_mem c hd)
      have hc : step .start c = some ([], .start) := by
        rcases hblank c List.mem_cons_self with rfl | rfl
        · rfl
        · rfl
      simp [steps, hc, hcs]

end Sql

namespace ColumnType

theorem isDelimited_charsetClause (charset : Option CharacterSet)
    {rest : List Char} (hrest : IsDelimited rest) :
    IsDelimited ((charsetClause charset).toList ++ rest) := by
  cases charset with
  | none => exact hrest
  | some charset =>
      rw [toList_charsetClause_some]
      exact isDelimited_cons (Or.inl rfl) _

theorem reads_charsetClause (charset : Option CharacterSet) :
    Reads IsDelimited (charsetClause charset).toList
      (charsetTokens charset) := by
  cases charset with
  | none => exact Reads.nil _
  | some charset =>
      have hname : Reads IsDelimited charset.sql.toList
          [.word charset.sql] := by
        cases charset with
        | octets => exact reads_of_pieceTokens rfl
        | utf8 => exact reads_of_pieceTokens rfl
      rw [toList_charsetClause_some]
      apply Reads.literal rfl
      exact hname

theorem reads_length (length : UInt32) (charset : Option CharacterSet) :
    Reads IsDelimited
      (Nat.toDigits 10 length.toNat ++
        (")".toList ++ (charsetClause charset).toList))
      ([.number (toString length.toNat)] ++
        ([.symbol ')'] ++ charsetTokens charset)) := by
  apply Reads.number _ fun _ _ => isDelimited_cons (Or.inr rfl) _
  apply Reads.literal rfl
  exact reads_charsetClause charset

theorem reads_sql (t : ColumnType) :
    Reads IsDelimited t.sql.toList t.tokens := by
  cases t with
  | smallint => exact reads_of_pieceTokens rfl
  | int => exact reads_of_pieceTokens rfl
  | bigint => exact reads_of_pieceTokens rfl
  | float => exact reads_of_pieceTokens rfl
  | doublePrecision => exact reads_of_pieceTokens rfl
  | timestamp => exact reads_of_pieceTokens rfl
  | timestampWithTimeZone => exact reads_of_pieceTokens rfl
  | time => exact reads_of_pieceTokens rfl
  | decimal precision scale =>
      rw [toList_sql_decimal]
      unfold tokens
      simp only [List.append_assoc]
      apply Reads.literal rfl
      apply Reads.number _ fun _ _ => isDelimited_cons (Or.inr rfl) _
      apply Reads.literal rfl
      apply Reads.number _ fun _ _ => isDelimited_cons (Or.inr rfl) _
      exact reads_of_pieceTokens rfl
  | char length charset =>
      rw [toList_sql_char]
      unfold tokens
      simp only [List.append_assoc]
      apply Reads.literal rfl
      exact reads_length length charset
  | varchar length charset =>
      rw [toList_sql_varchar]
      unfold tokens
      simp only [List.append_assoc]
      apply Reads.literal rfl
      exact reads_length length charset
  | blob content charset =>
      have hcontent : Reads IsDelimited content.sql.toList
          [.word content.sql] := by
        cases content with
        | text => exact reads_of_pieceTokens rfl
        | binary => exact reads_of_pieceTokens rfl
      rw [toList_sql_blob]
      unfold tokens
      simp only [List.append_assoc]
      apply Reads.literal rfl
      apply hcontent.append (reads_charsetClause charset)
      exact fun _ hrest => isDelimited_charsetClause charset hrest

end ColumnType

namespace ColumnContent

theorem isDelimited_checkChars (name : String) (isTruthValue : Bool)
    {rest : List Char} (hrest : IsDelimited rest) :
    IsDelimited (checkChars name isTruthValue ++ rest) := by
  cases isTruthValue with
  | true => exact isDelimited_cons (Or.inl rfl) _
  | false => exact hrest

theorem isDelimited_nullChars (nullable : Bool) {rest : List Char}
    (hrest : IsDelimited rest) : IsDelimited (nullChars nullable ++ rest) := by
  cases nullable with
  | true => exact hrest
  | false => exact isDelimited_cons (Or.inl rfl) _

theorem reads_checkChars (name : String) (isTruthValue : Bool) :
    Reads IsDelimited (checkChars name isTruthValue)
      (checkTokens name isTruthValue) := by
  cases isTruthValue with
  | true =>
      apply Reads.literal rfl
      apply Reads.quoted _ fun _ _ => isDelimited_cons (Or.inl rfl) _
      exact reads_of_pieceTokens rfl
  | false => exact Reads.nil _

theorem reads_nullChars (nullable : Bool) :
    Reads IsDelimited (nullChars nullable) (nullTokens nullable) := by
  cases nullable with
  | true => exact Reads.nil _
  | false => exact reads_of_pieceTokens rfl

theorem reads_chars {layout : Layout} (hblank : layout.HasBlankIndent)
    (c : ColumnContent) :
    Reads (fun _ => True) (c.chars layout) c.tokens := by
  have hcomma : Reads (fun _ => True) (",".toList ++ layout.newline)
      ([.symbol ','] ++ []) :=
    Reads.literal rfl (reads_of_steps (steps_newline layout) _)
  unfold chars tokens
  simp only [List.append_assoc]
  apply Reads.skip (steps_indent hblank)
  apply Reads.quoted _ fun _ _ => isDelimited_cons (Or.inl rfl) _
  apply Reads.skip rfl
  apply c.type.reads_sql.append
  · apply (reads_checkChars c.name c.isTruthValue).append
    · apply (reads_nullChars c.nullable).append hcomma
      intro rest _
      exact isDelimited_cons (Or.inr rfl) _
    · intro rest _
      rw [List.append_assoc]
      exact isDelimited_nullChars _ (isDelimited_cons (Or.inr rfl) _)
  · intro rest _
    rw [List.append_assoc, List.append_assoc]
    exact isDelimited_checkChars _ _
      (isDelimited_nullChars _ (isDelimited_cons (Or.inr rfl) _))

end ColumnContent

namespace TableContent

theorem reads_marker (layout : Layout) (m : Marker) :
    Reads (fun _ => True)
      (" IS '".toList ++ (m.text.toList ++ ("';".toList ++ layout.newline)))
      [.word "IS", .string m.text, .symbol ';'] := by
  have hsteps : steps .start
    (" IS '".toList ++ (m.text.toList ++ "';".toList)) =
      some ([.word "IS", .string m.text, .symbol ';'], .start) := by
    cases m with
    | boolean => rfl
    | guid => rfl
    | generatedKey => rfl
  have hline : Reads (fun _ => True) layout.newline [] :=
    reads_of_steps (steps_newline layout) _
  simpa only [List.append_assoc,
    List.append_nil] using Reads.literal hsteps hline

theorem reads_commentChars (layout : Layout) (table : String)
    (entry : String × Marker) :
    Reads (fun _ => True) (commentChars layout table entry)
      (commentTokens table entry) := by
  unfold commentChars commentTokens
  simp only [List.append_assoc]
  apply Reads.literal rfl
  apply Reads.quoted _ fun _ _ => isDelimited_cons (Or.inr rfl) _
  apply Reads.literal rfl
  apply Reads.quoted _ fun _ _ => isDelimited_cons (Or.inl rfl) _
  exact reads_marker layout entry.2

theorem reads_chars {layout : Layout} (hblank : layout.HasBlankIndent)
    (t : TableContent) :
    Reads (fun _ => True) (t.chars layout) t.tokens := by
  have hcolumns : Reads (fun _ => True)
    (t.columns.flatMap (ColumnContent.chars layout))
      (t.columns.flatMap ColumnContent.tokens) :=
    Reads.flatMap (fun c => c.reads_chars hblank) (fun _ _ => trivial) t.columns
  have hcomments : Reads (fun _ => True)
    (t.comments.flatMap (commentChars layout t.name))
      (t.comments.flatMap (commentTokens t.name)) :=
    Reads.flatMap (reads_commentChars layout t.name) (fun _ _ => trivial)
      t.comments
  unfold chars tokens
  simp only [List.append_assoc]
  apply Reads.literal rfl
  apply Reads.quoted _ fun _ _ => isDelimited_cons (Or.inl rfl) _
  apply Reads.literal rfl
  apply Reads.skip (steps_newline layout)
  apply hcolumns.append _ fun _ _ => trivial
  apply Reads.literal rfl
  apply Reads.quoted _ fun _ _ => isDelimited_cons (Or.inl rfl) _
  apply Reads.literal rfl
  apply Reads.quotedList _ fun _ _ => isDelimited_cons (Or.inr rfl) _
  apply Reads.literal rfl
  apply Reads.skip (steps_newline layout)
  apply Reads.literal rfl
  apply Reads.skip (steps_newline layout)
  exact hcomments

end TableContent

namespace ForeignKeyContent

theorem reads_chars (layout : Layout) (k : ForeignKeyContent) :
    Reads (fun _ => True) (k.chars layout) k.tokens := by
  unfold chars tokens
  simp only [List.append_assoc]
  apply Reads.literal rfl
  apply Reads.quoted _ fun _ _ => isDelimited_cons (Or.inl rfl) _
  apply Reads.literal rfl
  apply Reads.quoted _ fun _ _ => isDelimited_cons (Or.inl rfl) _
  apply Reads.literal rfl
  apply Reads.quotedList _ fun _ _ => isDelimited_cons (Or.inr rfl) _
  apply Reads.literal rfl
  apply Reads.skip (steps_newline layout)
  apply Reads.literal rfl
  apply Reads.quoted _ fun _ _ => isDelimited_cons (Or.inr rfl) _
  apply Reads.literal rfl
  apply Reads.quotedList _ fun _ _ => isDelimited_cons (Or.inr rfl) _
  apply Reads.literal rfl
  apply Reads.skip (steps_newline layout)
  apply Reads.literal rfl
  cases k.deleteRule with
  | none => exact reads_of_steps rfl _
  | cascade => exact reads_of_steps rfl _

end ForeignKeyContent

namespace SchemaContent

/-- A comment ends with its line. -/
theorem reads_commentLine (layout : Layout) {text : String}
    {next : List Char → Prop} {ds : List Char} {more : List Token}
    (h : steps .start text.toList = some ([], .comment text.toList.reverse))
    (hmore : Reads next ds more) :
    Reads next (text.toList ++ (layout.newline ++ ds))
      ([.comment text] ++ more) := by
  have htext : textOf text.toList.reverse = text := by
    simp [textOf]
  have hline : steps (.comment text.toList.reverse) layout.newline =
      some ([.comment text], .start) := by
    rcases layout.newline_eq with hnewline | hnewline
    · simp [hnewline, steps, step, beginAfter, begin, htext]
    · simp [hnewline, steps, step, beginAfter, begin, htext]
  intro rest hrest
  rw [List.append_assoc, List.append_assoc, tokensFrom_append h,
    tokensFrom_append hline, hmore hrest]
  simp [Function.comp_def]

theorem reads_blocks (layout : Layout) {α : Type} {code : α → List Char}
    {tokensOf : α → List Token}
    (h : ∀ a, Reads (fun _ => True) (code a) (tokensOf a)) (xs : List α) :
    Reads (fun _ => True) (separated layout.newline code xs)
      (xs.flatMap tokensOf) := by
  rw [← separated_nil]
  apply Reads.separated h
  · exact reads_of_steps (steps_newline layout) _
  · intro rest
    trivial

theorem reads_chars {layout : Layout} (hblank : layout.HasBlankIndent)
    (c : SchemaContent) :
    Reads (fun rest => rest = []) (c.chars layout) c.tokens := by
  have htables :=
    reads_blocks layout (fun t => TableContent.reads_chars hblank t) c.tables
  have hkeys :=
    reads_blocks layout (ForeignKeyContent.reads_chars layout) c.foreignKeys
  unfold chars tokens
  simp only [List.append_assoc]
  apply reads_commentLine layout rfl
  apply htables.append _ fun _ _ => trivial
  apply Reads.skip (steps_newline layout)
  apply reads_commentLine layout rfl
  apply hkeys.append _ fun _ _ => trivial
  apply Reads.skip (steps_newline layout)
  apply Reads.skip (steps_newline layout)
  intro rest hrest
  rw [hrest]
  rfl

/-- A tokenizer finds in a script the tokens of its content. -/
theorem tokens?_script {layout : Layout} (hblank : layout.HasBlankIndent)
    (c : SchemaContent) :
    tokens? (layout.script c.script) = some c.tokens := by
  have hreads := reads_chars hblank c rfl
  rw [tokens?, toList_script, ← List.append_nil (c.chars layout), hreads]
  simp [tokensFrom, finish]

end SchemaContent

end FirebirdSchema
