import FirebirdSchema.Proofs.ForeignKey
import FirebirdSchema.Proofs.Wording
import FirebirdSchema.Sample

/-!
# Self-contained scripts

Read from its first statement to its last, a script never mentions a table or a
column that it has not created before.  What a statement may mention is stated
here relative to the statements before it, so that a script is self-contained
when each of its statements is supported by the earlier ones.
-/

namespace FirebirdSchema

open Traversal

/-! ## Statements and their text -/

/-- The text of a statement.  The creation of a table is a block without
comments. -/
def Layout.statement (layout : Layout) : Statement → String
  | .recreateTable block => layout.tableBlock { block with comments := [] }
  | .commentOnColumn table column marker => layout.comment table column marker
  | .addForeignKey key => layout.foreignKey key

theorem Layout.statement_recreateTable (layout : Layout) (block : TableBlock) :
    layout.statement (.recreateTable block) =
      "RECREATE TABLE " ++ block.name.text ++ " (" ++ layout.lineEnding.text ++
        String.join (block.columns.map fun column =>
          layout.indent ++ column.name.text ++ " " ++ column.type ++
            (if column.isTruthValue
              then " CHECK (" ++ column.name.text ++ " IN (1,0))" else "") ++
            (if column.nullable then "" else " NOT NULL") ++ "," ++
            layout.lineEnding.text) ++
        "CONSTRAINT " ++ block.keyName.text ++ " PRIMARY KEY (" ++
        ", ".intercalate (block.keyColumns.map Identifier.text) ++ ")" ++
        layout.lineEnding.text ++ ");" ++ layout.lineEnding.text := by
  rw [statement, tableBlock_eq, List.map_nil, String.join_nil,
    String.append_empty]

/-- The comments of a block stand behind the creation of its table. -/
theorem Layout.tableBlock_eq_join_statements (layout : Layout)
    (block : TableBlock) :
    layout.tableBlock block =
      String.join (block.statements.map layout.statement) := by
  rw [tableBlock_eq, TableBlock.statements, List.map_cons, List.map_map,
    String.join_cons, statement_recreateTable]
  rfl

/-- What a statement of a script may mention, given the statements before it.
Before a table is created, no foreign key has been added; the key of the table
is made of its columns.  Between the creation of a table and a comment on one of
its columns stand only comments on others of its columns.  Both tables of a
foreign key have been created before it is added. -/
def Statement.IsSupportedBy (before : List Statement) : Statement → Prop
  | .recreateTable block =>
      (∀ key, .addForeignKey key ∉ before) ∧ block.keyColumns ≠ [] ∧
        ∀ name ∈ block.keyColumns, ∃ column ∈ block.columns, column.name = name
  | .commentOnColumn table column _ =>
      ∃ earlier block comments,
        before = earlier ++ .recreateTable block :: comments ∧
        (∀ comment ∈ comments, ∃ other marker,
          comment = .commentOnColumn table other marker ∧
            other.name ≠ column.name) ∧
        table = block.name ∧ ∃ c ∈ block.columns, c.name = column
  | .addForeignKey key =>
      (∃ block, .recreateTable block ∈ before ∧ block.name = key.table) ∧
        ∃ block, .recreateTable block ∈ before ∧ block.name = key.principal

/-- Every statement of a script is supported by the statements before it. -/
def Script.IsSelfContained (script : Script) : Prop :=
  ∀ before statement after, script.statements = before ++ statement :: after →
    statement.IsSupportedBy before

/-! ## Reading statements in order -/

/-- The statements of a list are supported, when the ones in `before` stand
before the list. -/
def AllSupported (before : List Statement) : List Statement → Prop
  | [] => True
  | statement :: rest =>
      statement.IsSupportedBy before ∧ AllSupported (before ++ [statement]) rest

theorem allSupported_append {before first second : List Statement} :
    AllSupported before (first ++ second) ↔
      AllSupported before first ∧ AllSupported (before ++ first) second := by
  induction first generalizing before with
  | nil => simp [AllSupported]
  | cons statement first ih => simp [AllSupported, ih, and_assoc]

theorem Script.isSelfContained_of_allSupported {script : Script}
    (h : AllSupported [] script.statements) : script.IsSelfContained := by
  intro before statement after hsplit
  rw [hsplit, allSupported_append] at h
  obtain ⟨-, hstatement, -⟩ := h
  exact hstatement

/-! ## Table blocks -/

/-- A table block whose key and comments mention its own columns, each column in
one comment at most. -/
structure TableBlock.IsCoherent (block : TableBlock) : Prop where
  keyColumns_ne_nil : block.keyColumns ≠ []
  keyColumn_declared :
    ∀ name ∈ block.keyColumns, ∃ column ∈ block.columns, column.name = name
  comment_declared :
    ∀ comment ∈ block.comments,
      ∃ column ∈ block.columns, column.name = comment.1
  comments_nodup : (block.comments.map fun comment => comment.1.name).Nodup

theorem Dialect.exists_column_of_identifier {d : Dialect}
    {properties : List Property} {columns : List Column}
    (hcolumns : properties.mapM (Column.ofProperty d) = .ok columns)
    {p : Property} (hp : p ∈ properties) {i : Identifier}
    (hi : d.identifier p.name = .ok i) :
    ∃ column ∈ columns, column.name = i := by
  obtain ⟨column, hcolumn, hp⟩ := exists_value_mem hcolumns hp
  obtain ⟨hname, -⟩ := Column.ofProperty_eq_ok_iff.mp hp
  rw [hi] at hname
  exact ⟨column, hcolumn, (Except.ok.inj hname).symm⟩

namespace TableBlock

variable {d : Dialect} {e : EntitySet} {block : TableBlock}

theorem keyColumns_of_ofEntitySet (h : TableBlock.ofEntitySet d e = .ok block) :
    e.keyMembers.mapM d.identifier = .ok block.keyColumns := by
  obtain ⟨keys, -, hkeys, -, -, hkeyColumns, -⟩ := ofEntitySet_eq_ok_iff.mp h
  rw [← EntitySet.map_name_keyProperties hkeys, List.mapM_map]
  exact hkeyColumns

theorem isCoherent_of_ofEntitySet (h : TableBlock.ofEntitySet d e = .ok block) :
    block.IsCoherent := by
  obtain ⟨keys, -, hkeys, hcolumns, -, hkeyColumns, hcomments⟩ :=
    ofEntitySet_eq_ok_iff.mp h
  have hkeyProperties := EntitySet.mem_properties_of_keyProperties hkeys
  constructor
  · intro hempty
    obtain ⟨hmembers, -⟩ := EntitySet.keyProperties_eq_ok_iff.mp hkeys
    have hlength := length_of_mapM_eq_ok (keyColumns_of_ofEntitySet h)
    rw [hempty] at hlength
    exact hmembers (List.eq_nil_of_length_eq_zero hlength.symm)
  · intro name hname
    obtain ⟨k, hk, hi⟩ := exists_argument_mem hkeyColumns hname
    exact Dialect.exists_column_of_identifier hcolumns (hkeyProperties k hk) hi
  · intro comment hcomment
    obtain ⟨entry, hentry, hvalue⟩ := exists_argument_mem hcomments hcomment
    obtain ⟨hi, -⟩ := Dialect.commentedColumn_eq_ok_iff.mp hvalue
    obtain ⟨p, hp, hname⟩ :=
      Markers.exists_property_of_mem_ofProperties hkeyProperties
      (List.mem_map_of_mem hentry)
    rw [← hname] at hi
    exact Dialect.exists_column_of_identifier hcolumns hp hi
  · have hnames : (block.comments.map fun comment => comment.1.name) =
        (Markers.ofProperties e.properties keys).entries.map Prod.fst := by
      refine map_eq_map_of_mapM_eq_ok ?_ hcomments
      intro entry _ comment hcomment
      obtain ⟨hi, -⟩ := Dialect.commentedColumn_eq_ok_iff.mp hcomment
      exact (Dialect.identifier_eq_ok_iff.mp hi).1
    rw [hnames]
    exact (Markers.ofProperties e.properties keys).nodup

/-- The comments of a block are supported behind the creation of its table.  The
induction passes from the comments that are still to be read to the ones that
have been read. -/
theorem allSupported_comments {before : List Statement}
    (read rest : List (Identifier × Marker))
    (hdeclared : ∀ comment ∈ rest, ∃ column ∈ block.columns,
      column.name = comment.1)
    (hnodup : ((read ++ rest).map fun comment => comment.1.name).Nodup) :
    AllSupported
      (before ++ .recreateTable block ::
        read.map fun comment => .commentOnColumn block.name comment.1 comment.2)
      (rest.map fun comment =>
        .commentOnColumn block.name comment.1 comment.2) := by
  induction rest generalizing read with
  | nil => trivial
  | cons comment rest ih =>
      obtain ⟨hcomment, hrest⟩ := List.forall_mem_cons.mp hdeclared
      have hread : ∀ other ∈ read, other.1.name ≠ comment.1.name := by
        intro other hother hsame
        rw [List.map_append, List.nodup_append] at hnodup
        exact hnodup.2.2 other.1.name (List.mem_map_of_mem hother)
          comment.1.name
          (List.mem_map_of_mem List.mem_cons_self) hsame
      constructor
      · refine ⟨before, block, _, rfl, ?_, rfl, hcomment⟩
        intro statement hstatement
        obtain ⟨other, hother, rfl⟩ := List.mem_map.mp hstatement
        exact ⟨other.1, other.2, rfl, hread other hother⟩
      · have hnext := ih (read ++ [comment]) hrest (by simpa using hnodup)
        simpa using hnext

theorem IsCoherent.allSupported {before : List Statement} (h : block.IsCoherent)
    (hbefore : ∀ key, .addForeignKey key ∉ before) :
    AllSupported before block.statements := by
  constructor
  · exact ⟨hbefore, h.keyColumns_ne_nil, h.keyColumn_declared⟩
  · exact allSupported_comments [] block.comments h.comment_declared
      h.comments_nodup

theorem addForeignKey_not_mem_statements (block : TableBlock)
    (key : ForeignKey) :
    .addForeignKey key ∉ block.statements := by
  simp [statements]

theorem allSupported_flatMap_statements {before : List Statement}
    {blocks : List TableBlock} (hblocks : ∀ block ∈ blocks, block.IsCoherent)
    (hbefore : ∀ key, .addForeignKey key ∉ before) :
    AllSupported before (blocks.flatMap statements) := by
  induction blocks generalizing before with
  | nil => trivial
  | cons block blocks ih =>
      obtain ⟨hblock, hrest⟩ := List.forall_mem_cons.mp hblocks
      rw [List.flatMap_cons, allSupported_append]
      refine ⟨hblock.allSupported hbefore, ih hrest ?_⟩
      intro key hkey
      rcases List.mem_append.mp hkey with hkey | hkey
      · exact hbefore key hkey
      · exact addForeignKey_not_mem_statements block key hkey

end TableBlock

/-! ## Scripts -/

theorem allSupported_map_addForeignKey {before : List Statement}
    {keys : List ForeignKey}
    (h : ∀ key ∈ keys, (Statement.addForeignKey key).IsSupportedBy before) :
    AllSupported before (keys.map .addForeignKey) := by
  induction keys generalizing before with
  | nil => trivial
  | cons key keys ih =>
      obtain ⟨hkey, hrest⟩ := List.forall_mem_cons.mp h
      refine ⟨hkey, ih ?_⟩
      intro other hother
      obtain ⟨⟨table, htable, htableName⟩, principal, hprincipal,
        hprincipalName⟩ := hrest other hother
      exact ⟨⟨table, List.mem_append_left _ htable, htableName⟩,
        principal, List.mem_append_left _ hprincipal, hprincipalName⟩

namespace Script

theorem isSelfContained_of_isCoherent {script : Script}
    (hblocks : ∀ block ∈ script.tables, block.IsCoherent)
    (hkeys : ∀ key ∈ script.foreignKeys,
      (∃ block ∈ script.tables, block.name = key.table) ∧
        ∃ block ∈ script.tables, block.name = key.principal) :
    script.IsSelfContained := by
  have hcreated : ∀ {block}, block ∈ script.tables →
      .recreateTable block ∈ script.tables.flatMap TableBlock.statements := by
    intro block hblock
    exact List.mem_flatMap.mpr ⟨block, hblock, List.mem_cons_self⟩
  apply isSelfContained_of_allSupported
  rw [statements, allSupported_append]
  refine ⟨TableBlock.allSupported_flatMap_statements hblocks fun _ =>
    List.not_mem_nil, ?_⟩
  apply allSupported_map_addForeignKey
  intro key hkey
  obtain ⟨⟨table, htable, htableName⟩, principal, hprincipal, hprincipalName⟩ :=
    hkeys key hkey
  exact ⟨⟨table, hcreated htable, htableName⟩, principal, hcreated hprincipal,
    hprincipalName⟩

/-- A table of a script is created for the first entity set of a name: the block
that creates it stands in the script where that entity set stands in the
schema. -/
def IsTableOfFirst (script : Script) (s : StoreSchema) (name : String)
    (table : Identifier) : Prop :=
  ∃ before e after block, s.entitySets = before ++ e :: after ∧ e.name = name ∧
    (∀ other ∈ before, other.name ≠ name) ∧
    script.tables[before.length]? = some block ∧
    block.name = table ∧ table.name = e.table.getD e.name

theorem IsTableOfFirst.exists_block {script : Script} {s : StoreSchema}
    {name : String} {table : Identifier}
    (h : script.IsTableOfFirst s name table) :
    ∃ block ∈ script.tables, block.name = table := by
  obtain ⟨before, e, after, block, -, -, -, hblock, hname, -⟩ := h
  exact ⟨block, List.mem_of_getElem? hblock, hname⟩

theorem isTableOfFirst_of_boundEntitySet {d : Dialect} {s : StoreSchema}
    {script : Script}
    (htables : s.entitySets.mapM (TableBlock.ofEntitySet d) = .ok script.tables)
    {relationshipEnd : RelationshipEnd} {e : EntitySet} {table : Identifier}
    (he : s.boundEntitySet relationshipEnd = .ok e)
    (htable : d.identifier e.tableName = .ok table) :
    script.IsTableOfFirst s relationshipEnd.entitySet table := by
  have hfound := StoreSchema.boundEntitySet_eq_ok_iff.mp he
  obtain ⟨hname, before, after, hsplit, hbefore⟩ :=
    List.find?_eq_some_iff_append.mp hfound
  rw [hsplit] at htables
  obtain ⟨block, hblock, hplace⟩ := getElem?_of_mapM_eq_ok htables
  obtain ⟨keys, hblockName, -⟩ := TableBlock.ofEntitySet_eq_ok_iff.mp hblock
  rw [htable] at hblockName
  refine ⟨before, e, after, block, hsplit, of_decide_eq_true hname, ?_, hplace,
    (Except.ok.inj hblockName).symm, (Dialect.identifier_eq_ok_iff.mp htable).1⟩
  intro other hother
  simpa using hbefore other hother

theorem exists_ends_of_ofRelationship {d : Dialect} {s : StoreSchema}
    {script : Script}
    (htables : s.entitySets.mapM (TableBlock.ofEntitySet d) = .ok script.tables)
    {r : Relationship} {key : ForeignKey}
    (h : ForeignKey.ofRelationship d s r = .ok key) :
    ∃ (c : ReferentialConstraint) (principal dependent : RelationshipEnd),
      r.constraints = [c] ∧
      principal.Plays c.principalRole r.ends ∧
      dependent.Plays c.dependentRole r.ends ∧
      script.IsTableOfFirst s dependent.entitySet key.table ∧
      script.IsTableOfFirst s principal.entitySet key.principal := by
  obtain ⟨b, principalSet, dependentSet, hb, hprincipalSet, hdependentSet,
    htable, -, -, hprincipal, -⟩ := ForeignKey.ofRelationship_eq_ok_iff.mp h
  obtain ⟨hc, -, hprincipalEnd, hdependentEnd, -⟩ :=
    Relationship.binding_eq_ok_iff.mp hb
  exact ⟨b.constraint, b.principal, b.dependent, hc,
    Relationship.end?_eq_some_iff.mp hprincipalEnd,
    Relationship.end?_eq_some_iff.mp hdependentEnd,
    isTableOfFirst_of_boundEntitySet htables hdependentSet htable,
    isTableOfFirst_of_boundEntitySet htables hprincipalSet hprincipal⟩

theorem isSelfContained_of_ofSchema {d : Dialect} {s : StoreSchema}
    {script : Script} (h : Script.ofSchema d s = .ok script) :
    script.IsSelfContained := by
  obtain ⟨htables, hforeignKeys⟩ := ofSchema_eq_ok_iff.mp h
  apply isSelfContained_of_isCoherent
  · intro block hblock
    obtain ⟨e, -, he⟩ := exists_argument_mem htables hblock
    exact TableBlock.isCoherent_of_ofEntitySet he
  · intro key hkey
    obtain ⟨r, -, hr⟩ := exists_argument_mem hforeignKeys hkey
    obtain ⟨_, _, _, -, -, -, hdependent, hprincipal⟩ :=
      exists_ends_of_ofRelationship htables hr
    exact ⟨hdependent.exists_block, hprincipal.exists_block⟩

end Script

namespace Generator

theorem scriptText_eq_statements {g : Generator} {s : StoreSchema}
    {text : String} {script : Script}
    (hscript : Script.ofSchema g.dialect s = .ok script)
    (h : g.scriptText (some s) = .ok text) :
    text = g.config.sections
      (script.tables.map fun block =>
        String.join (block.statements.map g.config.statement))
      (script.foreignKeys.map fun key =>
        g.config.statement (.addForeignKey key)) := by
  have hblock : g.config.tableBlock = fun block =>
      String.join (block.statements.map g.config.statement) :=
    funext g.config.tableBlock_eq_join_statements
  rw [scriptText, schemaText, hscript] at h
  obtain rfl : g.config.script script = text := Except.ok.inj h
  rw [Layout.script_eq_sections, hblock]
  rfl

/-- A script is made of supported statements: it creates tables with their keys,
comments on columns, and adds foreign keys.  Its tables have the names of the
tables and the key members of the entity sets of the schema.  A foreign key
leads from the table of the first entity set that bears the name in the first
end of the dependent role, to the table of the one found in the same way for the
principal role. -/
theorem isSelfContained_of_scriptText {g : Generator} {s : StoreSchema}
    {text : String} (h : g.scriptText (some s) = .ok text) :
    let eol := if g.config.lineEnding = .crlf then "\r\n" else "\n"
    ∃ (script : Script) (textOf : Statement → String),
      Script.ofSchema g.dialect s = .ok script ∧
      text =
        "-- Tables" ++ eol ++
          eol.intercalate (script.tables.map fun block =>
            String.join (block.statements.map textOf)) ++ eol ++
          "-- Foreign Key Constraints" ++ eol ++
          eol.intercalate (script.foreignKeys.map fun key =>
            textOf (.addForeignKey key)) ++ eol ++ eol ++ "-- EOF" ∧
      (∀ block, textOf (.recreateTable block) =
        "RECREATE TABLE " ++ block.name.text ++ " (" ++ eol ++
          String.join (block.columns.map fun column =>
            g.config.indent ++ column.name.text ++ " " ++ column.type ++
              (if column.isTruthValue
                then " CHECK (" ++ column.name.text ++ " IN (1,0))" else "") ++
              (if column.nullable then "" else " NOT NULL") ++ "," ++ eol) ++
          "CONSTRAINT " ++ block.keyName.text ++ " PRIMARY KEY (" ++
          ", ".intercalate (block.keyColumns.map Identifier.text) ++ ")" ++
          eol ++ ");" ++ eol) ∧
      (∀ table column marker, textOf (.commentOnColumn table column marker) =
        "COMMENT ON COLUMN " ++ table.text ++ "." ++ column.text ++ " IS '" ++
          marker.text ++ "';" ++ eol) ∧
      (∀ key, textOf (.addForeignKey key) =
        "ALTER TABLE " ++ key.table.text ++ " ADD CONSTRAINT " ++
          key.name.text ++ " FOREIGN KEY (" ++
          ", ".intercalate (key.columns.map Identifier.text) ++ ")" ++ eol ++
          "REFERENCES " ++ key.principal.text ++ "(" ++
          ", ".intercalate (key.principalColumns.map Identifier.text) ++ ")" ++
          eol ++ (if key.deleteRule = .cascade
            then "ON DELETE CASCADE;" else "ON DELETE NO ACTION;")) ∧
      script.IsSelfContained ∧
      List.Forall₂ (fun e block =>
        block.name.name = e.table.getD e.name ∧
        g.dialect.quote (e.table.getD e.name) = .ok block.name.text ∧
        block.keyColumns.map Identifier.name = e.keyMembers ∧
        e.keyMembers.mapM g.dialect.quote =
          .ok (block.keyColumns.map Identifier.text))
        s.entitySets script.tables ∧
      List.Forall₂ (fun r key =>
        ∃ (c : ReferentialConstraint) (principal dependent : RelationshipEnd),
          r.constraints = [c] ∧
          principal.Plays c.principalRole r.ends ∧
          dependent.Plays c.dependentRole r.ends ∧
          script.IsTableOfFirst s dependent.entitySet key.table ∧
          script.IsTableOfFirst s principal.entitySet key.principal)
        s.relationships script.foreignKeys := by
  intro eol
  have heol : g.config.lineEnding.text = eol := LineEnding.text_eq _
  obtain ⟨script, hscript, -⟩ := map_eq_ok_iff.mp h
  obtain ⟨htables, hforeignKeys⟩ := Script.ofSchema_eq_ok_iff.mp hscript
  refine ⟨script, g.config.statement, hscript, ?_, ?_, ?_, ?_,
    Script.isSelfContained_of_ofSchema hscript, ?_, ?_⟩
  · rw [scriptText_eq_statements hscript h, Layout.sections_eq, heol]
  · intro block
    rw [Layout.statement_recreateTable, heol]
  · intro table column marker
    rw [Layout.statement, Layout.comment_eq, heol]
  · intro key
    rw [Layout.statement, Layout.foreignKey_eq, Layout.foreignKeyHead_eq, heol]
    rfl
  · refine (mapM_eq_ok_iff.mp htables).imp ?_
    intro e block hblock
    obtain ⟨keys, hname, -⟩ := TableBlock.ofEntitySet_eq_ok_iff.mp hblock
    obtain ⟨htable, hquote⟩ := Dialect.identifier_eq_ok_iff.mp hname
    exact ⟨htable, hquote, Dialect.mapM_quote_of_mapM_identifier
      (TableBlock.keyColumns_of_ofEntitySet hblock)⟩
  · exact (mapM_eq_ok_iff.mp hforeignKeys).imp fun _ _ =>
      Script.exists_ends_of_ofRelationship htables

/-- A second set of orders has the name of the first one and a table of its own,
and the foreign key still leads from the table of the first one. -/
theorem isSelfContained_of_scriptText_secondOrders :
    ∃ text script lead,
      standard.scriptText (some (Sample.schema.withEntitySet
        (Sample.orders.withTable "ORDER2"))) = .ok text ∧
      Script.ofSchema standard.dialect (Sample.schema.withEntitySet
        (Sample.orders.withTable "ORDER2")) = .ok script ∧
      script.IsSelfContained ∧
      text = lead ++ "-- Foreign Key Constraints" ++ "\n" ++
        ("ALTER TABLE \"ORDER\" ADD CONSTRAINT \"FK_CustomerOrder\"" ++
          " FOREIGN KEY (\"CUSTOMER_ID\")\n" ++
          "REFERENCES \"CUSTOMER\"(\"ID\")\nON DELETE CASCADE;") ++
        "\n" ++ "\n" ++ "-- EOF" := by
  obtain ⟨text, h⟩ : ∃ text, standard.scriptText (some
      (Sample.schema.withEntitySet (Sample.orders.withTable "ORDER2"))) =
      .ok text := ⟨_, rfl⟩
  obtain ⟨script, textOf, hscript, htext, -, -, hkeys, hself, -, -⟩ :=
    isSelfContained_of_scriptText h
  have htexts : script.foreignKeys.map
    (fun key => textOf (.addForeignKey key)) =
      ["ALTER TABLE \"ORDER\" ADD CONSTRAINT \"FK_CustomerOrder\"" ++
        " FOREIGN KEY (\"CUSTOMER_ID\")\n" ++
        "REFERENCES \"CUSTOMER\"(\"ID\")\nON DELETE CASCADE;"] := by
    obtain rfl := Except.ok.inj hscript
    simp only [hkeys]
    decide
  rw [htexts, String.intercalate_singleton] at htext
  exact ⟨text, script, _, h, hscript, hself, htext⟩

end Generator

end FirebirdSchema
