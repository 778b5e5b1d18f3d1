import FirebirdSchema.Generator
import FirebirdSchema.Proofs.ForeignKey

/-!
# What a script says

A script says which tables there are, with their columns, keys and comments, and
which foreign keys there are between them.  This content of a schema is stated
here without any written name, and a script for a Firebird server turns out to
be its content with every name between double quotes.
-/

namespace FirebirdSchema

open Traversal

/-- What a script says about a column. -/
structure ColumnContent where
  name : String
  type : ColumnType
  /-- Whether the column stands for a truth value. -/
  isTruthValue : Bool
  nullable : Bool
  deriving DecidableEq

/-- What a script says about a table. -/
structure TableContent where
  name : String
  columns : List ColumnContent
  keyMembers : List String
  /-- The commented columns, each with its marker. -/
  comments : List (String × Marker)
  deriving DecidableEq

/-- What a script says about a relationship set. -/
structure ForeignKeyContent where
  /-- The name of the relationship set. -/
  name : String
  /-- The table that refers. -/
  table : String
  columns : List String
  /-- The table that is referred to. -/
  principal : String
  principalColumns : List String
  deleteRule : DeleteRule
  deriving DecidableEq

/-- What a script says. -/
structure SchemaContent where
  tables : List TableContent
  foreignKeys : List ForeignKeyContent
  deriving DecidableEq

/-! ## The content of a schema -/

/-- What a script for a server says about a property. -/
def Property.content (f : Firebird) (p : Property) :
    Except Fault ColumnContent := do
  let type ← f.columnType p.kind p.facets
  return { name := p.name, type
           isTruthValue := p.kind = .boolean
           nullable := p.nullable }

/-- What a script for a server says about an entity set. -/
def EntitySet.content (f : Firebird) (e : EntitySet) :
    Except Fault TableContent := do
  let keys ← e.keyProperties
  let columns ← e.properties.mapM (Property.content f)
  return {
    name := e.tableName, columns, keyMembers := e.keyMembers
    comments := (Markers.ofProperties e.properties keys).entries }

/-- What a script says about a relationship set of a schema. -/
def StoreSchema.relationshipContent (s : StoreSchema) (r : Relationship) :
    Except Fault ForeignKeyContent := do
  let b ← r.binding
  let principalSet ← s.boundEntitySet b.principal
  let dependentSet ← s.boundEntitySet b.dependent
  return {
    name := r.name
    table := dependentSet.tableName, columns := b.constraint.dependentColumns
    principal := principalSet.tableName,
      principalColumns := b.constraint.principalColumns
    deleteRule := b.principal.deleteRule }

/-- What a script for a server says about a schema. -/
def StoreSchema.content (f : Firebird) (s : StoreSchema) :
    Except Fault SchemaContent := do
  let tables ← s.entitySets.mapM (EntitySet.content f)
  let foreignKeys ← s.relationships.mapM s.relationshipContent
  return { tables, foreignKeys }

theorem StoreSchema.length_content {f : Firebird} {s : StoreSchema}
    {c : SchemaContent} (h : s.content f = .ok c) :
    c.tables.length = s.entitySets.length ∧
      c.foreignKeys.length = s.relationships.length := by
  obtain ⟨tables, htables, hrest⟩ := bind_eq_ok_iff.mp h
  obtain ⟨foreignKeys, hforeignKeys, hcontent⟩ := bind_eq_ok_iff.mp hrest
  obtain rfl := Except.ok.inj hcontent
  exact ⟨length_of_mapM_eq_ok htables, length_of_mapM_eq_ok hforeignKeys⟩

/-! ## The script of a content -/

/-- A name between double quotes. -/
def Identifier.quoted (name : String) : Identifier :=
  { name, text := Text.Quoted.quote name }

/-- The column that a content describes. -/
def ColumnContent.column (c : ColumnContent) : Column :=
  { name := .quoted c.name, type := c.type.sql, isTruthValue := c.isTruthValue
    nullable := c.nullable }

/-- A commented column with its name between double quotes. -/
def Identifier.quotedComment (entry : String × Marker) : Identifier × Marker :=
  (.quoted entry.1, entry.2)

/-- The table block that a content describes. -/
def TableContent.block (t : TableContent) : TableBlock :=
  { name := .quoted t.name
    columns := t.columns.map ColumnContent.column
    keyName := .quoted ("PK_" ++ t.name)
    keyColumns := t.keyMembers.map .quoted
    comments := t.comments.map Identifier.quotedComment }

/-- The foreign key that a content describes. -/
def ForeignKeyContent.foreignKey (k : ForeignKeyContent) : ForeignKey :=
  { table := .quoted k.table
    name := .quoted ("FK_" ++ k.name)
    columns := k.columns.map .quoted
    principal := .quoted k.principal
    principalColumns := k.principalColumns.map .quoted
    deleteRule := k.deleteRule }

/-- The script that a content describes. -/
def SchemaContent.script (c : SchemaContent) : Script :=
  { tables := c.tables.map TableContent.block
    foreignKeys := c.foreignKeys.map ForeignKeyContent.foreignKey }

/-! ## A successful script is the script of the content -/

variable {f : Firebird}

theorem Firebird.eq_quoted_of_identifier {name : String} {i : Identifier}
    (h : f.dialect.identifier name = .ok i) : Identifier.quoted name = i := by
  obtain ⟨rfl, htext⟩ := Dialect.identifier_eq_ok_iff.mp h
  obtain ⟨-, -, htext⟩ := Firebird.quote_eq_ok_iff.mp htext
  rw [Identifier.quoted, ← htext]

theorem Firebird.eq_map_quoted_of_mapM {names : List String}
    {is : List Identifier} (h : names.mapM f.dialect.identifier = .ok is) :
    names.map Identifier.quoted = is :=
  (eq_map_of_mapM_eq_ok (fun _ _ _ hi => (eq_quoted_of_identifier hi).symm)
    h).symm

theorem Column.exists_content {p : Property} {column : Column}
    (h : Column.ofProperty f.dialect p = .ok column) :
    ∃ c, p.content f = .ok c ∧ c.column = column := by
  obtain ⟨hname, htype, htruth, hnullable⟩ := Column.ofProperty_eq_ok_iff.mp h
  obtain ⟨type, htype, hsql⟩ := map_eq_ok_iff.mp htype
  refine ⟨⟨p.name, type, decide (p.kind = .boolean), p.nullable⟩, ?_, ?_⟩
  · exact bind_eq_ok_iff.mpr ⟨type, htype, rfl⟩
  · simp only [ColumnContent.column]
    rw [Firebird.eq_quoted_of_identifier hname, hsql, ← htruth, ← hnullable]

theorem TableBlock.exists_content {e : EntitySet} {block : TableBlock}
    (h : TableBlock.ofEntitySet f.dialect e = .ok block) :
    ∃ t, e.content f = .ok t ∧ t.block = block := by
  obtain ⟨keys, hname, hkeys, hcolumns, hkeyName, hkeyColumns, hcomments⟩ :=
    TableBlock.ofEntitySet_eq_ok_iff.mp h
  obtain ⟨columns, hcontents, hcolumns⟩ :=
    exists_mapM_map_eq (fun _ _ _ => Column.exists_content) hcolumns
  have hkeyColumns : keys.map (fun p => Identifier.quoted p.name) =
      block.keyColumns :=
    (eq_map_of_mapM_eq_ok
      (fun _ _ _ hi => (Firebird.eq_quoted_of_identifier hi).symm)
      hkeyColumns).symm
  have hcomments : (Markers.ofProperties e.properties keys).entries.map
      Identifier.quotedComment = block.comments := by
    refine (eq_map_of_mapM_eq_ok ?_ hcomments).symm
    intro entry _ comment hcomment
    obtain ⟨hi, hmarker⟩ := Dialect.commentedColumn_eq_ok_iff.mp hcomment
    rw [Identifier.quotedComment, Firebird.eq_quoted_of_identifier hi,
      ← hmarker]
  refine ⟨⟨e.tableName, columns, e.keyMembers,
    (Markers.ofProperties e.properties keys).entries⟩, ?_, ?_⟩
  · exact bind_eq_ok_iff.mpr ⟨keys, hkeys,
      bind_eq_ok_iff.mpr ⟨columns, hcontents, rfl⟩⟩
  · simp only [TableContent.block]
    rw [Firebird.eq_quoted_of_identifier hname, hcolumns,
      Firebird.eq_quoted_of_identifier hkeyName, hcomments,
      ← EntitySet.map_name_keyProperties hkeys, List.map_map]
    exact congrArg (fun ks => { block with keyColumns := ks }) hkeyColumns

theorem ForeignKey.exists_content {s : StoreSchema} {r : Relationship}
    {key : ForeignKey} (h : ForeignKey.ofRelationship f.dialect s r = .ok key) :
    ∃ k, s.relationshipContent r = .ok k ∧ k.foreignKey = key := by
  obtain ⟨b, principalSet, dependentSet, hb, hprincipalSet, hdependentSet,
    htable, hname, hcolumns, hprincipal, hprincipalColumns,
    hrule⟩ := ForeignKey.ofRelationship_eq_ok_iff.mp h
  obtain ⟨-, -, -, -, hbname⟩ := Relationship.binding_eq_ok_iff.mp hb
  refine ⟨⟨r.name, dependentSet.tableName, b.constraint.dependentColumns,
    principalSet.tableName, b.constraint.principalColumns,
    b.principal.deleteRule⟩, ?_, ?_⟩
  · exact bind_eq_ok_iff.mpr ⟨b, hb,
      bind_eq_ok_iff.mpr ⟨principalSet, hprincipalSet,
        bind_eq_ok_iff.mpr ⟨dependentSet, hdependentSet, rfl⟩⟩⟩
  · simp only [ForeignKeyContent.foreignKey]
    rw [Firebird.eq_quoted_of_identifier htable, ← hbname,
      Firebird.eq_quoted_of_identifier hname,
      Firebird.eq_map_quoted_of_mapM hcolumns,
      Firebird.eq_quoted_of_identifier hprincipal,
      Firebird.eq_map_quoted_of_mapM hprincipalColumns, ← hrule]

theorem Script.exists_content {s : StoreSchema} {script : Script}
    (h : Script.ofSchema f.dialect s = .ok script) :
    ∃ c, s.content f = .ok c ∧ c.script = script := by
  obtain ⟨htables, hforeignKeys⟩ := Script.ofSchema_eq_ok_iff.mp h
  obtain ⟨tables, htableContents, htables⟩ :=
    exists_mapM_map_eq (fun _ _ _ => TableBlock.exists_content) htables
  obtain ⟨foreignKeys, hkeyContents, hforeignKeys⟩ :=
    exists_mapM_map_eq (fun _ _ _ => ForeignKey.exists_content) hforeignKeys
  refine ⟨⟨tables, foreignKeys⟩, ?_, ?_⟩
  · exact bind_eq_ok_iff.mpr ⟨tables, htableContents,
      bind_eq_ok_iff.mpr ⟨foreignKeys, hkeyContents, rfl⟩⟩
  · simp only [SchemaContent.script, htables, hforeignKeys]

/-- The text of a script for a Firebird server is the layout of the content of
its schema. -/
theorem Generator.exists_content_of_scriptText {config : Config}
    {s : StoreSchema} {text : String}
    (h : Generator.scriptText ⟨config, f.dialect⟩ (some s) = .ok text) :
    ∃ c, s.content f = .ok c ∧ Script.ofSchema f.dialect s = .ok c.script ∧
      config.script c.script = text := by
  obtain ⟨script, hscript, rfl⟩ := map_eq_ok_iff.mp h
  obtain ⟨c, hc, rfl⟩ := Script.exists_content hscript
  exact ⟨c, hc, hscript, rfl⟩

end FirebirdSchema
