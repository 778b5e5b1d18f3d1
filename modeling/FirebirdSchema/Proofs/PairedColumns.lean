import FirebirdSchema.Proofs.SelfContained

/-!
# Paired columns

A foreign key pairs columns of the dependent table with columns of the principal
one, and the two lists are the ones of its constraint.  They have one length,
but nothing looks at the names in them: a constraint without pairs has a foreign
key without columns, and a name that no property bears is written like any
other.  So a foreign key is sound exactly when its constraint pairs declared
columns.
-/

namespace FirebirdSchema

open Traversal

/-! ## Sound foreign keys -/

/-- A table block declares a column of a name. -/
def TableBlock.Declares (block : TableBlock) (name : Identifier) : Prop :=
  ∃ column ∈ block.columns, column.name = name

/-- A foreign key that pairs columns of the two tables it leads between, at
least one pair. -/
structure ForeignKey.IsSoundBetween (key : ForeignKey)
    (table principal : TableBlock) : Prop where
  columns_ne_nil : key.columns ≠ []
  length_eq : key.columns.length = key.principalColumns.length
  column_declared : ∀ name ∈ key.columns, table.Declares name
  principalColumn_declared : ∀ name ∈ key.principalColumns,
    principal.Declares name

/-- An entity set has a property of a name. -/
def EntitySet.HasProperty (e : EntitySet) (name : String) : Prop :=
  ∃ p ∈ e.properties, p.name = name

/-- A constraint that pairs properties of two entity sets, at least one pair. -/
structure ReferentialConstraint.PairsProperties (c : ReferentialConstraint)
    (dependent principal : EntitySet) : Prop where
  dependentColumns_ne_nil : c.dependentColumns ≠ []
  dependentColumn_declared : ∀ name ∈ c.dependentColumns,
    dependent.HasProperty name
  principalColumn_declared : ∀ name ∈ c.principalColumns,
    principal.HasProperty name

section Declared

variable {d : Dialect} {e : EntitySet} {block : TableBlock}

/-- A table block declares the columns of the properties of its entity set and
no others. -/
theorem TableBlock.declares_iff_hasProperty
    (h : TableBlock.ofEntitySet d e = .ok block) {name : String}
    {i : Identifier} (hi : d.identifier name = .ok i) :
    block.Declares i ↔ e.HasProperty name := by
  obtain ⟨-, -, -, hcolumns, -⟩ := TableBlock.ofEntitySet_eq_ok_iff.mp h
  constructor
  · rintro ⟨column, hcolumn, rfl⟩
    obtain ⟨p, hp, hvalue⟩ := exists_argument_mem hcolumns hcolumn
    obtain ⟨hname, -⟩ := Column.ofProperty_eq_ok_iff.mp hvalue
    have hsame := (Dialect.identifier_eq_ok_iff.mp hname).1
    rw [(Dialect.identifier_eq_ok_iff.mp hi).1] at hsame
    exact ⟨p, hp, hsame.symm⟩
  · rintro ⟨p, hp, rfl⟩
    exact Dialect.exists_column_of_identifier hcolumns hp hi

theorem TableBlock.forall_declares_iff
    (h : TableBlock.ofEntitySet d e = .ok block) {names : List String}
    {is : List Identifier} (his : names.mapM d.identifier = .ok is) :
    (∀ i ∈ is, block.Declares i) ↔ ∀ name ∈ names, e.HasProperty name := by
  constructor
  · intro hdeclared name hname
    obtain ⟨i, hmem, hi⟩ := exists_value_mem his hname
    exact (declares_iff_hasProperty h hi).mp (hdeclared i hmem)
  · intro hproperties i hmem
    obtain ⟨name, hname, hi⟩ := exists_argument_mem his hmem
    exact (declares_iff_hasProperty h hi).mpr (hproperties name hname)

end Declared

/-- A foreign key is sound when its constraint pairs properties, and only
then. -/
theorem ForeignKey.isSoundBetween_iff {d : Dialect}
    {dependent principal : EntitySet} {table principalTable : TableBlock}
    {c : ReferentialConstraint} {key : ForeignKey}
    (htable : TableBlock.ofEntitySet d dependent = .ok table)
    (hprincipal : TableBlock.ofEntitySet d principal = .ok principalTable)
    (hlength : key.columns.length = key.principalColumns.length)
    (hcolumns : c.dependentColumns.mapM d.identifier = .ok key.columns)
    (hprincipalColumns : c.principalColumns.mapM d.identifier =
      .ok key.principalColumns) :
    key.IsSoundBetween table principalTable ↔
      c.PairsProperties dependent principal := by
  have hnil := not_congr (eq_nil_iff_of_mapM_eq_ok hcolumns)
  have hdependent := TableBlock.forall_declares_iff htable hcolumns
  have hdeclared := TableBlock.forall_declares_iff hprincipal hprincipalColumns
  constructor
  · intro h
    exact ⟨hnil.mp h.columns_ne_nil, hdependent.mp h.column_declared,
      hdeclared.mp h.principalColumn_declared⟩
  · intro h
    exact ⟨hnil.mpr h.dependentColumns_ne_nil, hlength,
      hdependent.mpr h.dependentColumn_declared,
      hdeclared.mpr h.principalColumn_declared⟩

/-! ## Scripts -/

/-- What the foreign key of a relationship set is to the constraint of the set.
It leads between the tables of the entity sets at the two ends, its lists of
columns have one length, and it is sound exactly when the constraint pairs
properties of the two entity sets. -/
def ForeignKey.IsAsSoundAsConstraint (key : ForeignKey) (d : Dialect)
    (s : StoreSchema) (script : Script) (r : Relationship) : Prop :=
  ∃ b dependent principal table principalTable,
    r.binding = .ok b ∧
      s.boundEntitySet b.dependent = .ok dependent ∧
      s.boundEntitySet b.principal = .ok principal ∧
      table ∈ script.tables ∧ TableBlock.ofEntitySet d dependent = .ok table ∧
      principalTable ∈ script.tables ∧
      TableBlock.ofEntitySet d principal = .ok principalTable ∧
      key.table = table.name ∧ key.principal = principalTable.name ∧
      key.columns.length = key.principalColumns.length ∧
      (key.IsSoundBetween table principalTable ↔
        b.constraint.PairsProperties dependent principal)

/-- The block of the entity set that is bound to an end of a relationship
set. -/
theorem Script.exists_table_of_boundEntitySet {d : Dialect} {s : StoreSchema}
    {script : Script}
    (htables : s.entitySets.mapM (TableBlock.ofEntitySet d) = .ok script.tables)
    {relationshipEnd : RelationshipEnd} {e : EntitySet}
    (he : s.boundEntitySet relationshipEnd = .ok e) {i : Identifier}
    (hi : d.identifier e.tableName = .ok i) :
    ∃ table ∈ script.tables, TableBlock.ofEntitySet d e = .ok table ∧
      i = table.name := by
  have hfound := StoreSchema.boundEntitySet_eq_ok_iff.mp he
  have hmem := StoreSchema.mem_entitySets_of_entitySet? hfound
  obtain ⟨table, htable, hblock⟩ := exists_value_mem htables hmem
  obtain ⟨keys, hname, -⟩ := TableBlock.ofEntitySet_eq_ok_iff.mp hblock
  rw [hi] at hname
  exact ⟨table, htable, hblock, Except.ok.inj hname⟩

theorem Script.isAsSoundAsConstraint_of_ofRelationship {d : Dialect}
    {s : StoreSchema} {script : Script}
    (htables : s.entitySets.mapM (TableBlock.ofEntitySet d) = .ok script.tables)
    {r : Relationship} {key : ForeignKey}
    (h : ForeignKey.ofRelationship d s r = .ok key) :
    key.IsAsSoundAsConstraint d s script r := by
  obtain ⟨b, principal, dependent, hb, hprincipal, hdependent, htable, -,
    hcolumns, hprincipalTable, hprincipalColumns, -⟩ :=
    ForeignKey.ofRelationship_eq_ok_iff.mp h
  obtain ⟨table, hmem, hblock, hname⟩ :=
    exists_table_of_boundEntitySet htables hdependent htable
  obtain ⟨principalTable, hmemPrincipal, hblockPrincipal, hnamePrincipal⟩ :=
    exists_table_of_boundEntitySet htables hprincipal hprincipalTable
  have hlength : key.columns.length = key.principalColumns.length := by
    obtain ⟨-, harity, -⟩ := Relationship.binding_eq_ok_iff.mp hb
    rw [length_of_mapM_eq_ok hcolumns, length_of_mapM_eq_ok hprincipalColumns,
      harity]
  exact ⟨b, dependent, principal, table, principalTable, hb, hdependent,
    hprincipal, hmem, hblock, hmemPrincipal, hblockPrincipal, hname,
    hnamePrincipal, hlength,
    ForeignKey.isSoundBetween_iff hblock hblockPrincipal hlength hcolumns
      hprincipalColumns⟩

namespace Generator

/-- Every foreign key of a script is as sound as the constraint that it comes
from.  The tables of the script declare their columns line by line, and the
foreign keys list theirs in two clauses. -/
theorem isAsSoundAsConstraint_of_scriptText {g : Generator} {s : StoreSchema}
    {text : String} (h : g.scriptText (some s) = .ok text) :
    let eol := if g.config.lineEnding = .crlf then "\r\n" else "\n"
    ∃ (script : Script) (tableText : TableBlock → String)
        (keyText : ForeignKey → String),
      Script.ofSchema g.dialect s = .ok script ∧
      text =
        "-- Tables" ++ eol ++ eol.intercalate (script.tables.map tableText) ++
          eol ++ "-- Foreign Key Constraints" ++ eol ++
          eol.intercalate (script.foreignKeys.map keyText) ++ eol ++ eol ++
          "-- EOF" ∧
      (∀ table, ∃ rest, tableText table =
        "RECREATE TABLE " ++ table.name.text ++ " (" ++ eol ++
          String.join (table.columns.map fun column =>
            g.config.indent ++ column.name.text ++ " " ++ column.type ++
              (if column.isTruthValue
                then " CHECK (" ++ column.name.text ++ " IN (1,0))" else "") ++
              (if column.nullable then "" else " NOT NULL") ++ "," ++ eol) ++
          ("CONSTRAINT " ++ rest)) ∧
      (∀ key, keyText key =
        "ALTER TABLE " ++ key.table.text ++ " ADD CONSTRAINT " ++
          key.name.text ++ " FOREIGN KEY (" ++
          ", ".intercalate (key.columns.map Identifier.text) ++ ")" ++ eol ++
          "REFERENCES " ++ key.principal.text ++ "(" ++
          ", ".intercalate (key.principalColumns.map Identifier.text) ++ ")" ++
          eol ++ (if key.deleteRule = .cascade
            then "ON DELETE CASCADE;" else "ON DELETE NO ACTION;")) ∧
      List.Forall₂
        (fun r key => key.IsAsSoundAsConstraint g.dialect s script r)
        s.relationships script.foreignKeys := by
  intro eol
  have heol : g.config.lineEnding.text = eol := LineEnding.text_eq _
  obtain ⟨script, hscript, htext⟩ := map_eq_ok_iff.mp h
  obtain ⟨htables, hforeignKeys⟩ := Script.ofSchema_eq_ok_iff.mp hscript
  refine ⟨script, g.config.tableBlock, g.config.foreignKey, hscript, ?_, ?_, ?_,
    (mapM_eq_ok_iff.mp hforeignKeys).imp ?_⟩
  · rw [← htext, Layout.script_eq_sections, Layout.sections_eq, heol]
  · intro table
    rw [Layout.tableBlock_eq, heol]
    simp only [String.append_assoc]
    exact ⟨_, rfl⟩
  · intro key
    rw [Layout.foreignKey_eq, Layout.foreignKeyHead_eq, heol]
    rfl
  · intro r key hkey
    exact Script.isAsSoundAsConstraint_of_ofRelationship htables hkey

/-- The foreign key between the sample tables is sound. -/
theorem isAsSoundAsConstraint_of_scriptText_sample :
    ∃ text script key table principalTable,
      standard.scriptText (some Sample.schema) = .ok text ∧
        Script.ofSchema standard.dialect Sample.schema = .ok script ∧
        key ∈ script.foreignKeys ∧ table ∈ script.tables ∧
        principalTable ∈ script.tables ∧
        key.IsSoundBetween table principalTable := by
  obtain ⟨text, h⟩ : ∃ text,
      standard.scriptText (some Sample.schema) = .ok text := ⟨_, rfl⟩
  obtain ⟨script, -, -, hscript, -, -, -, hkeys⟩ :=
    isAsSoundAsConstraint_of_scriptText h
  obtain ⟨key, rest, hkey, -, hsplit⟩ := List.forall₂_cons_left_iff.mp hkeys
  obtain ⟨b, dependent, principal, table, principalTable, hb, hdependent,
    hprincipal, htable, -, hprincipalTable, -, -, -, -, hsound⟩ := hkey
  obtain rfl := Except.ok.inj hb
  obtain rfl := Except.ok.inj hdependent
  obtain rfl := Except.ok.inj hprincipal
  refine ⟨text, script, key, table, principalTable, h, hscript, ?_, htable,
    hprincipalTable, hsound.mpr ⟨?_, ?_, ?_⟩⟩
  · rw [hsplit]
    exact List.mem_cons_self
  · decide
  · simp only [EntitySet.HasProperty]
    decide
  · simp only [EntitySet.HasProperty]
    decide

end Generator

/-- Customers and orders, with a relationship set whose constraint pairs the
given columns. -/
def Sample.pairing (principalColumns dependentColumns : List String) :
    StoreSchema :=
  { Sample.schema with
    relationships := [{ Sample.customerOrders with
      constraints := [{
        principalRole := "Customer", dependentRole := "Order"
        principalColumns, dependentColumns }] }] }

/-- A foreign key of a script may have no columns, and its columns may be
columns of no table. -/
theorem Generator.exists_scriptText_of_unsoundKeys :
    (∃ text script key,
      standard.scriptText (some (Sample.pairing [] [])) = .ok text ∧
        Script.ofSchema standard.dialect (Sample.pairing [] []) = .ok script ∧
        key ∈ script.foreignKeys ∧ key.columns = [] ∧
        standard.config.foreignKey key =
          "ALTER TABLE \"ORDER\" ADD CONSTRAINT \"FK_CustomerOrder\"" ++
            " FOREIGN KEY ()\nREFERENCES \"CUSTOMER\"()\nON DELETE CASCADE;") ∧
      ∃ text script key name,
        standard.scriptText (some (Sample.pairing ["ID"] ["GHOST_ID"])) =
          .ok text ∧
          Script.ofSchema standard.dialect
            (Sample.pairing ["ID"] ["GHOST_ID"]) = .ok script ∧
          key ∈ script.foreignKeys ∧ name ∈ key.columns ∧
          ∀ table ∈ script.tables, ¬table.Declares name := by
  constructor
  · exact ⟨_, _, _, rfl, rfl, List.mem_cons_self, rfl, by decide⟩
  · refine ⟨_, _, _, _, rfl, rfl, List.mem_cons_self, List.mem_cons_self, ?_⟩
    simp only [TableBlock.Declares]
    decide

end FirebirdSchema
