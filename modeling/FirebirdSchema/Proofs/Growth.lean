import FirebirdSchema.Proofs.ForeignKey
import FirebirdSchema.Proofs.Sections
import FirebirdSchema.Sample

/-!
# Growing schemas

A schema grows by a further entity set or a further relationship set at its end.
A name keeps standing for the first set that bears it, so a foreign key that
there was before stays what it was, and the script only gains one table block or
one foreign key at the end of its section.
-/

namespace FirebirdSchema

open Traversal

/-! ## Foreign keys of a grown schema -/

/-- A further entity set is bound only where no set bore its name before. -/
theorem StoreSchema.boundTable_withEntitySet (s : StoreSchema) (e : EntitySet)
    (relationshipEnd : RelationshipEnd) :
    (s.withEntitySet e).boundTable relationshipEnd =
      s.boundTable relationshipEnd ∨
      s.entitySet? e.name = none ∧
        s.boundTable relationshipEnd = .error (.unknownEntitySet e.name) := by
  simp only [boundTable, tableName?, entitySet?_withEntitySet]
  cases hset : s.entitySet? relationshipEnd.entitySet with
  | some set => exact Or.inl rfl
  | none =>
      by_cases hname : e.name = relationshipEnd.entitySet
      · right
        rw [hname]
        exact ⟨hset, rfl⟩
      · left
        rw [if_neg hname]
        rfl

/-- The principal end is bound first, so its fault hides that of the other
end. -/
theorem ForeignKey.ofRelationship_withEntitySet (d : Dialect) (s : StoreSchema)
    (e : EntitySet) (r : Relationship) :
    ForeignKey.ofRelationship d (s.withEntitySet e) r =
      ForeignKey.ofRelationship d s r ∨
      s.entitySet? e.name = none ∧
        ForeignKey.ofRelationship d s r =
          .error (.unknownEntitySet e.name) := by
  rw [ofRelationship_eq, ofRelationship_eq]
  cases r.binding with
  | error fault => exact Or.inl rfl
  | ok b =>
      simp only [ok_bind]
      rcases s.boundTable_withEntitySet e b.principal with hprincipal | ⟨hnew,
        hprincipal⟩
      · rw [hprincipal]
        cases s.boundTable b.principal with
        | error fault => exact Or.inl rfl
        | ok principalTable =>
            simp only [ok_bind]
            rcases s.boundTable_withEntitySet e b.dependent with
              hdependent | ⟨hnew, hdependent⟩
            · left
              rw [hdependent]
            · right
              rw [hdependent]
              exact ⟨hnew, rfl⟩
      · right
        rw [hprincipal]
        exact ⟨hnew, rfl⟩

namespace Generator

variable {g : Generator} {s : StoreSchema}

theorem foreignKeyText_withEntitySet (g : Generator) (s : StoreSchema)
    (e : EntitySet) (r : Relationship) :
    g.foreignKeyText (s.withEntitySet e) r = g.foreignKeyText s r ∨
      s.entitySet? e.name = none ∧
        ∃ fault, g.foreignKeyText s r = .error fault ∧
          fault.root = .unknownEntitySet e.name := by
  simp only [foreignKeyText, StoreSchema.foreignKey]
  rcases ForeignKey.ofRelationship_withEntitySet g.dialect s e r with
    h | ⟨hnew, h⟩
  · left
    rw [h]
  · right
    rw [h]
    exact ⟨hnew, _, rfl, rfl⟩

/-- A foreign key stays what it is when the schema gets a further entity set. -/
theorem foreignKeyText_withEntitySet_of_eq_ok {e : EntitySet} {r : Relationship}
    {text : String} (h : g.foreignKeyText s r = .ok text) :
    g.foreignKeyText (s.withEntitySet e) r = .ok text := by
  rcases g.foreignKeyText_withEntitySet s e r with hsame | ⟨-, fault, hfault, -⟩
  · rw [hsame, h]
  · rw [h] at hfault
    cases hfault

/-! ## Scripts of a grown schema -/

theorem scriptText_withEntitySet {tables foreignKeys : List String}
    (htables : s.entitySets.mapM g.tableText = .ok tables)
    (hforeignKeys : s.relationships.mapM (g.foreignKeyText s) = .ok foreignKeys)
    (e : EntitySet) :
    g.scriptText (some (s.withEntitySet e)) =
      (g.tableText e).map fun table =>
        g.config.tableSection tables ++ g.config.breakAfter s.entitySets ++
          table ++
          g.config.foreignKeySection foreignKeys ++ g.config.closing := by
  have hkept : (s.withEntitySet e).relationships.mapM
    (g.foreignKeyText (s.withEntitySet e)) =
      .ok foreignKeys :=
    mapM_eq_ok_of_imp (fun _ _ => foreignKeyText_withEntitySet_of_eq_ok)
      hforeignKeys
  have hgrown : (s.withEntitySet e).entitySets.mapM g.tableText =
      (g.tableText e).map fun table => tables ++ [table] :=
    mapM_concat htables e
  have hbreak := g.config.breakAfter_eq_of_length (length_of_mapM_eq_ok htables)
  rw [scriptText_some, hgrown, hkept]
  cases g.tableText e with
  | error fault => rfl
  | ok table =>
      refine congrArg Except.ok ?_
      rw [Layout.sections, Layout.tableSection_concat, hbreak]

theorem scriptText_withRelationship {tables foreignKeys : List String}
    (htables : s.entitySets.mapM g.tableText = .ok tables)
    (hforeignKeys : s.relationships.mapM (g.foreignKeyText s) = .ok foreignKeys)
    (r : Relationship) :
    g.scriptText (some (s.withRelationship r)) =
      (g.foreignKeyText s r).map fun foreignKey =>
        g.config.tableSection tables ++
          g.config.foreignKeySection foreignKeys ++
          g.config.breakAfter s.relationships ++ foreignKey ++
          g.config.closing := by
  have hgrown : (s.withRelationship r).relationships.mapM
        (g.foreignKeyText (s.withRelationship r)) =
      (g.foreignKeyText s r).map fun foreignKey =>
        foreignKeys ++ [foreignKey] :=
    mapM_concat hforeignKeys r
  have hkept : (s.withRelationship r).entitySets.mapM g.tableText =
      .ok tables := htables
  have hbreak :=
    g.config.breakAfter_eq_of_length (length_of_mapM_eq_ok hforeignKeys)
  rw [scriptText_some, hgrown, hkept]
  cases g.foreignKeyText s r with
  | error fault => rfl
  | ok foreignKey =>
      refine congrArg Except.ok ?_
      rw [Layout.sections, Layout.foreignKeySection_concat, hbreak]
      simp only [String.append_assoc]

/-- A further entity set changes no foreign key, except where its name was
unknown before.  A further set of either kind puts its own text behind the last
one of its section, after a line ending if there was one, and changes nothing
else; its fault is the fault of the script. -/
theorem scriptText_of_grown_schema (g : Generator) (s : StoreSchema)
    (e : EntitySet) (r : Relationship) :
    (∀ q, g.foreignKeyText (s.withEntitySet e) q = g.foreignKeyText s q ∨
        ∃ fault, g.foreignKeyText s q = .error fault ∧
          fault.root = .unknownEntitySet e.name) ∧
      ((∃ first ∈ s.entitySets, first.name = e.name) →
        ∀ q, g.foreignKeyText (s.withEntitySet e) q = g.foreignKeyText s q) ∧
      ∀ text, g.scriptText (some s) = .ok text →
        ∃ tables foreignKeys, s.entitySets.mapM g.tableText = .ok tables ∧
          s.relationships.mapM (g.foreignKeyText s) = .ok foreignKeys ∧
          text = g.config.tableSection tables ++
            g.config.foreignKeySection foreignKeys ++
            g.config.closing ∧
          g.scriptText (some (s.withEntitySet e)) =
            (g.tableText e).map (fun table =>
              g.config.tableSection tables ++
                g.config.breakAfter s.entitySets ++ table ++
                g.config.foreignKeySection foreignKeys ++ g.config.closing) ∧
          g.scriptText (some (s.withRelationship r)) =
            (g.foreignKeyText s r).map fun foreignKey =>
              g.config.tableSection tables ++
                g.config.foreignKeySection foreignKeys ++
                g.config.breakAfter s.relationships ++ foreignKey ++
                g.config.closing := by
  refine ⟨?_, ?_, ?_⟩
  · intro q
    rcases g.foreignKeyText_withEntitySet s e q with h | ⟨-, h⟩
    · exact Or.inl h
    · exact Or.inr h
  · intro h q
    rcases g.foreignKeyText_withEntitySet s e q with hsame | ⟨hnew, -⟩
    · exact hsame
    · obtain ⟨first, hfirst⟩ := StoreSchema.exists_entitySet?_iff.mpr h
      rw [hnew] at hfirst
      cases hfirst
  · intro text h
    obtain ⟨tables, foreignKeys, htables, hforeignKeys, htext⟩ :=
      scriptText_eq_ok_iff.mp h
    exact ⟨tables, foreignKeys, htables, hforeignKeys, htext.symm,
      scriptText_withEntitySet htables hforeignKeys e,
      scriptText_withRelationship htables hforeignKeys r⟩

/-- A second set of customers gets a table of its own behind the others, and
leaves the foreign key between the first one and the orders as it is. -/
theorem scriptText_of_grown_schema_secondCustomers :
    ∃ tables foreignKeys table,
      standard.scriptText (some Sample.schema) =
        .ok (standard.config.tableSection tables ++
          standard.config.foreignKeySection foreignKeys ++
          standard.config.closing) ∧
      standard.scriptText (some (Sample.schema.withEntitySet
          (.withTable Sample.customers "CUSTOMER2"))) =
        .ok (standard.config.tableSection tables ++ "\n" ++ table ++
          standard.config.foreignKeySection foreignKeys ++
          standard.config.closing) := by
  obtain ⟨text, h⟩ : ∃ text,
      standard.scriptText (some Sample.schema) = .ok text := ⟨_, rfl⟩
  obtain ⟨table, htable⟩ : ∃ table,
      standard.tableText (.withTable Sample.customers "CUSTOMER2") =
        .ok table := ⟨_, rfl⟩
  obtain ⟨-, -, hgrown⟩ := scriptText_of_grown_schema standard Sample.schema
    (.withTable Sample.customers "CUSTOMER2") Sample.customerOrders
  obtain ⟨tables, foreignKeys, -, -, htext, hset, -⟩ := hgrown text h
  rw [htable] at hset
  exact ⟨tables, foreignKeys, table, by rw [h, htext], hset⟩

end Generator

end FirebirdSchema
