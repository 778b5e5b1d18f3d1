import FirebirdSchema.Proofs.Table

/-!
# Foreign keys in any dialect

The foreign key of a relationship set is built in three stages: its only
constraint is bound to two ends, the ends are bound to entity sets, and five
groups of names are written.  This module says what each stage gives when it
succeeds.
-/

namespace FirebirdSchema

open Traversal

/-! ## What roles and names stand for -/

/-- The end is the first one of `ends` that plays a role. -/
def RelationshipEnd.Plays (e : RelationshipEnd) (role : String)
    (ends : List RelationshipEnd) : Prop :=
  IsFirst (fun other => other.role = role) ends e

theorem Relationship.end?_eq_some_iff {r : Relationship} {role : String}
    {e : RelationshipEnd} : r.end? role = some e ↔ e.Plays role r.ends :=
  find?_eq_some_iff_isFirst

theorem StoreSchema.boundEntitySet_eq_ok_iff_isFirst {s : StoreSchema}
    {e : RelationshipEnd} {set : EntitySet} :
    s.boundEntitySet e = .ok set ↔
      IsFirst (fun other => other.name = e.entitySet) s.entitySets set := by
  rw [boundEntitySet_eq_ok_iff]
  exact find?_eq_some_iff_isFirst

/-! ## Binding a relationship set -/

namespace Relationship

theorem binding_eq_ok_iff {r : Relationship} {b : Binding} :
    r.binding = .ok b ↔
      r.constraints = [b.constraint] ∧
        b.constraint.principalColumns.length =
          b.constraint.dependentColumns.length ∧
        r.end? b.constraint.principalRole = some b.principal ∧
        r.end? b.constraint.dependentRole = some b.dependent ∧
        b.name = r.name := by
  simp only [binding, bind_eq_ok_iff, constraint_eq_ok_iff]
  constructor
  · intro h
    obtain ⟨c, hc, h⟩ := h
    split at h
    · obtain ⟨_, hthrow, -⟩ := bind_eq_ok_iff.mp h
      cases hthrow
    · rename_i hlength
      simp only [bind_eq_ok_iff, pure_eq_ok_iff, endOf_eq_ok_iff] at h
      obtain ⟨principal, hprincipal, dependent, hdependent, rfl⟩ := h
      exact ⟨hc, not_not.mp hlength, hprincipal, hdependent, rfl⟩
  · intro h
    obtain ⟨hc, hlength, hprincipal, hdependent, hname⟩ := h
    refine ⟨b.constraint, hc, ?_⟩
    rw [if_neg (not_not.mpr hlength)]
    simp only [bind_eq_ok_iff, pure_eq_ok_iff, endOf_eq_ok_iff]
    exact ⟨b.principal, hprincipal, b.dependent, hdependent, by rw [← hname]⟩

end Relationship

/-! ## The foreign key -/

namespace ForeignKey

theorem ofRelationship_eq_ok_iff {d : Dialect} {s : StoreSchema}
    {r : Relationship} {key : ForeignKey} :
    ForeignKey.ofRelationship d s r = .ok key ↔
      ∃ b principalSet dependentSet, r.binding = .ok b ∧
        s.boundEntitySet b.principal = .ok principalSet ∧
        s.boundEntitySet b.dependent = .ok dependentSet ∧
        d.identifier dependentSet.tableName = .ok key.table ∧
        d.identifier ("FK_" ++ b.name) = .ok key.name ∧
        b.constraint.dependentColumns.mapM d.identifier = .ok key.columns ∧
        d.identifier principalSet.tableName = .ok key.principal ∧
        b.constraint.principalColumns.mapM d.identifier =
          .ok key.principalColumns ∧
        key.deleteRule = b.principal.deleteRule := by
  simp only [ofRelationship, bind_eq_ok_iff, pure_eq_ok_iff]
  constructor
  · intro h
    obtain ⟨b, hb, principalSet, hprincipalSet, dependentSet, hdependentSet,
      table, htable, name, hname, columns, hcolumns, principal, hprincipal,
      principalColumns, hprincipalColumns, rfl⟩ := h
    exact ⟨b, principalSet, dependentSet, hb, hprincipalSet, hdependentSet,
      htable, hname, hcolumns, hprincipal, hprincipalColumns, rfl⟩
  · intro h
    obtain ⟨b, principalSet, dependentSet, hb, hprincipalSet, hdependentSet,
      htable, hname, hcolumns, hprincipal, hprincipalColumns, hrule⟩ := h
    exact ⟨b, hb, principalSet, hprincipalSet, dependentSet, hdependentSet,
      key.table, htable, key.name, hname, key.columns, hcolumns, key.principal,
      hprincipal, key.principalColumns, hprincipalColumns, by rw [← hrule]⟩

/-- The names that the foreign key of a bound relationship set writes. -/
theorem exists_ofRelationship_iff {d : Dialect} {s : StoreSchema}
    {r : Relationship} :
    (∃ key, ForeignKey.ofRelationship d s r = .ok key) ↔
      ∃ b principalSet dependentSet, r.binding = .ok b ∧
        s.boundEntitySet b.principal = .ok principalSet ∧
        s.boundEntitySet b.dependent = .ok dependentSet ∧
        ∀ name ∈ dependentSet.tableName :: ("FK_" ++ b.name) ::
            principalSet.tableName ::
            (b.constraint.dependentColumns ++ b.constraint.principalColumns),
          ∃ text, d.quote name = .ok text := by
  simp only [List.forall_mem_cons, List.forall_mem_append,
    ← Dialect.exists_identifier_iff, ← exists_mapM_eq_ok_iff]
  constructor
  · intro h
    obtain ⟨key, h⟩ := h
    obtain ⟨b, principalSet, dependentSet, hb, hprincipalSet, hdependentSet,
      htable, hname, hcolumns, hprincipal, hprincipalColumns, -⟩ :=
      ofRelationship_eq_ok_iff.mp h
    exact ⟨b, principalSet, dependentSet, hb, hprincipalSet, hdependentSet,
      ⟨_, htable⟩, ⟨_, hname⟩, ⟨_, hprincipal⟩, ⟨_, hcolumns⟩,
      ⟨_, hprincipalColumns⟩⟩
  · intro h
    obtain ⟨b, principalSet, dependentSet, hb, hprincipalSet, hdependentSet,
      ⟨table, htable⟩, ⟨name, hname⟩, ⟨principal, hprincipal⟩,
      ⟨columns, hcolumns⟩, ⟨principalColumns, hprincipalColumns⟩⟩ := h
    exact ⟨⟨table, name, columns, principal, principalColumns,
      b.principal.deleteRule⟩, ofRelationship_eq_ok_iff.mpr ⟨b, principalSet,
      dependentSet, hb, hprincipalSet, hdependentSet, htable, hname, hcolumns,
      hprincipal, hprincipalColumns, rfl⟩⟩

end ForeignKey

/-! ## Bound tables -/

theorem StoreSchema.exists_entitySet?_iff {s : StoreSchema} {name : String} :
    (∃ e, s.entitySet? name = some e) ↔ ∃ e ∈ s.entitySets, e.name = name := by
  rw [← Option.isSome_iff_exists, StoreSchema.entitySet?, List.find?_isSome]
  simp

/-- The name of the table of the first entity set of a name. -/
def StoreSchema.tableName? (s : StoreSchema) (name : String) : Option String :=
  (s.entitySet? name).map EntitySet.tableName

/-- The name of the table to which a relationship end is bound. -/
def StoreSchema.boundTable (s : StoreSchema) (e : RelationshipEnd) :
    Except Fault String :=
  match s.tableName? e.entitySet with
  | some table => .ok table
  | none => .error (.unknownEntitySet e.entitySet)

theorem StoreSchema.bind_boundEntitySet {α : Type} (s : StoreSchema)
    (e : RelationshipEnd) (next : String → Except Fault α) :
    (s.boundEntitySet e >>= fun set => next set.tableName) =
      s.boundTable e >>= next := by
  unfold boundEntitySet boundTable tableName?
  cases s.entitySet? e.entitySet <;> rfl

/-- The foreign key of a bound relationship set between two tables. -/
def ForeignKey.ofBinding (d : Dialect) (b : Binding)
    (principalTable dependentTable : String) :
    Except Fault ForeignKey := do
  let table ← d.identifier dependentTable
  let name ← d.identifier ("FK_" ++ b.name)
  let columns ← b.constraint.dependentColumns.mapM d.identifier
  let principal ← d.identifier principalTable
  let principalColumns ← b.constraint.principalColumns.mapM d.identifier
  return {
    table, name, columns, principal, principalColumns,
      deleteRule := b.principal.deleteRule }

/-- A foreign key depends on the schema by the names of two tables only. -/
theorem ForeignKey.ofRelationship_eq (d : Dialect) (s : StoreSchema)
    (r : Relationship) :
    ForeignKey.ofRelationship d s r =
      r.binding >>= fun b =>
        s.boundTable b.principal >>= fun principalTable =>
          s.boundTable b.dependent >>= fun dependentTable =>
            ForeignKey.ofBinding d b principalTable dependentTable := by
  simp only [← StoreSchema.bind_boundEntitySet]
  rfl

/-! ## The script -/

namespace Script

theorem ofSchema_eq_ok_iff {d : Dialect} {s : StoreSchema} {script : Script} :
    Script.ofSchema d s = .ok script ↔
      s.entitySets.mapM (TableBlock.ofEntitySet d) = .ok script.tables ∧
        s.relationships.mapM (ForeignKey.ofRelationship d s) =
          .ok script.foreignKeys := by
  simp only [ofSchema, bind_eq_ok_iff, pure_eq_ok_iff, mapM_eq_ok_iff,
    EntitySet.tableBlock, StoreSchema.foreignKey, Fault.attributeToEntitySet,
    Fault.attributeToRelationshipSet, mapError_eq_ok_iff]
  constructor
  · intro h
    obtain ⟨tables, htables, foreignKeys, hforeignKeys, rfl⟩ := h
    exact ⟨htables, hforeignKeys⟩
  · intro h
    obtain ⟨htables, hforeignKeys⟩ := h
    exact ⟨script.tables, htables, script.foreignKeys, hforeignKeys, rfl⟩

theorem exists_ofSchema_iff {d : Dialect} {s : StoreSchema} :
    (∃ script, Script.ofSchema d s = .ok script) ↔
      (∀ e ∈ s.entitySets, ∃ block, TableBlock.ofEntitySet d e = .ok block) ∧
        ∀ r ∈ s.relationships, ∃ key,
          ForeignKey.ofRelationship d s r = .ok key := by
  simp only [ofSchema_eq_ok_iff, ← exists_mapM_eq_ok_iff]
  constructor
  · intro h
    obtain ⟨script, htables, hforeignKeys⟩ := h
    exact ⟨⟨script.tables, htables⟩, script.foreignKeys, hforeignKeys⟩
  · intro h
    obtain ⟨⟨tables, htables⟩, foreignKeys, hforeignKeys⟩ := h
    exact ⟨⟨tables, foreignKeys⟩, htables, hforeignKeys⟩

end Script

end FirebirdSchema
