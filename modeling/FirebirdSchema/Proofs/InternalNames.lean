import FirebirdSchema.Proofs.Reordering
import FirebirdSchema.Proofs.ServerFaults
import Mathlib.Logic.Embedding.Basic

/-!
# Names that a script does not write

Roles tie the constraint of a relationship set to its ends, and the names of
entity sets tie the ends to entity sets.  A script holds no role, and the name
of an entity set only where the set names no table.  So these names may be
replaced by others, as long as different names stay different: the script stays
what it is, and a fault changes only in the replaced names.
-/

namespace FirebirdSchema

open Traversal

/-! ## Renamings -/

/-- A replacement of roles and of names of entity sets that keeps different
names different. -/
structure Renaming where
  role : String ↪ String
  set : String ↪ String

/-- The renaming that replaces roles only. -/
def Renaming.ofRoles (role : String ↪ String) : Renaming :=
  { role, set := .refl String }

/-- A relationship end with its role and its entity set renamed. -/
def RelationshipEnd.rename (ρ : Renaming) (e : RelationshipEnd) :
    RelationshipEnd :=
  { e with role := ρ.role e.role, entitySet := ρ.set e.entitySet }

/-- A constraint with its roles renamed. -/
def ReferentialConstraint.rename (ρ : Renaming) (c : ReferentialConstraint) :
    ReferentialConstraint :=
  { c with
    principalRole := ρ.role c.principalRole
    dependentRole := ρ.role c.dependentRole }

/-- A relationship set with the names in its ends and constraints renamed; it
keeps its own name. -/
def Relationship.rename (ρ : Renaming) (r : Relationship) : Relationship :=
  { r with
    ends := r.ends.map (.rename ρ)
    constraints := r.constraints.map (.rename ρ) }

/-- A binding with the names in its ends and its constraint renamed. -/
def Binding.rename (ρ : Renaming) (b : Binding) : Binding :=
  { b with
    principal := b.principal.rename ρ
    dependent := b.dependent.rename ρ
    constraint := b.constraint.rename ρ }

/-- An entity set with its name renamed; it keeps a table name of its own. -/
def EntitySet.rename (ρ : Renaming) (e : EntitySet) : EntitySet :=
  { e with name := ρ.set e.name }

/-- A schema with roles and names of entity sets renamed wherever they occur. -/
def StoreSchema.rename (ρ : Renaming) (s : StoreSchema) : StoreSchema :=
  { entitySets := s.entitySets.map (.rename ρ),
    relationships := s.relationships.map (.rename ρ) }

/-- A fault with the role and the names of entity sets that it mentions
renamed. -/
def Fault.rename (ρ : Renaming) : Fault → Fault
  | unknownRole role => unknownRole (ρ.role role)
  | unknownEntitySet name => unknownEntitySet (ρ.set name)
  | inEntitySet name cause => inEntitySet (ρ.set name) (cause.rename ρ)
  | inRelationshipSet name cause => inRelationshipSet name (cause.rename ρ)
  | fault => fault

/-! ## Faults that mention no renamed name -/

theorem Fault.attributeToEntitySet_rename {α : Type} (ρ : Renaming)
    (name : String) (x : Except Fault α) :
    Fault.attributeToEntitySet (ρ.set name) (x.mapError (.rename ρ)) =
      (Fault.attributeToEntitySet name x).mapError (.rename ρ) := by
  cases x <;> rfl

theorem Fault.attributeToRelationshipSet_rename {α : Type} (ρ : Renaming)
    (name : String) (x : Except Fault α) :
    Fault.attributeToRelationshipSet name (x.mapError (.rename ρ)) =
      (Fault.attributeToRelationshipSet name x).mapError (.rename ρ) := by
  cases x <;> rfl

theorem EntitySet.mapError_keyProperties (ρ : Renaming) (e : EntitySet) :
    e.keyProperties.mapError (.rename ρ) = e.keyProperties := by
  have hmember : ∀ member, (e.keyProperty member).mapError (.rename ρ) =
      e.keyProperty member := by
    intro member
    unfold keyProperty
    split <;> rfl
  unfold keyProperties
  split
  · rfl
  · rw [mapError_mapM]
    exact mapM_congr fun member _ => hmember member

/-- A dialect whose faults mention no name that a renaming replaces. -/
structure Dialect.IsBlindTo (d : Dialect) (ρ : Renaming) : Prop where
  quote : ∀ name, (d.quote name).mapError (.rename ρ) = d.quote name
  columnType : ∀ kind facets,
    (d.columnType kind facets).mapError (.rename ρ) = d.columnType kind facets

theorem Fault.IsOfServer.rename_eq_self {fault : Fault}
    (h : fault.IsOfServer) (ρ : Renaming) : fault.rename ρ = fault := by
  cases h <;> rfl

theorem Firebird.isBlindTo_dialect (f : Firebird) (ρ : Renaming) :
    f.dialect.IsBlindTo ρ where
  quote name :=
    mapError_eq_self ((f.faultsIn_quote name).imp fun _ h => h.rename_eq_self ρ)
  columnType kind facets :=
    mapError_eq_self
      ((f.faultsIn_columnType kind facets).imp fun _ h => h.rename_eq_self ρ)

namespace Dialect.IsBlindTo

variable {d : Dialect} {ρ : Renaming}

theorem mapError_identifier (hd : d.IsBlindTo ρ) (name : String) :
    (d.identifier name).mapError (.rename ρ) = d.identifier name := by
  rw [Dialect.identifier, mapError_bind, hd.quote]
  rfl

theorem mapError_ofProperty (hd : d.IsBlindTo ρ) (p : Property) :
    (Column.ofProperty d p).mapError (.rename ρ) = Column.ofProperty d p := by
  simp only [Column.ofProperty, mapError_bind, hd.mapError_identifier,
    hd.columnType]
  rfl

theorem mapError_ofEntitySet (hd : d.IsBlindTo ρ) (e : EntitySet) :
    (TableBlock.ofEntitySet d e).mapError (.rename ρ) =
      TableBlock.ofEntitySet d e := by
  simp only [TableBlock.ofEntitySet, mapError_bind, mapError_mapM,
    hd.mapError_identifier, hd.mapError_ofProperty, e.mapError_keyProperties]
  rfl

theorem mapError_ofBinding (hd : d.IsBlindTo ρ) (b : Binding)
    (principal dependent : String) :
    (ForeignKey.ofBinding d b principal dependent).mapError (.rename ρ) =
      ForeignKey.ofBinding d b principal dependent := by
  simp only [ForeignKey.ofBinding, mapError_bind, mapError_mapM,
    hd.mapError_identifier]
  rfl

end Dialect.IsBlindTo

/-! ## Lookups -/

/-- A lookup finds the same table when the entity sets are replaced by others in
their places, as long as the names answer to each other and the tables stay. -/
theorem StoreSchema.tableName?_of_forall₂ {s s' : StoreSchema}
    {name name' : String}
    (h : List.Forall₂ (fun e e' => e'.tableName = e.tableName ∧
      (e'.name = name' ↔ e.name = name)) s.entitySets s'.entitySets) :
    s'.tableName? name' = s.tableName? name := by
  simp only [tableName?, entitySet?]
  generalize s.entitySets = sets at h ⊢
  generalize s'.entitySets = sets' at h ⊢
  induction h with
  | nil => rfl
  | @cons e e' _ _ hpair _ ih =>
      obtain ⟨htable, hname⟩ := hpair
      by_cases hfound : e.name = name
      · have hfound' : e'.name = name' := hname.mpr hfound
        simp [hfound, hfound', htable]
      · have hother : e'.name ≠ name' := fun hname' => hfound (hname.mp hname')
        simp [hfound, hother, ih]

namespace Relationship

theorem end?_rename (ρ : Renaming) (r : Relationship) (role : String) :
    (r.rename ρ).end? (ρ.role role) = (r.end? role).map (.rename ρ) := by
  simp only [end?, rename, List.find?_map, Function.comp_def,
    RelationshipEnd.rename, EmbeddingLike.apply_eq_iff_eq]

theorem endOf_rename (ρ : Renaming) (r : Relationship) (role : String) :
    (r.rename ρ).endOf (ρ.role role) =
      ((r.endOf role).map (.rename ρ)).mapError (.rename ρ) := by
  simp only [endOf, end?_rename]
  cases r.end? role <;> rfl

theorem constraint_rename (ρ : Renaming) (r : Relationship) :
    (r.rename ρ).constraint =
      (r.constraint.map (.rename ρ)).mapError (.rename ρ) := by
  simp only [constraint, rename]
  match r.constraints with
  | [] => rfl
  | [c] => rfl
  | c :: c' :: cs => simp [Except.map, Except.mapError, Fault.rename]

theorem binding_rename (ρ : Renaming) (r : Relationship) :
    (r.rename ρ).binding =
      (r.binding.map (.rename ρ)).mapError (.rename ρ) := by
  rw [binding, binding, constraint_rename]
  cases r.constraint with
  | error fault => rfl
  | ok c =>
      by_cases hlength : c.principalColumns.length = c.dependentColumns.length
      · simp only [Except.map, Except.mapError, ok_bind,
          ReferentialConstraint.rename, hlength, ne_eq, not_true_eq_false,
          if_false, endOf_rename]
        cases r.endOf c.principalRole with
        | error fault => rfl
        | ok principal => cases r.endOf c.dependentRole <;> rfl
      · simp only [Except.map, Except.mapError, ok_bind,
          ReferentialConstraint.rename, hlength, ne_eq,
          not_false_eq_true, if_true]
        rfl

end Relationship

/-! ## Scripts of renamed schemas -/

/-- The entity sets of a schema keep their tables under a renaming. -/
def StoreSchema.KeepsTables (s : StoreSchema) (ρ : Renaming) : Prop :=
  ∀ e ∈ s.entitySets, (e.rename ρ).tableName = e.tableName

theorem StoreSchema.keepsTables_ofRoles (s : StoreSchema)
    (role : String ↪ String) :
    s.KeepsTables (.ofRoles role) :=
  fun _ _ => rfl

theorem StoreSchema.keepsTables_of_table_isSome {s : StoreSchema}
    (h : ∀ e ∈ s.entitySets, e.table.isSome) (ρ : Renaming) :
    s.KeepsTables ρ := by
  intro e he
  obtain ⟨table, htable⟩ := Option.isSome_iff_exists.mp (h e he)
  simp only [EntitySet.tableName, EntitySet.rename, htable, Option.getD_some]

section

variable {s : StoreSchema} {ρ : Renaming} {d : Dialect}

theorem StoreSchema.KeepsTables.boundTable_rename (hs : s.KeepsTables ρ)
    (e : RelationshipEnd) :
    (s.rename ρ).boundTable (e.rename ρ) =
      (s.boundTable e).mapError (.rename ρ) := by
  have htable : (s.rename ρ).tableName? (ρ.set e.entitySet) =
      s.tableName? e.entitySet := by
    apply tableName?_of_forall₂
    simp only [rename, List.forall₂_map_right_iff, List.forall₂_same]
    intro set hset
    exact ⟨hs set hset, EmbeddingLike.apply_eq_iff_eq ρ.set⟩
  simp only [boundTable, RelationshipEnd.rename, htable]
  cases s.tableName? e.entitySet <;> rfl

theorem Dialect.IsBlindTo.ofRelationship_rename (hd : d.IsBlindTo ρ)
    (hs : s.KeepsTables ρ) (r : Relationship) :
    ForeignKey.ofRelationship d (s.rename ρ) (r.rename ρ) =
      (ForeignKey.ofRelationship d s r).mapError (.rename ρ) := by
  rw [ForeignKey.ofRelationship_eq, ForeignKey.ofRelationship_eq,
    r.binding_rename]
  cases r.binding with
  | error fault => rfl
  | ok b =>
      have hprincipal := hs.boundTable_rename b.principal
      have hdependent := hs.boundTable_rename b.dependent
      have hkey : ∀ principal dependent,
          ForeignKey.ofBinding d (b.rename ρ) principal dependent =
            (ForeignKey.ofBinding d b principal dependent).mapError
              (.rename ρ) :=
        fun principal dependent =>
          (hd.mapError_ofBinding b principal dependent).symm
      calc
        _ = (s.rename ρ).boundTable (b.principal.rename ρ) >>= fun principal =>
              (s.rename ρ).boundTable (b.dependent.rename ρ) >>=
                fun dependent =>
                ForeignKey.ofBinding d (b.rename ρ) principal dependent := rfl
        _ = (s.boundTable b.principal >>= fun principal =>
              s.boundTable b.dependent >>= fun dependent =>
                ForeignKey.ofBinding d b principal dependent).mapError
                  (.rename ρ) := by
          simp only [hprincipal, hdependent, hkey, mapError_bind]

theorem Dialect.IsBlindTo.ofEntitySet_rename (hd : d.IsBlindTo ρ)
    {e : EntitySet} (he : (e.rename ρ).tableName = e.tableName) :
    TableBlock.ofEntitySet d (e.rename ρ) =
      (TableBlock.ofEntitySet d e).mapError (.rename ρ) := by
  rw [hd.mapError_ofEntitySet]
  simp only [TableBlock.ofEntitySet, he]
  rfl

theorem Dialect.IsBlindTo.ofSchema_rename (hd : d.IsBlindTo ρ)
    (hs : s.KeepsTables ρ) :
    Script.ofSchema d (s.rename ρ) =
      (Script.ofSchema d s).mapError (.rename ρ) := by
  have htable : ∀ e ∈ s.entitySets,
      (e.rename ρ).tableBlock d = (e.tableBlock d).mapError (.rename ρ) := by
    intro e he
    have hblock := hd.ofEntitySet_rename (hs e he)
    rw [EntitySet.tableBlock, hblock]
    exact Fault.attributeToEntitySet_rename ρ e.name _
  have hkey : ∀ r ∈ s.relationships,
      (s.rename ρ).foreignKey d (r.rename ρ) =
        (s.foreignKey d r).mapError (.rename ρ) := by
    intro r _
    rw [StoreSchema.foreignKey, hd.ofRelationship_rename hs]
    exact Fault.attributeToRelationshipSet_rename ρ r.name _
  have htables : (s.rename ρ).entitySets.mapM (EntitySet.tableBlock d) =
      (s.entitySets.mapM (EntitySet.tableBlock d)).mapError (.rename ρ) := by
    rw [StoreSchema.rename, List.mapM_map, mapError_mapM]
    exact mapM_congr htable
  have hkeys : (s.rename ρ).relationships.mapM ((s.rename ρ).foreignKey d) =
      (s.relationships.mapM (s.foreignKey d)).mapError (.rename ρ) := by
    rw [mapError_mapM, ← mapM_congr hkey]
    exact List.mapM_map
  simp only [Script.ofSchema, mapError_bind, htables, hkeys]
  rfl

end

/-! ## Table names that are written out -/

/-- An entity set is kept, or it names no table and its own name is written out
as the name of its table. -/
def EntitySet.NamesTable (e e' : EntitySet) : Prop :=
  e' = e ∨ e.table = none ∧ e' = e.withTable e.name

namespace EntitySet.NamesTable

variable {e e' : EntitySet}

theorem name_eq (h : e.NamesTable e') : e'.name = e.name := by
  obtain rfl | ⟨-, rfl⟩ := h
  · rfl
  · rfl

theorem tableName_eq (h : e.NamesTable e') : e'.tableName = e.tableName := by
  obtain rfl | ⟨hnone, rfl⟩ := h
  · rfl
  · simp [tableName, withTable, hnone]

theorem tableBlock_eq (h : e.NamesTable e') (d : Dialect) :
    e'.tableBlock d = e.tableBlock d := by
  have htable := h.tableName_eq
  obtain rfl | ⟨-, rfl⟩ := h
  · rfl
  · simp only [tableBlock, TableBlock.ofEntitySet, htable]
    rfl

end EntitySet.NamesTable

namespace Generator

theorem scriptText_of_namesTable (g : Generator) {s : StoreSchema}
    {sets : List EntitySet}
    (h : List.Forall₂ EntitySet.NamesTable s.entitySets sets) :
    g.scriptText (some { s with entitySets := sets }) =
      g.scriptText (some s) := by
  have htable : ∀ name,
      StoreSchema.tableName? { s with entitySets := sets } name =
      s.tableName? name := by
    intro name
    apply StoreSchema.tableName?_of_forall₂
    refine h.imp fun e e' hpair => ?_
    exact ⟨hpair.tableName_eq, by rw [hpair.name_eq]⟩
  have htables : s.entitySets.mapM g.tableText = sets.mapM g.tableText := by
    apply mapM_eq_mapM_of_forall₂
    refine h.imp fun e e' hpair => ?_
    rw [tableText, tableText, hpair.tableBlock_eq]
  have hkeys : s.relationships.mapM
      (g.foreignKeyText { s with entitySets := sets }) =
      s.relationships.mapM (g.foreignKeyText s) := by
    apply mapM_congr
    intro r _
    exact foreignKeyText_congr fun e _ => htable e.entitySet
  rw [scriptText_some, scriptText_some, htables, hkeys]

theorem scriptText_rename {config : Config} {f : Firebird} {s : StoreSchema}
    {ρ : Renaming} (hs : s.KeepsTables ρ) :
    scriptText ⟨config, f.dialect⟩ (some (s.rename ρ)) =
      (scriptText ⟨config, f.dialect⟩ (some s)).mapError (.rename ρ) := by
  have hscript := (f.isBlindTo_dialect ρ).ofSchema_rename hs
  simp only [scriptText, schemaText, hscript, mapError_map]

/-- Renamed roles leave the script as it is, and so do renamed entity sets where
every set names its table.  A fault changes in the renamed names only.  Wherever
an entity set names no table, its own name may be written out as the name of its
table. -/
theorem scriptText_of_renamed_schema (config : Config) (f : Firebird)
    (s : StoreSchema) :
    (∀ role : String ↪ String,
        scriptText ⟨config, f.dialect⟩ (some (s.rename (.ofRoles role))) =
          (scriptText ⟨config, f.dialect⟩ (some s)).mapError
            (.rename (.ofRoles role))) ∧
      ((∀ e ∈ s.entitySets, e.table.isSome) → ∀ ρ : Renaming,
        scriptText ⟨config, f.dialect⟩ (some (s.rename ρ)) =
          (scriptText ⟨config, f.dialect⟩ (some s)).mapError (.rename ρ)) ∧
      ∀ sets, List.Forall₂ EntitySet.NamesTable s.entitySets sets →
        scriptText ⟨config, f.dialect⟩ (some { s with entitySets := sets }) =
          scriptText ⟨config, f.dialect⟩ (some s) := by
  refine ⟨?_, ?_, ?_⟩
  · intro role
    exact scriptText_rename (s.keepsTables_ofRoles role)
  · intro htables ρ
    exact scriptText_rename (StoreSchema.keepsTables_of_table_isSome htables ρ)
  · intro sets hsets
    exact scriptText_of_namesTable _ hsets

/-- Longer roles and longer names of entity sets do not show in the sample
script, and the role that a constraint without ends misses is reported under its
new name.  A table may be named like its entity set. -/
theorem scriptText_of_renamed_schema_longNames :
    (∃ ρ : Renaming, ρ.role "Customer" = "role of Customer" ∧
      ρ.set "Order" = "set of Order" ∧
      standard.scriptText (some (Sample.schema.rename ρ)) =
        standard.scriptText (some Sample.schema) ∧
      ∃ fault,
        standard.scriptText
          (some ((Sample.schema.withRelationship
            (.withConstraint (.named "Loose")
              (.between "Buyer" "Seller"))).rename ρ)) = .error fault ∧
        fault.root = .unknownRole "role of Buyer") ∧
      standard.scriptText
          (some (Sample.tableOf ((EntitySet.named "A").withTable "A"))) =
        standard.scriptText (some (Sample.tableOf (.named "A"))) := by
  let ρ : Renaming :=
    { role :=
        ⟨fun name => "role of " ++ name,
          fun _ _ h => (String.append_right_inj _).mp h⟩
      set :=
        ⟨fun name => "set of " ++ name,
          fun _ _ h => (String.append_right_inj _).mp h⟩ }
  have hrenamed : ∀ s : StoreSchema, (∀ e ∈ s.entitySets, e.table.isSome) →
      standard.scriptText (some (s.rename ρ)) =
        (standard.scriptText (some s)).mapError (.rename ρ) := by
    intro s hs
    obtain ⟨-, hsets, -⟩ :=
      scriptText_of_renamed_schema {} (Firebird.ofVersion .firebird3) s
    exact hsets hs ρ
  refine ⟨⟨ρ, rfl, rfl, ?_, ?_⟩, ?_⟩
  · rw [hrenamed Sample.schema (by decide)]
    rfl
  · rw [hrenamed _ (by decide)]
    exact ⟨_, rfl, rfl⟩
  · obtain ⟨-, -, htables⟩ :=
      scriptText_of_renamed_schema {} (Firebird.ofVersion .firebird3)
      (Sample.tableOf (.named "A"))
    exact htables _ (.cons (.inr ⟨rfl, rfl⟩) .nil)

end Generator

end FirebirdSchema
