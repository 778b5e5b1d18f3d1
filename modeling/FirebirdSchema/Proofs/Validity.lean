import FirebirdSchema.Generator
import FirebirdSchema.Proofs.ForeignKey

/-!
# Valid schemas

A schema has a script for a Firebird server if and only if it is valid for that
server.  Validity is stated without any order of checks and without any written
name.
-/

namespace FirebirdSchema

open Traversal

/-! ## Validity -/

/-- A name within the limit of the server, which counts characters from version
4 on and bytes of the UTF-8 form before. -/
def Firebird.HasRoomFor (f : Firebird) (name : String) : Prop :=
  (if f.version = .firebird4 then name.length else name.utf8ByteSize) ≤
    f.identifierLimit

/-- A name that the server accepts as an identifier. -/
def Firebird.AcceptsName (f : Firebird) (name : String) : Prop :=
  name ≠ "" ∧ f.HasRoomFor name

/-- Facets with a precision and a scale that the server gives to decimal
columns; they are 18 and 2 when the facets do not say. -/
structure Firebird.SupportsDecimal (f : Firebird) (facets : Facets) : Prop where
  precision_pos : 1 ≤ (facets.precision.getD 18).toNat
  precision_le : (facets.precision.getD 18).toNat ≤ if f.version =
    .firebird4 then 38 else 18
  scale_le : (facets.scale.getD 2).toNat ≤ (facets.precision.getD 18).toNat

/-- A primitive type with facets that the server has a column type for. -/
def Firebird.SupportsType (f : Firebird) (kind : PrimitiveKind)
    (facets : Facets) : Prop :=
  (kind = .dateTimeOffset → f.version = .firebird4) ∧
    (kind = .decimal → f.SupportsDecimal facets)

/-- An entity set that has a table. -/
structure EntitySet.IsValid (f : Firebird) (e : EntitySet) : Prop where
  tableName_ne_empty : e.tableName ≠ ""
  keyName_length : f.HasRoomFor ("PK_" ++ e.tableName)
  keyMembers_ne_nil : e.keyMembers ≠ []
  keyMember_declared :
    ∀ member ∈ e.keyMembers, ∃ p ∈ e.properties, p.name = member
  property_accepted :
    ∀ p ∈ e.properties, f.AcceptsName p.name ∧ f.SupportsType p.kind p.facets

/-- A relationship set of a schema that has a foreign key: its only constraint
`c` pairs lists of one length, and the first ends that play the roles of `c` are
bound to entity sets of the schema. -/
def Relationship.IsValid (f : Firebird) (s : StoreSchema) (r : Relationship) :
    Prop :=
  ∃ c principal dependent, r.constraints = [c] ∧
    c.principalColumns.length = c.dependentColumns.length ∧
    r.end? c.principalRole = some principal ∧
    r.end? c.dependentRole = some dependent ∧
    (∃ e ∈ s.entitySets, e.name = principal.entitySet) ∧
    (∃ e ∈ s.entitySets, e.name = dependent.entitySet) ∧
    f.HasRoomFor ("FK_" ++ r.name) ∧
    ∀ name ∈ c.principalColumns ++ c.dependentColumns, f.AcceptsName name

/-- A schema that has a script. -/
structure StoreSchema.IsValid (f : Firebird) (s : StoreSchema) : Prop where
  entitySets : ∀ e ∈ s.entitySets, e.IsValid f
  relationships : ∀ r ∈ s.relationships, r.IsValid f s

/-! ## Names and types -/

namespace ServerVersion

theorem nameLength_append (v : ServerVersion) (first second : String) :
    v.nameLength (first ++ second) =
      v.nameLength first + v.nameLength second := by
  cases v with
  | firebird25 => exact String.utf8ByteSize_append
  | firebird3 => exact String.utf8ByteSize_append
  | firebird4 => exact String.length_append first second

theorem toNat_decimalLimit (v : ServerVersion) :
    v.decimalLimit.toNat = if v = .firebird4 then 38 else 18 := by
  cases v <;> rfl

end ServerVersion

namespace Firebird

variable {f : Firebird}

theorem hasRoomFor_iff {name : String} :
    f.HasRoomFor name ↔ f.version.nameLength name ≤ f.identifierLimit := by
  rw [HasRoomFor, ServerVersion.nameLength_eq]

theorem exists_quote_iff_acceptsName {name : String} :
    (∃ text, f.dialect.quote name = .ok text) ↔ f.AcceptsName name := by
  constructor
  · intro h
    obtain ⟨text, htext⟩ := h
    obtain ⟨hempty, hlength, -⟩ := quote_eq_ok_iff.mp htext
    exact ⟨hempty, hasRoomFor_iff.mpr hlength⟩
  · intro h
    obtain ⟨hempty, hlength⟩ := h
    exact ⟨_, quote_eq_ok_iff.mpr ⟨hempty, hasRoomFor_iff.mp hlength, rfl⟩⟩

/-- A constraint name is never empty, so only its length counts. -/
theorem acceptsName_append_iff {lead name : String} (hlead : lead ≠ "") :
    f.AcceptsName (lead ++ name) ↔ f.HasRoomFor (lead ++ name) := by
  constructor
  · exact fun h => h.2
  · intro hlength
    refine ⟨?_, hlength⟩
    intro hempty
    exact hlead (String.append_eq_empty_iff.mp hempty).1

/-- A table name is accepted together with the longer name of its key. -/
theorem acceptsName_of_append {lead name : String} (hname : name ≠ "")
    (h : f.HasRoomFor (lead ++ name)) : f.AcceptsName name := by
  rw [hasRoomFor_iff, ServerVersion.nameLength_append] at h
  exact ⟨hname, hasRoomFor_iff.mpr (by omega)⟩

theorem exists_decimalType_iff {facets : Facets} :
    (∃ type, f.decimalType facets = .ok type) ↔ f.SupportsDecimal facets := by
  have hprecision : facets.precision.getD 18 = 0 ∨
      f.version.decimalLimit < facets.precision.getD 18 ↔
        ¬(1 ≤ (facets.precision.getD 18).toNat ∧
          (facets.precision.getD 18).toNat ≤ if f.version =
            .firebird4 then 38 else 18) := by
    rw [← ServerVersion.toNat_decimalLimit, ← UInt8.toNat_inj,
      UInt8.lt_iff_toNat_lt, UInt8.toNat_zero]
    omega
  have hscale : facets.precision.getD 18 < facets.scale.getD 2 ↔
      ¬(facets.scale.getD 2).toNat ≤ (facets.precision.getD 18).toNat := by
    rw [UInt8.lt_iff_toNat_lt, Nat.not_le]
  simp only [decimalType]
  constructor
  · intro h
    obtain ⟨type, htype⟩ := h
    split at htype
    · cases htype
    · rename_i hinside
      obtain ⟨hpos, hle⟩ := not_not.mp (mt hprecision.mpr hinside)
      split at htype
      · cases htype
      · rename_i hfits
        exact ⟨hpos, hle, not_not.mp (mt hscale.mpr hfits)⟩
  · intro h
    have hinside :=
      mt hprecision.mp (not_not.mpr ⟨h.precision_pos, h.precision_le⟩)
    have hfits := mt hscale.mp (not_not.mpr h.scale_le)
    rw [if_neg hinside, if_neg hfits]
    exact ⟨_, rfl⟩

theorem exists_columnType_iff_supportsType {kind : PrimitiveKind}
    {facets : Facets} :
    (∃ type, f.dialect.columnType kind facets = .ok type) ↔
      f.SupportsType kind facets := by
  have hsql : (∃ text, f.dialect.columnType kind facets = .ok text) ↔
      ∃ type, f.columnType kind facets = .ok type := by
    simp [dialect, map_eq_ok_iff]
  rw [hsql, SupportsType]
  cases kind with
  | decimal => simp [columnType, exists_decimalType_iff]
  | dateTimeOffset =>
      by_cases hversion : f.version = .firebird4 <;> simp [columnType, hversion]
  | _ => simp [columnType]

end Firebird

/-! ## Tables and foreign keys -/

variable {f : Firebird}

theorem TableBlock.exists_ofEntitySet_iff_isValid {e : EntitySet} :
    (∃ block, TableBlock.ofEntitySet f.dialect e = .ok block) ↔
      e.IsValid f := by
  simp only [TableBlock.exists_ofEntitySet_iff,
    EntitySet.exists_keyProperties_iff, Firebird.exists_quote_iff_acceptsName,
    Firebird.exists_columnType_iff_supportsType,
    Firebird.acceptsName_append_iff (by decide : "PK_" ≠ "")]
  constructor
  · intro h
    obtain ⟨hname, ⟨hkeys, hdeclared⟩, hproperties, hlength⟩ := h
    exact ⟨hname.1, hlength, hkeys, hdeclared, hproperties⟩
  · intro h
    exact ⟨Firebird.acceptsName_of_append h.tableName_ne_empty h.keyName_length,
      ⟨h.keyMembers_ne_nil, h.keyMember_declared⟩, h.property_accepted,
      h.keyName_length⟩

/-- Once every entity set has its table, table names add nothing to the validity
of a relationship set. -/
theorem ForeignKey.exists_ofRelationship_iff_isValid {s : StoreSchema}
    (hsets : ∀ e ∈ s.entitySets, e.IsValid f) {r : Relationship} :
    (∃ key, ForeignKey.ofRelationship f.dialect s r = .ok key) ↔
      r.IsValid f s := by
  have htable : ∀ {name : String} {e : EntitySet}, s.entitySet? name = some e →
      f.AcceptsName e.tableName := by
    intro name e he
    have hvalid := hsets e (StoreSchema.mem_entitySets_of_entitySet? he)
    exact Firebird.acceptsName_of_append hvalid.tableName_ne_empty
      hvalid.keyName_length
  simp only [ForeignKey.exists_ofRelationship_iff,
    Relationship.binding_eq_ok_iff, StoreSchema.boundEntitySet_eq_ok_iff,
    Firebird.exists_quote_iff_acceptsName, List.forall_mem_cons]
  constructor
  · intro h
    obtain ⟨b, principalSet, dependentSet,
      ⟨hc, hlength, hprincipal, hdependent, hname⟩, hprincipalSet,
      hdependentSet, -, hkeyName, -, hcolumns⟩ := h
    refine ⟨b.constraint, b.principal, b.dependent, hc, hlength, hprincipal,
      hdependent, StoreSchema.exists_entitySet?_iff.mp ⟨_, hprincipalSet⟩,
      StoreSchema.exists_entitySet?_iff.mp ⟨_, hdependentSet⟩, ?_, ?_⟩
    · rw [← hname]
      exact hkeyName.2
    · intro name hmem
      exact hcolumns name (List.mem_append.mpr (List.mem_append.mp hmem).symm)
  · intro h
    obtain ⟨c, principal, dependent, hc, hlength, hprincipal, hdependent,
      hprincipalSet, hdependentSet, hkeyName, hcolumns⟩ := h
    obtain ⟨principalSet, hprincipalSet⟩ :=
      StoreSchema.exists_entitySet?_iff.mpr hprincipalSet
    obtain ⟨dependentSet, hdependentSet⟩ :=
      StoreSchema.exists_entitySet?_iff.mpr hdependentSet
    refine ⟨⟨r.name, principal, dependent, c⟩, principalSet, dependentSet,
      ⟨hc, hlength, hprincipal, hdependent, rfl⟩, hprincipalSet, hdependentSet,
      htable hdependentSet, ?_, htable hprincipalSet, ?_⟩
    · exact (Firebird.acceptsName_append_iff (by decide)).mpr hkeyName
    · intro name hmem
      exact hcolumns name (List.mem_append.mpr (List.mem_append.mp hmem).symm)

/-! ## Scripts -/

/-- Exactly the valid schemas have a script. -/
theorem Generator.exists_scriptText_iff_isValid {config : Config}
    {s : StoreSchema} :
    (∃ text, Generator.scriptText ⟨config, f.dialect⟩ (some s) = .ok text) ↔
      s.IsValid f := by
  have hscript :
    (∃ text, Generator.scriptText ⟨config, f.dialect⟩ (some s) = .ok text) ↔
      ∃ script, Script.ofSchema f.dialect s = .ok script := by
    simp [Generator.scriptText, Generator.schemaText, map_eq_ok_iff]
  rw [hscript, Script.exists_ofSchema_iff]
  constructor
  · intro h
    obtain ⟨htables, hkeys⟩ := h
    have hsets : ∀ e ∈ s.entitySets, e.IsValid f := by
      intro e he
      exact TableBlock.exists_ofEntitySet_iff_isValid.mp (htables e he)
    refine ⟨hsets, ?_⟩
    intro r hr
    exact (ForeignKey.exists_ofRelationship_iff_isValid hsets).mp (hkeys r hr)
  · intro h
    constructor
    · intro e he
      exact TableBlock.exists_ofEntitySet_iff_isValid.mpr (h.entitySets e he)
    · intro r hr
      exact (ForeignKey.exists_ofRelationship_iff_isValid h.entitySets).mpr
        (h.relationships r hr)

end FirebirdSchema
