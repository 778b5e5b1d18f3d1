import FirebirdSchema.Proofs.Markings
import FirebirdSchema.Proofs.Traversal
import FirebirdSchema.Script.OfSchema

/-!
# Table blocks in any dialect

The table block of an entity set is built from a dozen computations that may
fail.  This module says what they give when all of them succeed, and that only
four kinds of them matter: writing the table name, resolving the key, building
the columns, and writing the name of the key constraint.  Key columns and
commented columns are columns of the table, so their names have been written
before.
-/

namespace FirebirdSchema

open Traversal

/-! ## Written names and columns -/

theorem Dialect.identifier_eq_ok_iff {d : Dialect} {name : String}
    {i : Identifier} :
    d.identifier name = .ok i ↔ i.name = name ∧ d.quote name = .ok i.text := by
  simp only [Dialect.identifier, bind_eq_ok_iff, pure_eq_ok_iff]
  constructor
  · intro h
    obtain ⟨text, htext, rfl⟩ := h
    exact ⟨rfl, htext⟩
  · intro h
    obtain ⟨rfl, htext⟩ := h
    exact ⟨i.text, htext, rfl⟩

theorem Dialect.exists_identifier_iff {d : Dialect} {name : String} :
    (∃ i, d.identifier name = .ok i) ↔ ∃ text, d.quote name = .ok text := by
  simp only [Dialect.identifier_eq_ok_iff]
  constructor
  · intro h
    obtain ⟨i, -, htext⟩ := h
    exact ⟨i.text, htext⟩
  · intro h
    obtain ⟨text, htext⟩ := h
    exact ⟨⟨name, text⟩, rfl, htext⟩

theorem Column.ofProperty_eq_ok_iff {d : Dialect} {p : Property}
    {column : Column} :
    Column.ofProperty d p = .ok column ↔
      d.identifier p.name = .ok column.name ∧
        d.columnType p.kind p.facets = .ok column.type ∧
        column.isTruthValue = decide (p.kind = .boolean) ∧
        column.nullable = p.nullable := by
  simp only [Column.ofProperty, bind_eq_ok_iff, pure_eq_ok_iff]
  constructor
  · intro h
    obtain ⟨name, hname, type, htype, rfl⟩ := h
    exact ⟨hname, htype, rfl, rfl⟩
  · intro h
    obtain ⟨hname, htype, htruth, hnullable⟩ := h
    refine ⟨column.name, hname, column.type, htype, ?_⟩
    rw [← htruth, ← hnullable]

theorem Column.exists_ofProperty_iff {d : Dialect} {p : Property} :
    (∃ column, Column.ofProperty d p = .ok column) ↔
      (∃ text, d.quote p.name = .ok text) ∧
        ∃ type, d.columnType p.kind p.facets = .ok type := by
  rw [← Dialect.exists_identifier_iff]
  simp only [Column.ofProperty, bind_eq_ok_iff, pure_eq_ok_iff]
  constructor
  · intro h
    obtain ⟨column, name, hname, type, htype, -⟩ := h
    exact ⟨⟨name, hname⟩, type, htype⟩
  · intro h
    obtain ⟨⟨name, hname⟩, type, htype⟩ := h
    exact ⟨_, name, hname, type, htype, rfl⟩

/-! ## Keys -/

theorem EntitySet.keyProperties_eq_ok_iff {e : EntitySet}
    {keys : List Property} :
    e.keyProperties = .ok keys ↔
      e.keyMembers ≠ [] ∧
        List.Forall₂ (fun member p => e.property? member = some p) e.keyMembers
          keys := by
  unfold EntitySet.keyProperties
  split
  · rename_i hempty
    constructor
    · intro h
      cases h
    · intro h
      obtain ⟨hnonempty, -⟩ := h
      exact absurd hempty hnonempty
  · rename_i hnonempty
    simp only [mapM_eq_ok_iff, EntitySet.keyProperty_eq_ok_iff]
    exact ⟨fun h => ⟨hnonempty, h⟩, fun h => h.2⟩

theorem EntitySet.exists_keyProperty_iff {e : EntitySet} {member : String} :
    (∃ p, e.keyProperty member = .ok p) ↔
      ∃ p ∈ e.properties, p.name = member := by
  simp only [EntitySet.keyProperty_eq_ok_iff]
  constructor
  · intro h
    obtain ⟨p, hp⟩ := h
    exact ⟨p, EntitySet.mem_properties_of_property? hp,
      EntitySet.name_of_property? hp⟩
  · intro h
    obtain ⟨p, hp, hname⟩ := h
    apply Option.ne_none_iff_exists'.mp
    intro hnone
    exact EntitySet.property?_eq_none_iff.mp hnone p hp hname

theorem EntitySet.exists_keyProperties_iff {e : EntitySet} :
    (∃ keys, e.keyProperties = .ok keys) ↔
      e.keyMembers ≠ [] ∧ ∀ member ∈ e.keyMembers, ∃ p ∈ e.properties,
        p.name = member := by
  unfold EntitySet.keyProperties
  split
  · rename_i hempty
    constructor
    · intro h
      obtain ⟨keys, h⟩ := h
      cases h
    · intro h
      obtain ⟨hnonempty, -⟩ := h
      exact absurd hempty hnonempty
  · rename_i hnonempty
    simp only [exists_mapM_eq_ok_iff, EntitySet.exists_keyProperty_iff]
    exact ⟨fun h => ⟨hnonempty, h⟩, fun h => h.2⟩

theorem EntitySet.mapM_of_keyProperties {e : EntitySet} {keys : List Property}
    (h : e.keyProperties = .ok keys) :
    e.keyMembers.mapM e.keyProperty = .ok keys := by
  obtain ⟨-, hmembers⟩ := EntitySet.keyProperties_eq_ok_iff.mp h
  exact mapM_eq_ok_iff.mpr
    (hmembers.imp fun _ _ => EntitySet.keyProperty_eq_ok_iff.mpr)

theorem EntitySet.map_name_keyProperties {e : EntitySet} {keys : List Property}
    (h : e.keyProperties = .ok keys) :
    keys.map Property.name = e.keyMembers := by
  have hnames : keys.map Property.name = e.keyMembers.map id := by
    refine map_eq_map_of_mapM_eq_ok ?_ (EntitySet.mapM_of_keyProperties h)
    intro member _ p hp
    exact EntitySet.name_of_property? (EntitySet.keyProperty_eq_ok_iff.mp hp)
  rw [hnames, List.map_id]

theorem EntitySet.mem_properties_of_keyProperties {e : EntitySet}
    {keys : List Property} (h : e.keyProperties = .ok keys) :
    ∀ k ∈ keys, k ∈ e.properties := by
  intro k hk
  obtain ⟨member, -, hmember⟩ :=
    exists_argument_mem (EntitySet.mapM_of_keyProperties h) hk
  exact EntitySet.mem_properties_of_property?
    (EntitySet.keyProperty_eq_ok_iff.mp hmember)

/-! ## Marked columns -/

theorem Property.mem_columns_markers {p : Property} {name : String} :
    name ∈ p.markers.columns ↔
      (p.kind = .boolean ∨ p.kind = .guid) ∧ p.name = name := by
  unfold Property.markers
  split
  · rename_i hkind
    simp [hkind, Markers.mem_columns_mark, eq_comm]
  · rename_i hkind
    simp [hkind, Markers.mem_columns_mark, eq_comm]
  · rename_i hboolean hguid
    constructor
    · intro h
      exact absurd h List.not_mem_nil
    · intro h
      obtain ⟨h | h, -⟩ := h
      · exact absurd h hboolean
      · exact absurd h hguid

/-- The columns of a table are marked one after the other, first by their types,
then by the key. -/
theorem Markers.ofProperties_eq_assign (properties keys : List Property) :
    Markers.ofProperties properties keys =
      Markers.empty.assign (properties.flatMap (fun p => p.markers.entries) ++
        (keys.filter Property.isIdentity).map fun p =>
          (p.name, .generatedKey)) := by
  simp only [Markers.ofProperties, Markers.assign, List.foldl_append,
    List.foldl_flatMap, List.foldl_map, Markers.merge]

/-- A column is marked when its type asks for a marker, or when it is a
generated key. -/
theorem Markers.mem_columns_ofProperties {properties keys : List Property}
    {name : String} :
    name ∈ (Markers.ofProperties properties keys).columns ↔
      (∃ p ∈ properties, (p.kind = .boolean ∨ p.kind = .guid) ∧ p.name = name) ∨
        ∃ k ∈ keys, k.isIdentity ∧ k.name = name := by
  have htyped : name ∈ (properties.flatMap fun p =>
    p.markers.entries).map Prod.fst ↔
      ∃ p ∈ properties, (p.kind = .boolean ∨ p.kind = .guid) ∧
        p.name = name := by
    simp only [← Property.mem_columns_markers, List.map_flatMap,
      List.mem_flatMap, Markers.columns]
  rw [Markers.ofProperties_eq_assign, Markers.mem_columns_assign,
    List.map_append, List.mem_append, htyped]
  simp [and_assoc]

/-- Only columns of the table are marked. -/
theorem Markers.exists_property_of_mem_ofProperties
    {properties keys : List Property} (hkeys : ∀ k ∈ keys, k ∈ properties)
    {name : String}
    (h : name ∈ (Markers.ofProperties properties keys).columns) :
    ∃ p ∈ properties, p.name = name := by
  rcases Markers.mem_columns_ofProperties.mp h with ⟨p, hp, -, hname⟩ | ⟨k, hk,
    -, hname⟩
  · exact ⟨p, hp, hname⟩
  · exact ⟨k, hkeys k hk, hname⟩

/-! ## Table blocks -/

/-- A column that is commented, with its name as the dialect writes it. -/
def Dialect.commentedColumn (d : Dialect) (entry : String × Marker) :
    Except Fault (Identifier × Marker) := do
  return (← d.identifier entry.1, entry.2)

theorem Dialect.commentedColumn_eq_ok_iff {d : Dialect}
    {entry : String × Marker} {comment : Identifier × Marker} :
    d.commentedColumn entry = .ok comment ↔
      d.identifier entry.1 = .ok comment.1 ∧ comment.2 = entry.2 := by
  simp only [Dialect.commentedColumn, bind_eq_ok_iff, pure_eq_ok_iff]
  constructor
  · intro h
    obtain ⟨i, hi, rfl⟩ := h
    exact ⟨hi, rfl⟩
  · intro h
    obtain ⟨hi, hmarker⟩ := h
    exact ⟨comment.1, hi, by rw [← hmarker]⟩

namespace TableBlock

theorem ofEntitySet_eq_ok_iff {d : Dialect} {e : EntitySet}
    {block : TableBlock} :
    TableBlock.ofEntitySet d e = .ok block ↔
      ∃ keys, d.identifier e.tableName = .ok block.name ∧
        e.keyProperties = .ok keys ∧
        e.properties.mapM (Column.ofProperty d) = .ok block.columns ∧
        d.identifier ("PK_" ++ e.tableName) = .ok block.keyName ∧
        keys.mapM (fun p => d.identifier p.name) = .ok block.keyColumns ∧
        (Markers.ofProperties e.properties keys).entries.mapM
            d.commentedColumn =
          .ok block.comments := by
  simp only [ofEntitySet, bind_eq_ok_iff, pure_eq_ok_iff]
  constructor
  · intro h
    obtain ⟨name, hname, keys, hkeys, columns, hcolumns, keyName, hkeyName,
      keyColumns, hkeyColumns, comments, hcomments, rfl⟩ := h
    exact ⟨keys, hname, hkeys, hcolumns, hkeyName, hkeyColumns, hcomments⟩
  · intro h
    obtain ⟨keys, hname, hkeys, hcolumns, hkeyName, hkeyColumns, hcomments⟩ := h
    exact ⟨block.name, hname, keys, hkeys, block.columns, hcolumns,
      block.keyName, hkeyName, block.keyColumns, hkeyColumns, block.comments,
      hcomments, rfl⟩

/-- Once the names of all columns can be written, so can those of the key. -/
theorem exists_keyColumns {d : Dialect} {e : EntitySet} {keys : List Property}
    (hkeys : e.keyProperties = .ok keys)
    (hwritten : ∀ p ∈ e.properties, ∃ text, d.quote p.name = .ok text) :
    ∃ keyColumns, keys.mapM (fun p => d.identifier p.name) =
      .ok keyColumns := by
  rw [exists_mapM_eq_ok_iff]
  intro k hk
  have hproperty := EntitySet.mem_properties_of_keyProperties hkeys k hk
  exact Dialect.exists_identifier_iff.mpr (hwritten k hproperty)

/-- Once the names of all columns can be written, so can those of the commented
ones. -/
theorem exists_comments {d : Dialect} {e : EntitySet} {keys : List Property}
    (hkeys : e.keyProperties = .ok keys)
    (hwritten : ∀ p ∈ e.properties, ∃ text, d.quote p.name = .ok text) :
    ∃ comments,
      (Markers.ofProperties e.properties keys).entries.mapM d.commentedColumn =
        .ok comments := by
  rw [exists_mapM_eq_ok_iff]
  intro entry hentry
  have hmarked : entry.1 ∈ (Markers.ofProperties e.properties keys).columns :=
    List.mem_map_of_mem hentry
  obtain ⟨p, hp, hname⟩ := Markers.exists_property_of_mem_ofProperties
    (EntitySet.mem_properties_of_keyProperties hkeys) hmarked
  obtain ⟨i, hi⟩ := Dialect.exists_identifier_iff.mpr (hwritten p hp)
  rw [hname] at hi
  exact ⟨(i, entry.2), Dialect.commentedColumn_eq_ok_iff.mpr ⟨hi, rfl⟩⟩

/-- The steps on the way to a table block that can be the first to fail. -/
theorem exists_ofEntitySet_iff {d : Dialect} {e : EntitySet} :
    (∃ block, TableBlock.ofEntitySet d e = .ok block) ↔
      (∃ text, d.quote e.tableName = .ok text) ∧
        (∃ keys, e.keyProperties = .ok keys) ∧
        (∀ p ∈ e.properties, (∃ text, d.quote p.name = .ok text) ∧
          ∃ type, d.columnType p.kind p.facets = .ok type) ∧
        ∃ text, d.quote ("PK_" ++ e.tableName) = .ok text := by
  constructor
  · intro h
    obtain ⟨block, h⟩ := h
    obtain ⟨keys, hname, hkeys, hcolumns, hkeyName, -, -⟩ :=
      ofEntitySet_eq_ok_iff.mp h
    refine ⟨Dialect.exists_identifier_iff.mp ⟨_, hname⟩, ⟨keys, hkeys⟩, ?_,
      Dialect.exists_identifier_iff.mp ⟨_, hkeyName⟩⟩
    intro p hp
    exact Column.exists_ofProperty_iff.mp
      (exists_mapM_eq_ok_iff.mp ⟨_, hcolumns⟩ p hp)
  · intro h
    obtain ⟨hname, ⟨keys, hkeys⟩, hproperties, hkeyName⟩ := h
    have hwritten : ∀ p ∈ e.properties, ∃ text, d.quote p.name = .ok text :=
      fun p hp => (hproperties p hp).1
    obtain ⟨name, hname⟩ := Dialect.exists_identifier_iff.mpr hname
    obtain ⟨keyName, hkeyName⟩ := Dialect.exists_identifier_iff.mpr hkeyName
    obtain ⟨columns, hcolumns⟩ : ∃ columns,
        e.properties.mapM (Column.ofProperty d) = .ok columns := by
      rw [exists_mapM_eq_ok_iff]
      exact fun p hp => Column.exists_ofProperty_iff.mpr (hproperties p hp)
    obtain ⟨keyColumns, hkeyColumns⟩ := exists_keyColumns hkeys hwritten
    obtain ⟨comments, hcomments⟩ := exists_comments hkeys hwritten
    exact ⟨⟨name, columns, keyName, keyColumns, comments⟩,
      ofEntitySet_eq_ok_iff.mpr ⟨keys, hname, hkeys, hcolumns, hkeyName,
        hkeyColumns, hcomments⟩⟩

end TableBlock

end FirebirdSchema
