import FirebirdSchema.Proofs.Culprit
import FirebirdSchema.Proofs.Upgrade

/-!
# Refused types

A dialect may be made to refuse some primitive types.  Only the column of a
property asks for a column type, and whatever else a script is built from is
written as before.  So a schema either uses none of the refused types and keeps
its script, or the first column of a refused type is what its script fails at.
-/

namespace FirebirdSchema

open Traversal

/-- Some property of an entity set has one of the given types. -/
def EntitySet.UsesKinds (kinds : List PrimitiveKind) (e : EntitySet) : Prop :=
  ∃ p ∈ e.properties, p.kind ∈ kinds

/-! ## Statements in a dialect that refuses types -/

section Statements

variable {d : Dialect} {kinds : List PrimitiveKind}

theorem Dialect.extends_refusing (d : Dialect) (kinds : List PrimitiveKind) :
    d.Extends (d.refusing kinds) := by
  constructor
  · intro name text h
    exact h
  · intro kind facets type h
    by_cases hkind : kind ∈ kinds
    · rw [d.refusing_columnType_of_mem hkind] at h
      cases h
    · rw [d.refusing_columnType_of_not_mem hkind] at h
      exact h

theorem Dialect.refusing_identifier (d : Dialect) (kinds : List PrimitiveKind) :
    (d.refusing kinds).identifier = d.identifier := rfl

/-- A column of a refused type fails at its type, because its name could be
written. -/
theorem Column.ofProperty_refusing {p : Property} {column : Column}
    (h : Column.ofProperty d p = .ok column) :
    Column.ofProperty (d.refusing kinds) p =
      if p.kind ∈ kinds then .error (.unsupportedKind p.kind)
        else .ok column := by
  obtain ⟨hname, htype, hrest⟩ := Column.ofProperty_eq_ok_iff.mp h
  split
  · rename_i hkind
    rw [Column.ofProperty, Dialect.refusing_identifier, hname, ok_bind,
      d.refusing_columnType_of_mem hkind]
    rfl
  · rename_i hkind
    rw [← d.refusing_columnType_of_not_mem hkind] at htype
    exact Column.ofProperty_eq_ok_iff.mpr ⟨hname, htype, hrest⟩

theorem Column.exists_ofProperty_refusing_iff {p : Property} {column : Column}
    (h : Column.ofProperty d p = .ok column) :
    (∃ column', Column.ofProperty (d.refusing kinds) p = .ok column') ↔
      p.kind ∉ kinds := by
  rw [Column.ofProperty_refusing h]
  by_cases hkind : p.kind ∈ kinds
  · simp [hkind]
  · simp [hkind]

/-- Of a table block, only the columns can be refused. -/
theorem TableBlock.ofEntitySet_refusing {e : EntitySet} {block : TableBlock}
    (h : TableBlock.ofEntitySet d e = .ok block) :
    TableBlock.ofEntitySet (d.refusing kinds) e =
      (e.properties.mapM (Column.ofProperty (d.refusing kinds))).map
        fun columns => { block with columns } := by
  obtain ⟨keys, hname, hkeys, -, hkeyName, hkeyColumns, hcomments⟩ :=
    TableBlock.ofEntitySet_eq_ok_iff.mp h
  cases hcolumns : e.properties.mapM (Column.ofProperty (d.refusing kinds)) with
  | error fault =>
      rw [TableBlock.ofEntitySet, Dialect.refusing_identifier, hname, hkeys,
        hcolumns]
      rfl
  | ok columns =>
      exact TableBlock.ofEntitySet_eq_ok_iff.mpr
        ⟨keys, hname, hkeys, hcolumns, hkeyName, hkeyColumns, hcomments⟩

theorem TableBlock.exists_ofEntitySet_refusing_iff {e : EntitySet}
    {block : TableBlock} (h : TableBlock.ofEntitySet d e = .ok block) :
    (∃ block', TableBlock.ofEntitySet (d.refusing kinds) e = .ok block') ↔
      ¬e.UsesKinds kinds := by
  obtain ⟨-, -, -, hcolumns, -⟩ := TableBlock.ofEntitySet_eq_ok_iff.mp h
  have hcolumn : ∀ p ∈ e.properties,
      (∃ column, Column.ofProperty (d.refusing kinds) p = .ok column) ↔
        p.kind ∉ kinds := by
    intro p hp
    obtain ⟨column, -, hcolumn⟩ := exists_value_mem hcolumns hp
    exact Column.exists_ofProperty_refusing_iff hcolumn
  have hblock :
    (∃ block', TableBlock.ofEntitySet (d.refusing kinds) e = .ok block') ↔
      ∃ columns, e.properties.mapM (Column.ofProperty (d.refusing kinds)) =
        .ok columns := by
    simp only [TableBlock.ofEntitySet_refusing h, map_eq_ok_iff]
    constructor
    · rintro ⟨_, columns, hcolumns, -⟩
      exact ⟨columns, hcolumns⟩
    · rintro ⟨columns, hcolumns⟩
      exact ⟨_, columns, hcolumns, rfl⟩
  rw [hblock, exists_mapM_eq_ok_iff, EntitySet.UsesKinds]
  push Not
  exact forall₂_congr hcolumn

/-- A table block that is refused fails at the first column of a refused
type. -/
theorem TableBlock.isFirst_of_ofEntitySet_refusing {e : EntitySet}
    {block : TableBlock} {fault : Fault}
    (h : TableBlock.ofEntitySet d e = .ok block)
    (hfault : TableBlock.ofEntitySet (d.refusing kinds) e = .error fault) :
    ∃ p, IsFirst (fun p : Property => p.kind ∈ kinds) e.properties p ∧
      fault = .unsupportedKind p.kind := by
  obtain ⟨-, -, -, hcolumns, -⟩ := TableBlock.ofEntitySet_eq_ok_iff.mp h
  rw [TableBlock.ofEntitySet_refusing h, map_eq_error_iff,
    mapM_eq_error_iff] at hfault
  obtain ⟨p, hp⟩ := hfault
  have hfirst : IsFirst (fun p : Property => p.kind ∈ kinds)
      e.properties p := by
    apply hp.isFirst
    intro q hq
    obtain ⟨column, -, hcolumn⟩ := exists_value_mem hcolumns hq
    exact Column.exists_ofProperty_refusing_iff hcolumn
  refine ⟨p, hfirst, ?_⟩
  obtain ⟨column, -, hcolumn⟩ := exists_value_mem hcolumns hp.mem
  obtain ⟨-, -, -, -, hkind⟩ := hfirst
  have hrefused := hp.eq_error
  rw [Column.ofProperty_refusing hcolumn, if_pos hkind] at hrefused
  exact (Except.error.inj hrefused).symm

end Statements

/-! ## Scripts -/

namespace Generator

variable {g : Generator} {kinds : List PrimitiveKind} {s : StoreSchema}

/-- The generator that refuses some primitive types and is otherwise the
same. -/
def refusing (g : Generator) (kinds : List PrimitiveKind) : Generator :=
  { g with dialect := g.dialect.refusing kinds }

theorem scriptText_of_refusing {text : String}
    (h : (g.refusing kinds).scriptText (some s) = .ok text) :
    g.scriptText (some s) = .ok text := by
  obtain ⟨script, hscript, htext⟩ := map_eq_ok_iff.mp h
  exact map_eq_ok_iff.mpr
    ⟨script, (g.dialect.extends_refusing kinds).ofSchema hscript, htext⟩

theorem exists_ofEntitySet_of_scriptText {text : String}
    (h : g.scriptText (some s) = .ok text) {e : EntitySet}
    (he : e ∈ s.entitySets) :
    ∃ block, TableBlock.ofEntitySet g.dialect e = .ok block := by
  obtain ⟨script, hscript, -⟩ := map_eq_ok_iff.mp h
  obtain ⟨htables, -⟩ := Script.exists_ofSchema_iff.mp ⟨script, hscript⟩
  exact htables e he

theorem exists_tableText_refusing_iff {e : EntitySet} {block : TableBlock}
    (h : TableBlock.ofEntitySet g.dialect e = .ok block) :
    (∃ text, (g.refusing kinds).tableText e = .ok text) ↔
      ¬e.UsesKinds kinds := by
  rw [← TableBlock.exists_ofEntitySet_refusing_iff h]
  exact exists_tableText_iff

/-- A script that is refused fails at the first entity set that uses a refused
type, and there at the first property of such a type. -/
theorem isFirst_of_scriptText_refusing {text : String} {fault : Fault}
    (h : g.scriptText (some s) = .ok text)
    (hfault : (g.refusing kinds).scriptText (some s) = .error fault) :
    ∃ e p, IsFirst (EntitySet.UsesKinds kinds) s.entitySets e ∧
      IsFirst (fun p : Property => p.kind ∈ kinds) e.properties p ∧
      fault = .inEntitySet e.name (.unsupportedKind p.kind) := by
  rcases scriptText_eq_error_cases hfault with ⟨e, he⟩ | ⟨-, r, hr⟩
  · have hfirst : IsFirst (EntitySet.UsesKinds kinds) s.entitySets e := by
      apply he.isFirst
      intro other hother
      obtain ⟨block, hblock⟩ := exists_ofEntitySet_of_scriptText h hother
      exact exists_tableText_refusing_iff hblock
    obtain ⟨block, hblock⟩ := exists_ofEntitySet_of_scriptText h he.mem
    obtain ⟨cause, hcause, rfl⟩ := tableText_eq_error_iff.mp he.eq_error
    obtain ⟨p, hp, rfl⟩ :=
      TableBlock.isFirst_of_ofEntitySet_refusing hblock hcause
    exact ⟨e, p, hfirst, hp, rfl⟩
  · obtain ⟨tables, foreignKeys, -, hforeignKeys, -⟩ :=
      scriptText_eq_ok_iff.mp h
    obtain ⟨key, -, hkey⟩ := exists_value_mem hforeignKeys hr.mem
    have hsame : (g.refusing kinds).foreignKeyText s r = g.foreignKeyText s r :=
      rfl
    have herror := hr.eq_error
    rw [hsame, hkey] at herror
    cases herror

/-- Refusing some primitive types leaves a script as it is when no property has
one of them.  Otherwise the script fails at the first entity set that has such a
property, for the type of its first such property.  A schema without a script
does not get one. -/
theorem scriptText_refusing (g : Generator) (kinds : List PrimitiveKind)
    (s : StoreSchema) :
    (∀ text, g.scriptText (some s) = .ok text →
      ((∀ e ∈ s.entitySets, ¬e.UsesKinds kinds) →
          (g.refusing kinds).scriptText (some s) = .ok text) ∧
        ((∃ e ∈ s.entitySets, e.UsesKinds kinds) →
          ∃ e p, IsFirst (EntitySet.UsesKinds kinds) s.entitySets e ∧
            IsFirst (fun p : Property => p.kind ∈ kinds) e.properties p ∧
            (g.refusing kinds).scriptText (some s) =
              .error (.inEntitySet e.name (.unsupportedKind p.kind)))) ∧
      ∀ fault, g.scriptText (some s) = .error fault →
        ∃ fault', (g.refusing kinds).scriptText (some s) = .error fault' := by
  constructor
  · intro text h
    cases hrefusing : (g.refusing kinds).scriptText (some s) with
    | error fault =>
        obtain ⟨e, p, he, hp, rfl⟩ := isFirst_of_scriptText_refusing h hrefusing
        constructor
        · intro hunused
          obtain ⟨before, after, hsplit, -, huses⟩ := he
          have hmem : e ∈ s.entitySets := by simp [hsplit]
          exact absurd huses (hunused e hmem)
        · intro _
          exact ⟨e, p, he, hp, rfl⟩
    | ok text' =>
        have hsame := scriptText_of_refusing hrefusing
        rw [h] at hsame
        constructor
        · intro _
          exact hsame.symm
        · rintro ⟨e, he, huses⟩
          obtain ⟨block, hblock⟩ := exists_ofEntitySet_of_scriptText h he
          obtain ⟨tables, -, htables, -⟩ := scriptText_eq_ok_iff.mp hrefusing
          obtain ⟨table, -, htable⟩ := exists_value_mem htables he
          exact absurd huses
            ((exists_tableText_refusing_iff hblock).mp ⟨table, htable⟩)
  · intro fault h
    cases hrefusing : (g.refusing kinds).scriptText (some s) with
    | error fault' => exact ⟨fault', rfl⟩
    | ok text =>
        rw [scriptText_of_refusing hrefusing] at h
        cases h

/-- The orders use the first of these types, but the customers come before them,
and of the customers' properties the truth value comes before the unique
identifier.  A type that no property has can be refused without effect. -/
theorem scriptText_refusing_sample :
    ∃ text e p, standard.scriptText (some Sample.schema) = .ok text ∧
      (standard.refusing [.int64]).scriptText (some Sample.schema) = .ok text ∧
      IsFirst (EntitySet.UsesKinds [.decimal, .guid, .boolean])
        Sample.schema.entitySets e ∧
      IsFirst (fun p : Property => p.kind ∈ [.decimal, .guid, .boolean])
        e.properties p ∧
      e.name = "Customer" ∧ p.kind = .boolean := by
  obtain ⟨text, h⟩ : ∃ text,
      standard.scriptText (some Sample.schema) = .ok text := ⟨_, rfl⟩
  obtain ⟨hkept, -⟩ :=
    (scriptText_refusing standard [.int64] Sample.schema).1 text h
  obtain ⟨-, hrefused⟩ :=
    (scriptText_refusing standard [.decimal, .guid, .boolean] Sample.schema).1
      text h
  have hunused : ∀ e ∈ Sample.schema.entitySets, ¬e.UsesKinds [.int64] := by
    simp only [EntitySet.UsesKinds]
    decide
  have huses : ∃ e ∈ Sample.schema.entitySets,
      e.UsesKinds [.decimal, .guid, .boolean] := by
    simp only [EntitySet.UsesKinds]
    decide
  obtain ⟨e, p, he, hp, hfault⟩ := hrefused huses
  have hculprit : (standard.refusing [.decimal, .guid, .boolean]).scriptText
      (some Sample.schema) =
        .error (.inEntitySet "Customer" (.unsupportedKind .boolean)) := rfl
  rw [hculprit] at hfault
  obtain ⟨hname, hcause⟩ := Fault.inEntitySet.inj (Except.error.inj hfault)
  exact ⟨text, e, p, h, hkept hunused, he, hp, hname.symm,
    (Fault.unsupportedKind.inj hcause).symm⟩

end Generator

end FirebirdSchema
