import FirebirdSchema.Generator
import FirebirdSchema.Proofs.Traversal

/-!
# The sections of a script

A script is a section of table blocks, a section of foreign keys and a closing
line.  The text of a script is built here from the texts of its blocks and
foreign keys, each of which is the text of one set of the schema.
-/

namespace FirebirdSchema

open Traversal

/-! ## Sections -/

namespace Layout

/-- The line ending that separates a further text from the ones before it, if
there are any. -/
def breakAfter {α : Type} (layout : Layout) : List α → String
  | [] => ""
  | _ :: _ => layout.lineEnding.text

/-- The table section, up to the end of its last block. -/
def tableSection (layout : Layout) (tables : List String) : String :=
  layout.line "-- Tables" ++ layout.separate tables

/-- The foreign key section, from the end of the last table block to the end of
the last foreign key. -/
def foreignKeySection (layout : Layout) (foreignKeys : List String) : String :=
  layout.line "" ++ layout.line "-- Foreign Key Constraints" ++
    layout.separate foreignKeys

/-- The end of a script, from the end of the last foreign key. -/
def closing (layout : Layout) : String :=
  layout.line "" ++ layout.line "" ++ "-- EOF"

/-- The text of a script with the given table blocks and foreign keys. -/
def sections (layout : Layout) (tables foreignKeys : List String) : String :=
  layout.tableSection tables ++ layout.foreignKeySection foreignKeys ++
    layout.closing

theorem script_eq_sections (layout : Layout) (script : Script) :
    layout.script script =
      layout.sections (script.tables.map layout.tableBlock)
        (script.foreignKeys.map layout.foreignKey) := by
  simp only [Layout.script, sections, tableSection, foreignKeySection, closing,
    line, String.append_assoc, String.empty_append]

theorem breakAfter_eq_of_length {α β : Type} (layout : Layout) {xs : List α}
    {ys : List β} (h : xs.length = ys.length) :
    layout.breakAfter xs = layout.breakAfter ys := by
  cases xs with
  | nil => rw [List.eq_nil_of_length_eq_zero h.symm]; rfl
  | cons x xs =>
      cases ys with
      | nil => cases h
      | cons y ys => rfl

theorem separate_concat (layout : Layout) (texts : List String)
    (text : String) :
    layout.separate (texts ++ [text]) =
      layout.separate texts ++ layout.breakAfter texts ++ text := by
  by_cases hempty : texts = []
  · subst hempty
    simp [separate, breakAfter]
  · obtain ⟨first, rest, rfl⟩ := List.exists_cons_of_ne_nil hempty
    rw [separate,
      String.intercalate_append_of_ne_nil hempty (List.cons_ne_nil _ _),
      String.intercalate_singleton]
    rfl

theorem tableSection_concat (layout : Layout) (tables : List String)
    (table : String) :
    layout.tableSection (tables ++ [table]) =
      layout.tableSection tables ++ layout.breakAfter tables ++ table := by
  rw [tableSection, separate_concat, tableSection]
  simp only [String.append_assoc]

theorem foreignKeySection_concat (layout : Layout) (foreignKeys : List String)
    (foreignKey : String) :
    layout.foreignKeySection (foreignKeys ++ [foreignKey]) =
      layout.foreignKeySection foreignKeys ++ layout.breakAfter foreignKeys ++
        foreignKey := by
  rw [foreignKeySection, separate_concat, foreignKeySection]
  simp only [String.append_assoc]

end Layout

/-! ## The texts of single sets -/

namespace Generator

variable {g : Generator}

theorem exists_tableText_iff {e : EntitySet} :
    (∃ text, g.tableText e = .ok text) ↔
      ∃ block, TableBlock.ofEntitySet g.dialect e = .ok block := by
  simp only [tableText, EntitySet.tableBlock, Fault.attributeToEntitySet,
    map_eq_ok_iff, mapError_eq_ok_iff]
  constructor
  · rintro ⟨text, block, hblock, -⟩
    exact ⟨block, hblock⟩
  · rintro ⟨block, hblock⟩
    exact ⟨_, block, hblock, rfl⟩

theorem exists_foreignKeyText_iff {s : StoreSchema} {r : Relationship} :
    (∃ text, g.foreignKeyText s r = .ok text) ↔
      ∃ key, ForeignKey.ofRelationship g.dialect s r = .ok key := by
  simp only [foreignKeyText, StoreSchema.foreignKey,
    Fault.attributeToRelationshipSet, map_eq_ok_iff, mapError_eq_ok_iff]
  constructor
  · rintro ⟨text, key, hkey, -⟩
    exact ⟨key, hkey⟩
  · rintro ⟨key, hkey⟩
    exact ⟨_, key, hkey, rfl⟩

theorem tableText_eq_error_iff {e : EntitySet} {fault : Fault} :
    g.tableText e = .error fault ↔
      ∃ cause, TableBlock.ofEntitySet g.dialect e = .error cause ∧
        fault = .inEntitySet e.name cause := by
  simp only [tableText, EntitySet.tableBlock, Fault.attributeToEntitySet,
    map_eq_error_iff, mapError_eq_error_iff]
  exact exists_congr fun cause => and_congr_right fun _ => eq_comm

end Generator

/-! ## The text of a script -/

namespace Generator

/-- The text of a script is made of the texts of its tables and foreign keys,
and a script fails like the first of them that fails. -/
theorem scriptText_some (g : Generator) (s : StoreSchema) :
    g.scriptText (some s) = do
      let tables ← s.entitySets.mapM g.tableText
      let foreignKeys ← s.relationships.mapM (g.foreignKeyText s)
      return g.config.sections tables foreignKeys := by
  have htables : s.entitySets.mapM g.tableText =
      (s.entitySets.mapM (EntitySet.tableBlock g.dialect)).map
        (List.map g.config.tableBlock) :=
    (map_mapM _ _ _).symm
  have hforeignKeys : s.relationships.mapM (g.foreignKeyText s) =
      (s.relationships.mapM (StoreSchema.foreignKey g.dialect s)).map
        (List.map g.config.foreignKey) :=
    (map_mapM _ _ _).symm
  rw [htables, hforeignKeys, scriptText, schemaText, Script.ofSchema]
  cases s.entitySets.mapM (EntitySet.tableBlock g.dialect) with
  | error fault => rfl
  | ok tables =>
      cases s.relationships.mapM (StoreSchema.foreignKey g.dialect s) with
      | error fault => rfl
      | ok foreignKeys =>
          exact congrArg Except.ok
            (Layout.script_eq_sections _ ⟨tables, foreignKeys⟩)

theorem scriptText_eq_ok_iff {g : Generator} {s : StoreSchema} {text : String} :
    g.scriptText (some s) = .ok text ↔
      ∃ tables foreignKeys, s.entitySets.mapM g.tableText = .ok tables ∧
        s.relationships.mapM (g.foreignKeyText s) = .ok foreignKeys ∧
        g.config.sections tables foreignKeys = text := by
  simp only [scriptText_some, bind_eq_ok_iff, pure_eq_ok_iff]
  constructor
  · intro h
    obtain ⟨tables, htables, foreignKeys, hforeignKeys, htext⟩ := h
    exact ⟨tables, foreignKeys, htables, hforeignKeys, htext⟩
  · intro h
    obtain ⟨tables, foreignKeys, htables, hforeignKeys, htext⟩ := h
    exact ⟨tables, htables, foreignKeys, hforeignKeys, htext⟩

/-- A schema has a script when every one of its sets has its text. -/
theorem exists_scriptText_iff {g : Generator} {s : StoreSchema} :
    (∃ text, g.scriptText (some s) = .ok text) ↔
      (∀ e ∈ s.entitySets, ∃ table, g.tableText e = .ok table) ∧
        ∀ r ∈ s.relationships, ∃ foreignKey,
          g.foreignKeyText s r = .ok foreignKey := by
  simp only [scriptText_eq_ok_iff, ← exists_mapM_eq_ok_iff]
  constructor
  · intro h
    obtain ⟨text, tables, foreignKeys, htables, hforeignKeys, -⟩ := h
    exact ⟨⟨tables, htables⟩, foreignKeys, hforeignKeys⟩
  · intro h
    obtain ⟨⟨tables, htables⟩, foreignKeys, hforeignKeys⟩ := h
    exact ⟨_, tables, foreignKeys, htables, hforeignKeys, rfl⟩

end Generator

end FirebirdSchema
