import FirebirdSchema.Proofs.ForeignKey
import FirebirdSchema.Proofs.Wording
import FirebirdSchema.Sample
import Mathlib.Data.List.Find
import Mathlib.Data.List.Nodup

/-!
# Schemas in another order

The order in which the sets of a schema are declared is the order of their texts
in the script.  It has no other effect, as long as no two entity sets share a
name: then a name stands for the same entity set in every order.
-/

namespace FirebirdSchema

open Traversal

/-! ## Lookups -/

theorem StoreSchema.entitySet?_eq_of_perm {s s' : StoreSchema}
    (hnames : (s.entitySets.map EntitySet.name).Nodup)
    (hsets : s.entitySets.Perm s'.entitySets) (name : String) :
    s.entitySet? name = s'.entitySet? name := by
  apply List.find?_eq_find?_of_perm hsets
  rintro e ⟨he, hname⟩ e' ⟨he', hname'⟩
  apply List.inj_on_of_nodup_map hnames he he'
  rw [of_decide_eq_true hname, of_decide_eq_true hname']

/-- Two schemas that give the ends of a relationship set the same tables give it
the same foreign key. -/
theorem ForeignKey.ofRelationship_congr {d : Dialect} {s s' : StoreSchema}
    {r : Relationship}
    (h : ∀ e ∈ r.ends, s.tableName? e.entitySet = s'.tableName? e.entitySet) :
    ForeignKey.ofRelationship d s r = ForeignKey.ofRelationship d s' r := by
  have hbound : ∀ {role : String} {e : RelationshipEnd}, r.end? role = some e →
      s.boundTable e = s'.boundTable e := by
    intro role e he
    simp only [StoreSchema.boundTable, h e (List.mem_of_find?_eq_some he)]
  rw [ofRelationship_eq, ofRelationship_eq]
  cases hb : r.binding with
  | error fault => rfl
  | ok b =>
      obtain ⟨-, -, hprincipal, hdependent, -⟩ :=
        Relationship.binding_eq_ok_iff.mp hb
      simp only [ok_bind, hbound hprincipal, hbound hdependent]

namespace Generator

variable {g : Generator} {s s' : StoreSchema}

theorem foreignKeyText_congr {r : Relationship}
    (h : ∀ e ∈ r.ends, s.tableName? e.entitySet = s'.tableName? e.entitySet) :
    g.foreignKeyText s r = g.foreignKeyText s' r := by
  simp only [foreignKeyText, StoreSchema.foreignKey,
    ForeignKey.ofRelationship_congr h]

theorem foreignKeyText_eq_of_perm
    (hnames : (s.entitySets.map EntitySet.name).Nodup)
    (hsets : s.entitySets.Perm s'.entitySets) (r : Relationship) :
    g.foreignKeyText s r = g.foreignKeyText s' r := by
  apply foreignKeyText_congr
  intro e _
  rw [StoreSchema.tableName?, StoreSchema.tableName?,
    StoreSchema.entitySet?_eq_of_perm hnames hsets]

/-! ## Scripts -/

/-- Every set of a schema with a script has a text of its own, and the script is
those texts in the order of the sets. -/
theorem exists_texts_of_scriptText {text : String}
    (h : g.scriptText (some s) = .ok text) :
    ∃ (tableOf : EntitySet → String) (foreignKeyOf : Relationship → String),
      (∀ e ∈ s.entitySets, g.tableText e = .ok (tableOf e)) ∧
        (∀ r ∈ s.relationships, g.foreignKeyText s r = .ok (foreignKeyOf r)) ∧
        text = g.config.sections (s.entitySets.map tableOf)
          (s.relationships.map foreignKeyOf) := by
  obtain ⟨htables, hforeignKeys⟩ := exists_scriptText_iff.mp ⟨text, h⟩
  obtain ⟨tableOf, htableOf⟩ := exists_values htables
  obtain ⟨foreignKeyOf, hforeignKeyOf⟩ := exists_values hforeignKeys
  refine ⟨tableOf, foreignKeyOf, htableOf, hforeignKeyOf, ?_⟩
  rw [scriptText_some, mapM_eq_ok_map htableOf,
    mapM_eq_ok_map hforeignKeyOf] at h
  exact (Except.ok.inj h).symm

theorem exists_scriptText_iff_of_perm
    (hnames : (s.entitySets.map EntitySet.name).Nodup)
    (hsets : s.entitySets.Perm s'.entitySets)
    (hrelationships : s.relationships.Perm s'.relationships) :
    (∃ text, g.scriptText (some s) = .ok text) ↔
      ∃ text, g.scriptText (some s') = .ok text := by
  simp only [exists_scriptText_iff, hsets.mem_iff, hrelationships.mem_iff,
    foreignKeyText_eq_of_perm hnames hsets]

/-- Declaring the sets of a schema in another order puts the same tables and the
same foreign keys in that order, when no two entity sets share a name.  In
general a foreign key depends on no more than the first tables of the names at
its ends. -/
theorem scriptText_of_reordered_schema (g : Generator) :
    let eol := if g.config.lineEnding = .crlf then "\r\n" else "\n"
    let joined := fun tables foreignKeys : List String =>
      "-- Tables" ++ eol ++ eol.intercalate tables ++ eol ++
        "-- Foreign Key Constraints" ++ eol ++ eol.intercalate foreignKeys ++
        eol ++ eol ++ "-- EOF"
    (∀ s s' : StoreSchema, (s.entitySets.map EntitySet.name).Nodup →
        s.entitySets.Perm s'.entitySets →
        s.relationships.Perm s'.relationships →
        ((∃ text, g.scriptText (some s) = .ok text) ↔
            ∃ text, g.scriptText (some s') = .ok text) ∧
          ∀ text, g.scriptText (some s) = .ok text →
            ∃ (tableOf : EntitySet → String)
                (foreignKeyOf : Relationship → String),
              (∀ e ∈ s.entitySets, g.tableText e = .ok (tableOf e)) ∧
                (∀ r ∈ s.relationships,
                  g.foreignKeyText s r = .ok (foreignKeyOf r)) ∧
                text = joined (s.entitySets.map tableOf)
                  (s.relationships.map foreignKeyOf) ∧
                g.scriptText (some s') = .ok
                  (joined (s'.entitySets.map tableOf)
                    (s'.relationships.map foreignKeyOf))) ∧
      ∀ (r : Relationship) (s s' : StoreSchema),
        (∀ e ∈ r.ends,
          s.tableName? e.entitySet = s'.tableName? e.entitySet) →
          g.foreignKeyText s r = g.foreignKeyText s' r := by
  intro eol joined
  have hjoined : ∀ tables foreignKeys,
      joined tables foreignKeys = g.config.sections tables foreignKeys := by
    intro tables foreignKeys
    rw [Layout.sections_eq, LineEnding.text_eq]
  simp only [hjoined]
  constructor
  · intro s s' hnames hsets hrelationships
    refine ⟨exists_scriptText_iff_of_perm hnames hsets hrelationships, ?_⟩
    intro text h
    obtain ⟨tableOf, foreignKeyOf, htableOf, hforeignKeyOf, htext⟩ :=
      exists_texts_of_scriptText h
    refine ⟨tableOf, foreignKeyOf, htableOf, hforeignKeyOf, htext, ?_⟩
    have htables : s'.entitySets.mapM g.tableText =
        .ok (s'.entitySets.map tableOf) := by
      apply mapM_eq_ok_map
      intro e he
      exact htableOf e (hsets.mem_iff.mpr he)
    have hforeignKeys : s'.relationships.mapM (g.foreignKeyText s') =
        .ok (s'.relationships.map foreignKeyOf) := by
      apply mapM_eq_ok_map
      intro r hr
      rw [← foreignKeyText_eq_of_perm hnames hsets]
      exact hforeignKeyOf r (hrelationships.mem_iff.mpr hr)
    exact scriptText_eq_ok_iff.mpr ⟨_, _, htables, hforeignKeys, rfl⟩
  · intro r s s' h
    exact foreignKeyText_congr h

/-- The two sample tables and two foreign keys between them, each pair in both
orders. -/
theorem scriptText_of_reordered_schema_orders :
    let second := { Sample.customerOrders with name := "B" }
    ∃ (tableOf : EntitySet → String) (foreignKeyOf : Relationship → String),
      standard.scriptText (some
          { entitySets := [Sample.customers, Sample.orders]
            relationships := [Sample.customerOrders, second] }) =
        .ok ("-- Tables" ++ "\n" ++
          "\n".intercalate [tableOf Sample.customers, tableOf Sample.orders] ++
          "\n" ++ "-- Foreign Key Constraints" ++ "\n" ++
          "\n".intercalate
            [foreignKeyOf Sample.customerOrders, foreignKeyOf second] ++
          "\n" ++ "\n" ++ "-- EOF") ∧
      standard.scriptText (some
          { entitySets := [Sample.orders, Sample.customers]
            relationships := [second, Sample.customerOrders] }) =
        .ok ("-- Tables" ++ "\n" ++
          "\n".intercalate [tableOf Sample.orders, tableOf Sample.customers] ++
          "\n" ++ "-- Foreign Key Constraints" ++ "\n" ++
          "\n".intercalate
            [foreignKeyOf second, foreignKeyOf Sample.customerOrders] ++
          "\n" ++ "\n" ++ "-- EOF") := by
  intro second
  obtain ⟨text, h⟩ : ∃ text, standard.scriptText (some
      { entitySets := [Sample.customers, Sample.orders]
        relationships := [Sample.customerOrders, second] }) = .ok text :=
    ⟨_, rfl⟩
  obtain ⟨hreordered, -⟩ := scriptText_of_reordered_schema standard
  obtain ⟨-, htexts⟩ := hreordered
    { entitySets := [Sample.customers, Sample.orders]
      relationships := [Sample.customerOrders, second] }
    { entitySets := [Sample.orders, Sample.customers]
      relationships := [second, Sample.customerOrders] }
    (by decide) (List.Perm.swap _ _ _) (List.Perm.swap _ _ _)
  obtain ⟨tableOf, foreignKeyOf, -, -, htext, h'⟩ := htexts text h
  exact ⟨tableOf, foreignKeyOf, h.trans (congrArg Except.ok htext), h'⟩

end Generator

end FirebirdSchema
