import FirebirdSchema.Proofs.ForeignKey
import FirebirdSchema.Proofs.Sections
import FirebirdSchema.Proofs.ServerFaults
import FirebirdSchema.Sample

/-!
# The culprit of a schema without a script

A schema without a script has one culprit: the first entity set without a table,
or else the first relationship set without a foreign key.  The fault of the
script is the fault of the culprit, attributed to it once.  In the second case
every table name has been written already, so the fault arises in some other
step.
-/

namespace FirebirdSchema

open Traversal

/-! ## Faults that are not attributed -/

/-- A fault that is attributed to no set. -/
def Fault.IsPlain (fault : Fault) : Prop :=
  ¬fault.IsAttributed

theorem Fault.isPlain_of_cause? {fault : Fault} (h : fault.cause? = none) :
    fault.IsPlain := by
  simp [IsPlain, IsAttributed, h]

theorem Fault.IsPlain.root_eq {fault : Fault} (h : fault.IsPlain) :
    fault.root = fault :=
  Fault.root_eq_self (Option.not_isSome_iff_eq_none.mp h)

/-- A dialect that leaves the attribution of faults to its callers. -/
structure Dialect.GivesPlainFaults (d : Dialect) : Prop where
  quote : ∀ name, FaultsIn Fault.IsPlain (d.quote name)
  columnType : ∀ kind facets, FaultsIn Fault.IsPlain (d.columnType kind facets)

theorem EntitySet.faultsIn_keyProperties (e : EntitySet) :
    FaultsIn Fault.IsPlain e.keyProperties := by
  have hmember : ∀ member, FaultsIn Fault.IsPlain (e.keyProperty member) := by
    intro member
    unfold keyProperty
    split
    · exact FaultsIn.ok _
    · exact FaultsIn.error (Fault.isPlain_of_cause? rfl)
  unfold keyProperties
  split
  · exact FaultsIn.error (Fault.isPlain_of_cause? rfl)
  · exact FaultsIn.mapM hmember _

theorem StoreSchema.faultsIn_boundEntitySet (s : StoreSchema)
    (e : RelationshipEnd) :
    FaultsIn Fault.IsPlain (s.boundEntitySet e) := by
  unfold boundEntitySet
  split
  · exact FaultsIn.ok _
  · exact FaultsIn.error (Fault.isPlain_of_cause? rfl)

theorem Relationship.faultsIn_binding (r : Relationship) :
    FaultsIn Fault.IsPlain r.binding := by
  have hconstraint : FaultsIn Fault.IsPlain r.constraint := by
    unfold constraint
    split
    · exact FaultsIn.ok _
    · exact FaultsIn.error (Fault.isPlain_of_cause? rfl)
  have hend : ∀ role, FaultsIn Fault.IsPlain (r.endOf role) := by
    intro role
    unfold endOf
    split
    · exact FaultsIn.ok _
    · exact FaultsIn.error (Fault.isPlain_of_cause? rfl)
  unfold binding
  apply hconstraint.bind
  intro c _
  split
  · exact FaultsIn.error (Fault.isPlain_of_cause? rfl)
  · apply (hend _).bind
    intro principal _
    apply (hend _).bind
    intro dependent _
    exact FaultsIn.ok _

namespace Dialect.GivesPlainFaults

variable {d : Dialect}

theorem identifier (hd : d.GivesPlainFaults) (name : String) :
    FaultsIn Fault.IsPlain (d.identifier name) := by
  apply (hd.quote name).bind
  intro text _
  exact FaultsIn.ok _

theorem ofProperty (hd : d.GivesPlainFaults) (p : Property) :
    FaultsIn Fault.IsPlain (Column.ofProperty d p) := by
  apply (hd.identifier p.name).bind
  intro name _
  apply (hd.columnType p.kind p.facets).bind
  intro type _
  exact FaultsIn.ok _

theorem ofEntitySet (hd : d.GivesPlainFaults) (e : EntitySet) :
    FaultsIn Fault.IsPlain (TableBlock.ofEntitySet d e) := by
  apply (hd.identifier e.tableName).bind
  intro name _
  apply e.faultsIn_keyProperties.bind
  intro keys _
  apply (FaultsIn.mapM hd.ofProperty e.properties).bind
  intro columns _
  apply (hd.identifier ("PK_" ++ e.tableName)).bind
  intro keyName _
  apply (FaultsIn.mapM (fun p : Property => hd.identifier p.name) keys).bind
  intro keyColumns _
  apply FaultsIn.bind
  · apply FaultsIn.mapM
    intro entry
    apply (hd.identifier entry.1).bind
    intro i _
    exact FaultsIn.ok _
  · intro comments _
    exact FaultsIn.ok _

theorem ofRelationship (hd : d.GivesPlainFaults) (s : StoreSchema)
    (r : Relationship) :
    FaultsIn Fault.IsPlain (ForeignKey.ofRelationship d s r) := by
  apply r.faultsIn_binding.bind
  intro b _
  apply (s.faultsIn_boundEntitySet b.principal).bind
  intro principalSet _
  apply (s.faultsIn_boundEntitySet b.dependent).bind
  intro dependentSet _
  apply (hd.identifier dependentSet.tableName).bind
  intro table _
  apply (hd.identifier ("FK_" ++ b.name)).bind
  intro name _
  apply (FaultsIn.mapM hd.identifier b.constraint.dependentColumns).bind
  intro columns _
  apply (hd.identifier principalSet.tableName).bind
  intro principal _
  apply (FaultsIn.mapM hd.identifier b.constraint.principalColumns).bind
  intro principalColumns _
  exact FaultsIn.ok _

end Dialect.GivesPlainFaults

theorem Fault.IsOfServer.isPlain {fault : Fault} (h : fault.IsOfServer) :
    fault.IsPlain := by
  cases h <;> exact Fault.isPlain_of_cause? rfl

theorem Firebird.givesPlainFaults_dialect (f : Firebird) :
    f.dialect.GivesPlainFaults where
  quote name := (f.faultsIn_quote name).imp fun _ => Fault.IsOfServer.isPlain
  columnType kind facets :=
    (f.faultsIn_columnType kind facets).imp fun _ => Fault.IsOfServer.isPlain

/-! ## The step at which a foreign key fails -/

namespace ForeignKey

/-- A step on the way to a foreign key. -/
inductive Step
  | binding
  | principalSet
  | dependentSet
  | dependentTable
  | name
  | columns
  | principalTable
  | principalColumns

/-- The steps that write the names of the two tables. -/
def Step.WritesTableName : Step → Prop
  | .dependentTable | .principalTable => True
  | _ => False

/-- The foreign key of a relationship set, or the step that fails together with
its fault. -/
def traced (d : Dialect) (s : StoreSchema) (r : Relationship) :
    Except (Step × Fault) ForeignKey := do
  let binding ← label .binding r.binding
  let principalSet ← label .principalSet (s.boundEntitySet binding.principal)
  let dependentSet ← label .dependentSet (s.boundEntitySet binding.dependent)
  let table ← label .dependentTable (d.identifier dependentSet.tableName)
  let name ← label .name (d.identifier ("FK_" ++ binding.name))
  let columns ← label .columns
    (binding.constraint.dependentColumns.mapM d.identifier)
  let principal ← label .principalTable (d.identifier principalSet.tableName)
  let principalColumns ←
    label .principalColumns
      (binding.constraint.principalColumns.mapM d.identifier)
  return {
    table, name, columns, principal, principalColumns
    deleteRule := binding.principal.deleteRule }

theorem mapError_traced (d : Dialect) (s : StoreSchema) (r : Relationship) :
    (traced d s r).mapError Prod.snd = ForeignKey.ofRelationship d s r := by
  simp only [traced, mapError_bind, mapError_label]
  rfl

/-- When the names of all tables can be written, no step that writes one
fails. -/
theorem faultsIn_traced {d : Dialect} {s : StoreSchema} (r : Relationship)
    (htables : ∀ e ∈ s.entitySets, ∃ text, d.quote e.tableName = .ok text) :
    FaultsIn (fun p => ¬p.1.WritesTableName) (traced d s r) := by
  have hother : ∀ {α : Type} {step : Step} (x : Except Fault α),
      ¬step.WritesTableName →
        FaultsIn (fun p => ¬p.1.WritesTableName) (label step x) :=
    fun x hstep => faultsIn_label fun _ _ => hstep
  have htable : ∀ {step : Step} {end_ : RelationshipEnd} {e : EntitySet},
      label step (s.boundEntitySet end_) = .ok e → ∀ next : Step,
        FaultsIn (fun p => ¬p.1.WritesTableName)
          (label next (d.identifier e.tableName)) := by
    intro step end_ e he next
    have hset :=
      StoreSchema.boundEntitySet_eq_ok_iff.mp (mapError_eq_ok_iff.mp he)
    have hquote := htables e (StoreSchema.mem_entitySets_of_entitySet? hset)
    obtain ⟨i, hi⟩ := Dialect.exists_identifier_iff.mpr hquote
    rw [hi]
    exact FaultsIn.ok i
  apply (hother r.binding id).bind
  intro b _
  apply (hother (s.boundEntitySet b.principal) id).bind
  intro principalSet hprincipalSet
  apply (hother (s.boundEntitySet b.dependent) id).bind
  intro dependentSet hdependentSet
  apply (htable hdependentSet .dependentTable).bind
  intro table _
  apply (hother (d.identifier ("FK_" ++ b.name)) id).bind
  intro name _
  apply (hother (b.constraint.dependentColumns.mapM d.identifier) id).bind
  intro columns _
  apply (htable hprincipalSet .principalTable).bind
  intro principal _
  apply (hother (b.constraint.principalColumns.mapM d.identifier) id).bind
  intro principalColumns _
  exact FaultsIn.ok _

end ForeignKey

/-! ## Scripts -/

namespace Generator

variable {g : Generator} {s : StoreSchema} {fault : Fault}

theorem exists_cause_of_foreignKeyText {r : Relationship}
    (h : g.foreignKeyText s r = .error fault) :
    ∃ cause, ForeignKey.ofRelationship g.dialect s r = .error cause ∧
      fault = .inRelationshipSet r.name cause := by
  have hkey := map_eq_error_iff.mp h
  obtain ⟨cause, hcause, rfl⟩ := mapError_eq_error_iff.mp hkey
  exact ⟨cause, hcause, rfl⟩

theorem scriptText_eq_error_cases (h : g.scriptText (some s) = .error fault) :
    (∃ e, FirstFault g.tableText s.entitySets e fault) ∨
      (∀ e ∈ s.entitySets, ∃ text, g.tableText e = .ok text) ∧
        ∃ r, FirstFault (g.foreignKeyText s) s.relationships r fault := by
  rw [scriptText_some] at h
  rcases bind_eq_error_iff.mp h with htables | ⟨tables, htables, hkeys⟩
  · exact Or.inl (mapM_eq_error_iff.mp htables)
  · refine Or.inr ⟨exists_mapM_eq_ok_iff.mp ⟨tables, htables⟩, ?_⟩
    rcases bind_eq_error_iff.mp hkeys with hkeys | ⟨keys, -, hpure⟩
    · exact mapM_eq_error_iff.mp hkeys
    · cases hpure

/-- A table that fails makes the script fail, whatever the relationship sets
are. -/
theorem scriptText_eq_error_of_tableText {e : EntitySet}
    (h : FirstFault g.tableText s.entitySets e fault)
    (relationships : List Relationship) :
    g.scriptText (some { s with relationships }) = .error fault := by
  rw [scriptText_some]
  exact bind_eq_error_iff.mpr (Or.inl (mapM_eq_error_iff.mpr ⟨e, h⟩))

/-- The fault of a script is the fault of the first entity set without a table,
or else of the first relationship set without a foreign key, attributed once and
to that set.  A foreign key does not fail at the name of a table then. -/
theorem firstCulprit_of_scriptText_eq_error
    (hplain : g.dialect.GivesPlainFaults)
    (h : g.scriptText (some s) = .error fault) :
    (∃ e cause, FirstFault g.tableText s.entitySets e fault ∧
        TableBlock.ofEntitySet g.dialect e = .error cause ∧
        fault = .inEntitySet e.name cause ∧ cause.IsPlain ∧ fault.root = cause ∧
        ∀ relationships, g.scriptText (some { s with relationships }) =
          .error fault) ∨
      (∀ e ∈ s.entitySets, ∃ text, g.tableText e = .ok text) ∧
        ∃ r cause step,
          FirstFault (g.foreignKeyText s) s.relationships r fault ∧
          ForeignKey.ofRelationship g.dialect s r = .error cause ∧
          fault = .inRelationshipSet r.name cause ∧ cause.IsPlain ∧
          fault.root = cause ∧
          ForeignKey.traced g.dialect s r = .error (step, cause) ∧
          ¬step.WritesTableName := by
  rcases scriptText_eq_error_cases h with ⟨e, he⟩ | ⟨htables, r, hr⟩
  · left
    obtain ⟨cause, hcause, hfault⟩ := tableText_eq_error_iff.mp he.eq_error
    have hcausePlain := hplain.ofEntitySet e cause hcause
    refine ⟨e, cause, he, hcause, hfault, hcausePlain, ?_,
      scriptText_eq_error_of_tableText he⟩
    rw [hfault, Fault.root_inEntitySet]
    exact hcausePlain.root_eq
  · right
    obtain ⟨cause, hcause, hfault⟩ := exists_cause_of_foreignKeyText hr.eq_error
    have hcausePlain := hplain.ofRelationship s r cause hcause
    have hwritten : ∀ e ∈ s.entitySets, ∃ text,
        g.dialect.quote e.tableName = .ok text := by
      intro e he
      obtain ⟨text, htext⟩ := htables e he
      obtain ⟨block, hblock, -⟩ := map_eq_ok_iff.mp htext
      exact (TableBlock.exists_ofEntitySet_iff.mp ⟨block,
        mapError_eq_ok_iff.mp hblock⟩).1
    have herased := hcause
    rw [← ForeignKey.mapError_traced] at herased
    obtain ⟨⟨step, cause'⟩, htraced, hcause'⟩ :=
      mapError_eq_error_iff.mp herased
    obtain rfl : cause' = cause := hcause'
    refine ⟨htables, r, cause', step, hr, hcause, hfault, hcausePlain, ?_,
      htraced, ForeignKey.faultsIn_traced r hwritten _ htraced⟩
    rw [hfault, Fault.root_inRelationshipSet]
    exact hcausePlain.root_eq

/-- Two sets without a key and a relationship set without a constraint: the
first set without a key is at fault, whatever the relationship sets are. -/
theorem firstCulprit_of_scriptText_eq_error_keyless :
    let s : StoreSchema :=
      { entitySets := [Sample.customers, .named "A", .named "B"]
        relationships := [.named "R"] }
    standard.scriptText (some s) = .error (.inEntitySet "A" .missingKey) ∧
      (∃ e, FirstFault standard.tableText s.entitySets e
        (.inEntitySet "A" .missingKey) ∧ e.name = "A") ∧
      ∀ relationships, standard.scriptText (some { s with relationships }) =
        .error (.inEntitySet "A" .missingKey) := by
  intro s
  have h : standard.scriptText (some s) =
      .error (.inEntitySet "A" .missingKey) := rfl
  refine ⟨h, ?_⟩
  rcases firstCulprit_of_scriptText_eq_error
      (Firebird.givesPlainFaults_dialect _) h with
    ⟨e, cause, hfirst, -, hfault, -, -, hsame⟩ | ⟨-, r, cause, step, -, -,
      hfault, -⟩
  · obtain ⟨hname, -⟩ := Fault.inEntitySet.inj hfault
    exact ⟨⟨e, hfirst, hname.symm⟩, hsame⟩
  · cases hfault

end Generator

end FirebirdSchema
