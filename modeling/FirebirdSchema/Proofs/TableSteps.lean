import FirebirdSchema.Proofs.Sections
import FirebirdSchema.Proofs.Table
import FirebirdSchema.Sample

/-!
# The steps on the way to a table

An entity set has a table if its checks succeed, and otherwise the first check
that fails says why.  A check writes the table name, resolves the key, writes
the name and the type of a column, or writes the name of the key constraint.
The construction of a table also writes the names of key columns and of
commented columns, but it cannot fail at these steps: the names have been
written before.
-/

namespace FirebirdSchema

open Traversal

/-! ## Verdicts -/

namespace Traversal

variable {ε α β σ : Type}

/-- A computation without its value.  It says whether the computation succeeds,
and with which fault it fails otherwise. -/
def verdict (x : Except ε α) : Except ε Unit :=
  x.map fun _ => ()

theorem verdict_eq_ok_iff {x : Except ε α} :
    verdict x = .ok () ↔ ∃ a, x = .ok a := by
  simp [verdict, map_eq_ok_iff]

theorem verdict_eq_error_iff {x : Except ε α} {fault : ε} :
    verdict x = .error fault ↔ x = .error fault :=
  map_eq_error_iff

theorem verdict_unit (x : Except ε Unit) : verdict x = x := by
  cases x <;> rfl

/-- The verdict on a sequence whose second computation has always the same
verdict. -/
theorem verdict_bind {x : Except ε α} {f : α → Except ε β} {y : Except ε Unit}
    (h : ∀ a, x = .ok a → verdict (f a) = y) :
    verdict (x >>= f) = verdict x >>= fun _ => y := by
  cases x with
  | error fault => rfl
  | ok a => exact h a rfl

/-- A second computation that cannot fail does not count. -/
theorem verdict_bind_of_ok {x : Except ε α} {f : α → Except ε β}
    (h : ∀ a, x = .ok a → ∃ b, f a = .ok b) :
    verdict (x >>= f) = verdict x := by
  rw [verdict_bind fun a ha => verdict_eq_ok_iff.mpr (h a ha)]
  cases x <;> rfl

theorem verdict_mapM (f : α → Except ε β) (xs : List α) :
    verdict (xs.mapM f) = forM xs fun x => verdict (f x) := by
  induction xs with
  | nil => rfl
  | cons x xs ih =>
      rw [List.mapM_cons, List.forM_cons, ← ih]
      apply verdict_bind
      intro y _
      cases xs.mapM f <;> rfl

theorem forM_eq_verdict_mapM (f : α → Except ε Unit) (xs : List α) :
    forM xs f = verdict (xs.mapM f) := by
  simp only [verdict_mapM, verdict_unit]

theorem forM_singleton (f : α → Except ε Unit) (x : α) : forM [x] f = f x := by
  rw [List.forM_cons, List.forM_nil]
  exact bind_pure (f x)

theorem forM_flatMap (g : α → List β) (f : β → Except ε Unit) (xs : List α) :
    forM (xs.flatMap g) f = forM xs fun x => forM (g x) f := by
  induction xs with
  | nil => rfl
  | cons x xs ih => rw [List.flatMap_cons, List.forM_append, List.forM_cons, ih]

/-! ## Labelled faults -/

theorem verdict_label (s : σ) (x : Except ε α) :
    verdict (label s x) = label s (verdict x) :=
  (mapError_map x _ _).symm

theorem mapM_label_eq_ok {f : α → Except ε β} {xs : List α} {ys : List β}
    (s : α → σ) (h : xs.mapM f = .ok ys) :
    (xs.mapM fun x => label (s x) (f x)) = .ok ys := by
  rw [mapM_eq_ok_iff] at h ⊢
  exact h.imp fun _ _ => mapError_eq_ok_iff.mpr

/-- A traversal in which every member labels its own fault tells the first
member that fails. -/
theorem forM_label_eq_error_iff {f : α → Except ε Unit} {xs : List α} {x : α}
    {fault : ε} :
    (forM xs fun x => label x (f x)) = .error (x, fault) ↔
      FirstFault f xs x fault := by
  rw [forM_eq_verdict_mapM, verdict_eq_error_iff, mapM_eq_error_iff]
  simp only [FirstFault, label, mapError_eq_ok_iff, mapError_eq_error_iff]
  constructor
  · rintro ⟨y, before, after, hsplit, hbefore, cause, hcause, hpair⟩
    obtain ⟨rfl, rfl⟩ := Prod.mk.inj hpair
    exact ⟨before, after, hsplit, hbefore, hcause⟩
  · rintro ⟨before, after, hsplit, hbefore, hfault⟩
    exact ⟨x, before, after, hsplit, hbefore, fault, hfault, rfl⟩

theorem forM_label_eq_ok_iff {f : α → Except ε Unit} {xs : List α} :
    (forM xs fun x => label x (f x)) = .ok () ↔ ∀ x ∈ xs, f x = .ok () := by
  rw [forM_eq_verdict_mapM, verdict_eq_ok_iff, exists_mapM_eq_ok_iff]
  simp only [label, mapError_eq_ok_iff]
  constructor
  · intro h x hx
    obtain ⟨y, hy⟩ := h x hx
    exact hy
  · intro h x hx
    exact ⟨(), h x hx⟩

end Traversal

/-! ## Steps and checks -/

namespace TableBlock

/-- A step on the way to a table block that may fail. -/
inductive Step
  | tableName
  /-- Looks for a key member. -/
  | key
  /-- Looks for the property that a key member names. -/
  | keyMember (member : String)
  | columnName (p : Property)
  | columnType (p : Property)
  /-- Writes the name of the key constraint. -/
  | keyName
  | keyColumn (p : Property)
  | comment (entry : String × Marker)

/-- The steps behind the name of the key constraint. -/
def Step.FollowsKeyName : Step → Prop
  | .keyColumn _ | .comment _ => True
  | _ => False

/-- What a step asks for, said of the entity set and the dialect alone. -/
def Step.check (d : Dialect) (e : EntitySet) : Step → Except Fault Unit
  | .tableName => verdict (d.quote e.tableName)
  | .key => if e.keyMembers = [] then .error .missingKey else .ok ()
  | .keyMember member =>
    if ∃ p ∈ e.properties, p.name = member then .ok ()
      else .error (.unknownKeyMember member)
  | .columnName p => verdict (d.quote p.name)
  | .columnType p => verdict (d.columnType p.kind p.facets)
  | .keyName => verdict (d.quote ("PK_" ++ e.tableName))
  | .keyColumn p => verdict (d.quote p.name)
  | .comment entry => verdict (d.quote entry.1)

end TableBlock

/-- The checks on the way to the table of an entity set, in order. -/
def EntitySet.checks (e : EntitySet) : List TableBlock.Step :=
  [.tableName] ++ (.key :: e.keyMembers.map .keyMember) ++
    e.properties.flatMap (fun p => [.columnName p, .columnType p]) ++ [.keyName]

/-! ## Construction with a trace -/

namespace TableBlock

/-- The properties that the key members name, or the step that fails together
with its fault. -/
def tracedKeys (e : EntitySet) : Except (Step × Fault) (List Property) := do
  label .key (if e.keyMembers = [] then .error .missingKey else .ok ())
  e.keyMembers.mapM fun member =>
    label (.keyMember member) (e.keyProperty member)

/-- The column of a property, or the step that fails together with its fault. -/
def tracedColumn (d : Dialect) (p : Property) :
    Except (Step × Fault) Column := do
  let name ← label (.columnName p) (d.identifier p.name)
  let type ← label (.columnType p) (d.columnType p.kind p.facets)
  return { name, type
           isTruthValue := p.kind = .boolean
           nullable := p.nullable }

/-- The table block of an entity set whose name, key and columns are there. -/
def tracedBlock (d : Dialect) (e : EntitySet) (name : Identifier)
    (keys : List Property) (columns : List Column) :
    Except (Step × Fault) TableBlock := do
  let keyName ← label .keyName (d.identifier ("PK_" ++ e.tableName))
  let keyColumns ← keys.mapM fun p => label (.keyColumn p) (d.identifier p.name)
  let comments ← (Markers.ofProperties e.properties keys).entries.mapM
    fun entry =>
    label (.comment entry) (d.commentedColumn entry)
  return { name, columns, keyName, keyColumns, comments }

/-- The table block of an entity set, or the step that fails together with its
fault. -/
def traced (d : Dialect) (e : EntitySet) :
    Except (Step × Fault) TableBlock := do
  let name ← label .tableName (d.identifier e.tableName)
  let keys ← tracedKeys e
  let columns ← e.properties.mapM (tracedColumn d)
  tracedBlock d e name keys columns

variable {d : Dialect} {e : EntitySet}

/-! ## The trace gives the table block -/

theorem mapError_tracedKeys (e : EntitySet) :
    (tracedKeys e).mapError Prod.snd = e.keyProperties := by
  simp only [tracedKeys, mapError_bind, mapError_label, mapError_mapM,
    EntitySet.keyProperties]
  cases e.keyMembers <;> rfl

theorem mapError_tracedColumn (d : Dialect) (p : Property) :
    (tracedColumn d p).mapError Prod.snd = Column.ofProperty d p := by
  simp only [tracedColumn, mapError_bind, mapError_label]
  rfl

theorem mapError_traced (d : Dialect) (e : EntitySet) :
    (traced d e).mapError Prod.snd = TableBlock.ofEntitySet d e := by
  simp only [traced, tracedBlock, mapError_bind, mapError_label, mapError_mapM,
    mapError_tracedKeys, mapError_tracedColumn]
  rfl

/-! ## The trace fails at the first check that fails -/

theorem verdict_identifier (d : Dialect) (name : String) :
    verdict (d.identifier name) = verdict (d.quote name) := by
  simp only [Dialect.identifier]
  cases d.quote name <;> rfl

theorem verdict_keyProperty (d : Dialect) (e : EntitySet) (member : String) :
    verdict (e.keyProperty member) = Step.check d e (.keyMember member) := by
  unfold EntitySet.keyProperty
  split
  · rename_i p hp
    have hdeclared : ∃ p ∈ e.properties, p.name = member :=
      ⟨p, EntitySet.mem_properties_of_property? hp,
        EntitySet.name_of_property? hp⟩
    rw [Step.check, if_pos hdeclared]
    rfl
  · rename_i hnone
    have hundeclared : ¬∃ p ∈ e.properties, p.name = member := by
      rintro ⟨p, hp, hname⟩
      exact EntitySet.property?_eq_none_iff.mp hnone p hp hname
    rw [Step.check, if_neg hundeclared]
    rfl

theorem verdict_tracedKeys (d : Dialect) (e : EntitySet) :
    verdict (tracedKeys e) =
      forM (.key :: e.keyMembers.map .keyMember) fun step =>
        label step (step.check d e) := by
  rw [List.forM_cons, List.forM_map, tracedKeys, verdict_bind fun _ _ =>
    verdict_mapM _ _, verdict_unit]
  simp only [verdict_label, verdict_keyProperty d]
  rfl

theorem verdict_tracedColumn (d : Dialect) (e : EntitySet) (p : Property) :
    verdict (tracedColumn d p) =
      forM [.columnName p, .columnType p] fun step =>
        label step (step.check d e) := by
  have htype : verdict
    (label (Step.columnType p) (d.columnType p.kind p.facets)) =
      label (.columnType p) (Step.check d e (.columnType p)) :=
    verdict_label _ _
  rw [List.forM_cons, List.forM_cons, List.forM_nil, bind_pure, ← htype,
    tracedColumn, verdict_bind, verdict_label, verdict_identifier]
  · rfl
  · intro name _
    apply verdict_bind_of_ok
    intro type _
    exact ⟨_, rfl⟩

/-- The names of a table whose key is resolved and whose columns are there have
all been written, except for the name of the key constraint. -/
theorem verdict_tracedBlock {keys : List Property} {columns : List Column}
    (name : Identifier) (hkeys : tracedKeys e = .ok keys)
    (hcolumns : e.properties.mapM (tracedColumn d) = .ok columns) :
    verdict (tracedBlock d e name keys columns) =
      label .keyName (Step.check d e .keyName) := by
  have hkeyProperties : e.keyProperties = .ok keys := by
    rw [← mapError_tracedKeys, hkeys]
    rfl
  have hwritten : ∀ p ∈ e.properties, ∃ text, d.quote p.name = .ok text := by
    intro p hp
    obtain ⟨column, -, hcolumn⟩ := exists_value_mem hcolumns hp
    have hproperty : Column.ofProperty d p = .ok column := by
      rw [← mapError_tracedColumn, hcolumn]
      rfl
    exact (Column.exists_ofProperty_iff.mp ⟨column, hproperty⟩).1
  obtain ⟨keyColumns, hkeyColumns⟩ := exists_keyColumns hkeyProperties hwritten
  obtain ⟨comments, hcomments⟩ := exists_comments hkeyProperties hwritten
  rw [tracedBlock, verdict_bind_of_ok, verdict_label, verdict_identifier]
  · rfl
  · intro keyName _
    rw [mapM_label_eq_ok Step.keyColumn hkeyColumns, ok_bind]
    rw [mapM_label_eq_ok Step.comment hcomments, ok_bind]
    exact ⟨_, rfl⟩

/-- The steps fail as the checks do. -/
theorem verdict_traced (d : Dialect) (e : EntitySet) :
    verdict (traced d e) = forM e.checks fun step =>
      label step (step.check d e) := by
  rw [traced, verdict_bind fun name _ => verdict_bind fun keys hkeys =>
    verdict_bind fun columns hcolumns =>
      verdict_tracedBlock name hkeys hcolumns]
  rw [verdict_label, verdict_identifier, verdict_tracedKeys d, verdict_mapM]
  simp only [verdict_tracedColumn d e, EntitySet.checks, List.forM_append,
    forM_flatMap, forM_singleton, bind_assoc]
  rfl

theorem traced_eq_error_iff {step : Step} {fault : Fault} :
    traced d e = .error (step, fault) ↔
      FirstFault (Step.check d e) e.checks step fault := by
  rw [← verdict_eq_error_iff, verdict_traced, forM_label_eq_error_iff]

theorem exists_ofEntitySet_iff_checks :
    (∃ block, TableBlock.ofEntitySet d e = .ok block) ↔
      ∀ step ∈ e.checks, step.check d e = .ok () := by
  simp only [← mapError_traced, mapError_eq_ok_iff]
  rw [← verdict_eq_ok_iff, verdict_traced, forM_label_eq_ok_iff]

theorem ofEntitySet_eq_error_iff {fault : Fault} :
    TableBlock.ofEntitySet d e = .error fault ↔
      ∃ step, FirstFault (Step.check d e) e.checks step fault := by
  simp only [← mapError_traced, mapError_eq_error_iff, ← traced_eq_error_iff]
  constructor
  · rintro ⟨⟨step, cause⟩, htraced, rfl⟩
    exact ⟨step, htraced⟩
  · rintro ⟨step, htraced⟩
    exact ⟨(step, fault), htraced, rfl⟩

/-- No check stands behind the name of the key constraint. -/
theorem not_followsKeyName_of_mem_checks {step : Step} (h : step ∈ e.checks) :
    ¬step.FollowsKeyName := by
  simp only [EntitySet.checks, List.mem_append, List.mem_cons, List.mem_map,
    List.mem_flatMap, List.not_mem_nil, or_false] at h
  rcases h with ((rfl | rfl | ⟨member, -, rfl⟩) | ⟨p, -, rfl | rfl⟩) | rfl
    <;> exact id

end TableBlock

/-! ## The text of a table -/

/-- Customers with a second key member that is no property, and a column of a
type that the standard server does not support. -/
def Sample.ghostKeyed : EntitySet :=
  (Sample.customers.withProperty
    (.ofKind "SINCE" .dateTimeOffset)).withKeyMember "GHOST"

namespace Generator

open TableBlock

/-- An entity set has a table exactly when its checks succeed, and otherwise the
fault is that of the first check that fails, attributed to the set.  The
construction of the table fails at that very step, which is never the name of a
key column or of a commented column. -/
theorem firstFault_of_tableText (g : Generator) (e : EntitySet) :
    ((∃ text, g.tableText e = .ok text) ↔
        ∀ step ∈ e.checks, step.check g.dialect e = .ok ()) ∧
      (∀ fault, g.tableText e = .error fault ↔
        ∃ step cause, FirstFault (Step.check g.dialect e) e.checks step cause ∧
          fault = .inEntitySet e.name cause) ∧
      (traced g.dialect e).mapError Prod.snd =
        TableBlock.ofEntitySet g.dialect e ∧
      ∀ step cause, traced g.dialect e = .error (step, cause) →
        FirstFault (Step.check g.dialect e) e.checks step cause ∧
          ¬step.FollowsKeyName := by
  refine ⟨?_, ?_, mapError_traced g.dialect e, ?_⟩
  · rw [exists_tableText_iff, exists_ofEntitySet_iff_checks]
  · intro fault
    simp only [tableText_eq_error_iff, ofEntitySet_eq_error_iff]
    constructor
    · rintro ⟨cause, ⟨step, hfirst⟩, hfault⟩
      exact ⟨step, cause, hfirst, hfault⟩
    · rintro ⟨step, cause, hfirst, hfault⟩
      exact ⟨cause, ⟨step, hfirst⟩, hfault⟩
  · intro step cause htraced
    have hfirst := traced_eq_error_iff.mp htraced
    exact ⟨hfirst, not_followsKeyName_of_mem_checks hfirst.mem⟩

/-- The second key member is checked before the columns, so it is what the set
fails at, although the type of its last column is not supported either. -/
theorem firstFault_of_tableText_ghostKeyed :
    FirstFault (Step.check standard.dialect Sample.ghostKeyed)
      Sample.ghostKeyed.checks
        (.keyMember "GHOST") (.unknownKeyMember "GHOST") ∧
      Step.check standard.dialect Sample.ghostKeyed
        (.columnType (.ofKind "SINCE" .dateTimeOffset)) =
          .error (.unsupportedKind .dateTimeOffset) ∧
      standard.tableText Sample.ghostKeyed =
        .error (.inEntitySet "Customer" (.unknownKeyMember "GHOST")) := by
  obtain ⟨-, herror, -, htrace⟩ :=
    firstFault_of_tableText standard Sample.ghostKeyed
  have htraced : traced standard.dialect Sample.ghostKeyed =
      .error (.keyMember "GHOST", .unknownKeyMember "GHOST") := rfl
  obtain ⟨hfirst, -⟩ := htrace _ _ htraced
  exact ⟨hfirst, rfl, (herror _).mpr ⟨_, _, hfirst, rfl⟩⟩

end Generator

end FirebirdSchema
