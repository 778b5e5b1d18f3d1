import FirebirdSchema.Proofs.Table

/-!
# Key members

Key members are names, and a name stands for the first property that bears it.
The key of an entity set is found unless it has no members or a member names
nothing; the first such member is then at fault.

An entity set that is declared property by property has a key as soon as one
property was declared as a key member.  Its key members bear the names of those
properties.  They stand for the properties themselves when each of these is the
first one of its name, and no later declaration changes that.
-/

namespace FirebirdSchema

open Traversal

namespace EntitySet

variable {e : EntitySet}

/-! ## Finding the key -/

/-- A name that no property bears. -/
def IsUndeclared (e : EntitySet) (member : String) : Prop :=
  ∀ p ∈ e.properties, p.name ≠ member

theorem property?_eq_some_iff {name : String} {p : Property} :
    e.property? name = some p ↔
      IsFirst (fun p => p.name = name) e.properties p :=
  find?_eq_some_iff_isFirst

theorem exists_keyProperty_iff_not_isUndeclared {member : String} :
    (∃ p, e.keyProperty member = .ok p) ↔ ¬e.IsUndeclared member := by
  simp [exists_keyProperty_iff, IsUndeclared]

theorem keyProperty_eq_error_iff {member : String} {fault : Fault} :
    e.keyProperty member = .error fault ↔
      e.IsUndeclared member ∧ fault = .unknownKeyMember member := by
  rw [IsUndeclared, ← property?_eq_none_iff, keyProperty]
  split
  · rename_i p hp
    simp [hp]
  · rename_i hnone
    simp [hnone, eq_comm]

theorem firstFault_keyProperty_iff {members : List String} {member : String}
    {fault : Fault} :
    FirstFault e.keyProperty members member fault ↔
      IsFirst e.IsUndeclared members member ∧
        fault = .unknownKeyMember member := by
  simp only [FirstFault, IsFirst, exists_keyProperty_iff_not_isUndeclared,
    keyProperty_eq_error_iff]
  constructor
  · rintro ⟨before, after, hsplit, hbefore, hundeclared, hfault⟩
    exact ⟨⟨before, after, hsplit, hbefore, hundeclared⟩, hfault⟩
  · rintro ⟨⟨before, after, hsplit, hbefore, hundeclared⟩, hfault⟩
    exact ⟨before, after, hsplit, hbefore, hundeclared, hfault⟩

/-- The two ways in which a key is not found. -/
theorem keyProperties_eq_error_iff {fault : Fault} :
    e.keyProperties = .error fault ↔
      e.keyMembers = [] ∧ fault = .missingKey ∨
        ∃ member, IsFirst e.IsUndeclared e.keyMembers member ∧
          fault = .unknownKeyMember member := by
  simp only [← firstFault_keyProperty_iff, ← mapM_eq_error_iff]
  unfold keyProperties
  split
  · rename_i hempty
    rw [hempty]
    constructor
    · intro h
      cases h
      exact .inl ⟨rfl, rfl⟩
    · rintro (⟨-, rfl⟩ | h)
      · rfl
      · cases h
  · rename_i hnonempty
    constructor
    · exact .inr
    · rintro (⟨hempty, -⟩ | h)
      · exact absurd hempty hnonempty
      · exact h

theorem keyProperties_eq_missingKey_iff :
    e.keyProperties = .error .missingKey ↔ e.keyMembers = [] := by
  simp [keyProperties_eq_error_iff]

theorem keyProperties_eq_unknownKeyMember_iff {member : String} :
    e.keyProperties = .error (.unknownKeyMember member) ↔
      IsFirst e.IsUndeclared e.keyMembers member := by
  simp [keyProperties_eq_error_iff]

/-- A key that is found holds, place by place, the first property of each
name. -/
theorem forall₂_isFirst_of_keyProperties {keys : List Property}
    (h : e.keyProperties = .ok keys) :
    List.Forall₂
      (fun member p => IsFirst (fun p => p.name = member) e.properties p)
      e.keyMembers keys :=
  (keyProperties_eq_ok_iff.mp h).2.imp fun _ _ => property?_eq_some_iff.mp

/-! ## Entity sets declared step by step -/

/-- A step in the declaration of an entity set. -/
inductive Declaration
  /-- A further property. -/
  | property (p : Property)
  /-- A further property that is the next key member. -/
  | key (p : Property)
  /-- The name of the table. -/
  | table (name : String)

/-- Takes a step in the declaration of an entity set. -/
def Declaration.applyTo (e : EntitySet) : Declaration → EntitySet
  | property p => e.withProperty p
  | key p => e.withKey p
  | table name => e.withTable name

/-- The property that a step declares. -/
def Declaration.property? : Declaration → Option Property
  | property p => some p
  | key p => some p
  | table _ => none

/-- The property that a step declares as a key member. -/
def Declaration.key? : Declaration → Option Property
  | key p => some p
  | _ => none

/-- Takes steps in the declaration of an entity set, one after the other. -/
def declare (e : EntitySet) (steps : List Declaration) : EntitySet :=
  steps.foldl Declaration.applyTo e

/-- What every step adds to a list of an entity set, all steps add one after the
other. -/
theorem declare_eq_append {β : Type} {view : EntitySet → List β}
    {added : Declaration → List β}
    (hstep : ∀ e step, view (Declaration.applyTo e step) = view e ++ added step)
    (e : EntitySet) (steps : List Declaration) :
    view (e.declare steps) = view e ++ steps.flatMap added := by
  induction steps generalizing e with
  | nil => simp [declare]
  | cons step steps ih =>
      rw [declare, List.foldl_cons, ← declare, ih, hstep, List.append_assoc,
        List.flatMap_cons]

theorem properties_declare (e : EntitySet) (steps : List Declaration) :
    (e.declare steps).properties =
      e.properties ++ steps.filterMap Declaration.property? := by
  rw [List.filterMap_eq_flatMap_toList]
  apply declare_eq_append
  intro e step
  cases step with
  | property p => rfl
  | key p => rfl
  | table name => exact (List.append_nil e.properties).symm

theorem keyMembers_declare (e : EntitySet) (steps : List Declaration) :
    (e.declare steps).keyMembers =
      e.keyMembers ++ (steps.filterMap Declaration.key?).map Property.name := by
  rw [List.filterMap_eq_flatMap_toList, List.map_flatMap]
  apply declare_eq_append
  intro e step
  cases step with
  | property p => exact (List.append_nil e.keyMembers).symm
  | key p => rfl
  | table name => exact (List.append_nil e.keyMembers).symm

/-- Every key member is declared together with its property. -/
theorem mem_properties_of_mem_keys {steps : List Declaration} {p : Property}
    (h : p ∈ steps.filterMap Declaration.key?) :
    p ∈ steps.filterMap Declaration.property? := by
  obtain ⟨step, hstep, hkey⟩ := List.mem_filterMap.mp h
  refine List.mem_filterMap.mpr ⟨step, hstep, ?_⟩
  cases step with
  | key q => exact hkey
  | property q => cases hkey
  | table name => cases hkey

/-! ## Keys of declared entity sets -/

section Declared

variable {name : String} {steps : List Declaration}

theorem properties_declare_named :
    ((named name).declare steps).properties =
      steps.filterMap Declaration.property? :=
  properties_declare (named name) steps

theorem keyMembers_declare_named :
    ((named name).declare steps).keyMembers =
      (steps.filterMap Declaration.key?).map Property.name :=
  keyMembers_declare (named name) steps

theorem exists_keyProperties_declare
    (hkeys : steps.filterMap Declaration.key? ≠ []) :
    ∃ keys, ((named name).declare steps).keyProperties = .ok keys ∧
      keys.map Property.name =
        (steps.filterMap Declaration.key?).map Property.name := by
  have hfound : ∃ keys, ((named name).declare steps).keyProperties =
      .ok keys := by
    rw [exists_keyProperties_iff, keyMembers_declare_named,
      properties_declare_named]
    refine ⟨by simpa using hkeys, ?_⟩
    intro member hmember
    obtain ⟨p, hp, hname⟩ := List.mem_map.mp hmember
    exact ⟨p, mem_properties_of_mem_keys hp, hname⟩
  obtain ⟨keys, hfound⟩ := hfound
  exact ⟨keys, hfound,
    by rw [map_name_keyProperties hfound, keyMembers_declare_named]⟩

/-- The key members stand for the properties that were declared with them
exactly when each of these is the first one of its name. -/
theorem keyProperties_declare_eq_iff :
    ((named name).declare steps).keyProperties =
        .ok (steps.filterMap Declaration.key?) ↔
      steps.filterMap Declaration.key? ≠ [] ∧
        ∀ p ∈ steps.filterMap Declaration.key?,
          IsFirst (fun q => q.name = p.name)
            (steps.filterMap Declaration.property?) p := by
  rw [keyProperties_eq_ok_iff, keyMembers_declare_named,
    List.forall₂_map_left_iff, List.forall₂_same]
  simp only [property?_eq_some_iff, properties_declare_named, ne_eq,
    List.map_eq_nil_iff]

theorem keyProperties_declare_of_nodup
    (hkeys : steps.filterMap Declaration.key? ≠ [])
    (hnames :
      ((steps.filterMap Declaration.property?).map Property.name).Nodup) :
    ((named name).declare steps).keyProperties =
      .ok (steps.filterMap Declaration.key?) := by
  rw [keyProperties_declare_eq_iff]
  exact ⟨hkeys,
    fun p hp => isFirst_of_nodup_map hnames (mem_properties_of_mem_keys hp)⟩

end Declared

/-- Further properties come behind those that the key members stand for,
whatever their names. -/
theorem keyProperties_declare_properties {keys : List Property}
    (h : e.keyProperties = .ok keys) (more : List Property) :
    (e.declare (more.map .property)).keyProperties = .ok keys := by
  have hproperties : (e.declare (more.map .property)).properties =
      e.properties ++ more := by
    rw [properties_declare, List.filterMap_map]
    exact congrArg (e.properties ++ ·) List.filterMap_some
  have hmembers : (e.declare (more.map .property)).keyMembers =
      e.keyMembers := by
    have hnone : (more.map .property).filterMap Declaration.key? = [] := by
      rw [List.filterMap_map]
      exact List.filterMap_eq_nil_iff.mpr fun _ _ => rfl
    rw [keyMembers_declare, hnone, List.map_nil, List.append_nil]
  obtain ⟨hnonempty, hkeys⟩ := keyProperties_eq_ok_iff.mp h
  rw [keyProperties_eq_ok_iff, hmembers]
  refine ⟨hnonempty, hkeys.imp ?_⟩
  intro member p hp
  rw [property?_eq_some_iff] at hp ⊢
  rw [hproperties]
  exact hp.append_right more

/-! ## Exact keys -/

/-- The key of an entity set without key members is missing; otherwise the first
key member that no property bears is at fault; otherwise the key holds, place by
place, the first property of the name of each key member.  An entity set that is
declared step by step, with a key member among the steps, has a key with the
names of the properties that were declared as key members.  When no two
properties share a name, the key consists of these very properties, and no
further property changes that. -/
theorem keyProperties_exact :
    (∀ e : EntitySet,
      (e.keyProperties = .error .missingKey ↔ e.keyMembers = []) ∧
      (∀ member, e.keyProperties = .error (.unknownKeyMember member) ↔
        IsFirst (fun member => ∀ p ∈ e.properties, p.name ≠ member) e.keyMembers
          member) ∧
      (e.keyMembers ≠ [] →
        (¬∃ member, IsFirst (fun member => ∀ p ∈ e.properties, p.name ≠ member)
          e.keyMembers member) →
        ∃ keys, e.keyProperties = .ok keys ∧
          List.Forall₂
            (fun member p => IsFirst (fun p => p.name = member) e.properties p)
            e.keyMembers keys ∧
          keys.map Property.name = e.keyMembers)) ∧
    ∀ (name : String) (steps : List Declaration),
      steps.filterMap Declaration.key? ≠ [] →
      (∃ keys, ((named name).declare steps).keyProperties = .ok keys ∧
        keys.map Property.name =
          (steps.filterMap Declaration.key?).map Property.name) ∧
      (((steps.filterMap Declaration.property?).map Property.name).Nodup →
        ((named name).declare steps).keyProperties =
          .ok (steps.filterMap Declaration.key?) ∧
        ∀ more : List Property,
          (((named name).declare steps).declare
              (more.map .property)).keyProperties =
            .ok (steps.filterMap Declaration.key?)) := by
  refine ⟨?_, ?_⟩
  · intro e
    refine ⟨keyProperties_eq_missingKey_iff,
      fun _ => keyProperties_eq_unknownKeyMember_iff, ?_⟩
    intro hmembers hdeclared
    cases hkeys : e.keyProperties with
    | error fault =>
        obtain ⟨hempty, -⟩ | ⟨member, hfirst, -⟩ :=
          keyProperties_eq_error_iff.mp hkeys
        · exact absurd hempty hmembers
        · exact absurd ⟨member, hfirst⟩ hdeclared
    | ok keys =>
        exact ⟨keys, rfl, forall₂_isFirst_of_keyProperties hkeys,
          map_name_keyProperties hkeys⟩
  · intro name steps hkeys
    refine ⟨exists_keyProperties_declare hkeys, ?_⟩
    intro hnames
    have hfound : ((named name).declare steps).keyProperties = .ok _ :=
      keyProperties_declare_of_nodup hkeys hnames
    exact ⟨hfound, keyProperties_declare_properties hfound⟩

/-- A key member that shares the name of an earlier property stands for that
property, and so loses the identity with which it was declared.  With distinct
names it keeps it, even if a later property takes its name. -/
theorem keyProperties_exact_sharedName :
    let id := (Property.ofKind "ID" .int32).identity
    let code := Property.ofKind "CODE" .guid
    let older := Property.ofKind "ID" .int64
    let shadowed :=
      (named "ORDER").declare [.property older, .key id, .table "T", .key code]
    let plain := (named "ORDER").declare [.key id, .table "T", .key code]
    (shadowed.keyMembers ≠ [] ∧
      (¬∃ member, IsFirst (fun member => ∀ p ∈ shadowed.properties,
        p.name ≠ member) shadowed.keyMembers member) ∧
      ∃ keys, shadowed.keyProperties = .ok keys ∧
        List.Forall₂
          (fun member p =>
            IsFirst (fun p => p.name = member) shadowed.properties p)
          ["ID", "CODE"] keys) ∧
    (∃ keys, shadowed.keyProperties = .ok keys ∧
      keys.map Property.name = ["ID", "CODE"]) ∧
    shadowed.keyProperties = .ok [older, code] ∧
    (plain.declare ([older].map .property)).keyProperties = .ok [id, code] := by
  intro id code older shadowed plain
  obtain ⟨hresolve, hdeclare⟩ := keyProperties_exact
  have hmembers : shadowed.keyMembers ≠ [] := by decide
  have hdeclared : ∀ member ∈ shadowed.keyMembers, ∃ p ∈ shadowed.properties,
      p.name = member := by
    decide
  have hnone : ¬∃ member,
    IsFirst (fun member => ∀ p ∈ shadowed.properties, p.name ≠ member)
      shadowed.keyMembers member := by
    rintro ⟨member, before, after, hsplit, -, hundeclared⟩
    have hmember : member ∈ shadowed.keyMembers := by
      rw [hsplit]
      exact List.mem_append_right before List.mem_cons_self
    obtain ⟨p, hp, hname⟩ := hdeclared member hmember
    exact hundeclared p hp hname
  obtain ⟨keys, hkeys, hplaces, -⟩ := (hresolve shadowed).2.2 hmembers hnone
  refine ⟨⟨hmembers, hnone, keys, hkeys, hplaces⟩, ?_, by decide, ?_⟩
  · exact (hdeclare "ORDER" [.property older, .key id, .table "T", .key code]
      (by decide)).1
  · have hnames :=
      (hdeclare "ORDER" [.key id, .table "T", .key code] (by decide)).2
        (by decide)
    exact hnames.2 [older]

end EntitySet

end FirebirdSchema
