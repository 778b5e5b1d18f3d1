import FirebirdSchema.Generator
import FirebirdSchema.Interchange.Store
import Mathlib.Data.List.Forall2
import Mathlib.Data.Set.List

/-!
# Full documents

The written form of a value gives every field of every record, in the order of
their declaration, with null for what is absent.  The predicates below describe
such documents without reference to the writer.  They hold of exactly the
documents that are written, and of all documents that stand for a value the full
one is the normal form.
-/

namespace FirebirdSchema.Json

variable {α : Type} {isFull : Json → Prop} {read : Json → Option α}
  {write : α → Json}

/-! ## Forms of values -/

/-- A string. -/
def IsText (value : Json) : Prop :=
  ∃ s, value = str s

/-- A truth value. -/
def IsBool (value : Json) : Prop :=
  ∃ b, value = bool b

/-- An integer from zero up to but not including `bound`. -/
def IsNatBelow (bound : Nat) (value : Json) : Prop :=
  ∃ n : Nat, n < bound ∧ value = int n

/-- One of some strings. -/
def IsOneOf (names : List String) (value : Json) : Prop :=
  ∃ name ∈ names, value = str name

/-- Null, or a value of some form. -/
def IsNullable (isFull : Json → Prop) (value : Json) : Prop :=
  value = null ∨ isFull value

/-- An array of values of some form. -/
def IsList (isFull : Json → Prop) (value : Json) : Prop :=
  ∃ items, value = arr items ∧ ∀ item ∈ items, isFull item

/-- Members of the given names, in the given order, each with a value of its
form. -/
def AreFields (fields : List (String × (Json → Prop)))
    (members : List (String × Json)) : Prop :=
  List.Forall₂ (fun field member => member.1 = field.1 ∧ field.2 member.2)
    fields members

/-- An object with all fields of a record and no other member. -/
def IsRecord (fields : List (String × (Json → Prop))) (value : Json) : Prop :=
  ∃ members, value = obj members ∧ AreFields fields members

/-- The values of a form are the written forms of the values of a type. -/
def IsRange (isFull : Json → Prop) (write : α → Json) : Prop :=
  ∀ value, isFull value ↔ ∃ a, write a = value

theorem isRange_text : IsRange IsText str := by
  intro value
  constructor
  · rintro ⟨s, rfl⟩
    exact ⟨s, rfl⟩
  · rintro ⟨s, rfl⟩
    exact ⟨s, rfl⟩

theorem isRange_bool : IsRange IsBool bool := by
  intro value
  constructor
  · rintro ⟨b, rfl⟩
    exact ⟨b, rfl⟩
  · rintro ⟨b, rfl⟩
    exact ⟨b, rfl⟩

theorem isRange_uint8 :
    IsRange (IsNatBelow UInt8.size) fun n : UInt8 => int n.toNat := by
  intro value
  constructor
  · rintro ⟨n, hbound, rfl⟩
    have hsame : (UInt8.ofNat n).toNat = n := UInt8.toNat_ofNat_of_lt hbound
    exact ⟨UInt8.ofNat n, congrArg (fun m : Nat => int m) hsame⟩
  · rintro ⟨n, rfl⟩
    exact ⟨n.toNat, n.toNat_lt_size, rfl⟩

theorem isRange_uint32 :
    IsRange (IsNatBelow UInt32.size) fun n : UInt32 => int n.toNat := by
  intro value
  constructor
  · rintro ⟨n, hbound, rfl⟩
    have hsame : (UInt32.ofNat n).toNat = n := UInt32.toNat_ofNat_of_lt hbound
    exact ⟨UInt32.ofNat n, congrArg (fun m : Nat => int m) hsame⟩
  · rintro ⟨n, rfl⟩
    exact ⟨n.toNat, n.toNat_lt_size, rfl⟩

theorem isRange_named [Text.Named α] :
    IsRange (IsOneOf ((Text.Named.values (α := α)).map Text.Named.name))
      (ofNamed (α := α)) := by
  intro value
  constructor
  · rintro ⟨name, hmem, rfl⟩
    obtain ⟨a, -, rfl⟩ := List.mem_map.mp hmem
    exact ⟨a, rfl⟩
  · rintro ⟨a, rfl⟩
    have hmem := List.mem_of_find?_eq_some (Text.Named.find?_name a)
    exact ⟨Text.Named.name a, List.mem_map_of_mem hmem, rfl⟩

theorem isRange_nullable (h : IsRange isFull write) :
    IsRange (IsNullable isFull) (ofNullable write) := by
  intro value
  constructor
  · rintro (rfl | hfull)
    · exact ⟨none, rfl⟩
    · obtain ⟨a, rfl⟩ := (h value).mp hfull
      exact ⟨some a, rfl⟩
  · rintro ⟨a, rfl⟩
    cases a with
    | none => exact .inl rfl
    | some a => exact .inr ((h _).mpr ⟨a, rfl⟩)

theorem isRange_list (h : IsRange isFull write) :
    IsRange (IsList isFull) (ofList write) := by
  intro value
  constructor
  · rintro ⟨items, rfl, hfull⟩
    have hwritten : items ∈ Set.range (List.map write) := by
      rw [Set.range_list_map]
      exact fun item hitem => (h item).mp (hfull item hitem)
    obtain ⟨values, rfl⟩ := hwritten
    exact ⟨values, rfl⟩
  · rintro ⟨values, rfl⟩
    refine ⟨values.map write, rfl, ?_⟩
    intro item hitem
    obtain ⟨a, -, rfl⟩ := List.mem_map.mp hitem
    exact (h _).mpr ⟨a, rfl⟩

theorem areFields_nil_iff {members : List (String × Json)} :
    AreFields [] members ↔ members = [] :=
  List.forall₂_nil_left_iff

theorem areFields_cons_iff {name : String}
    {fields : List (String × (Json → Prop))} {members : List (String × Json)}
    (h : IsRange isFull write) :
    AreFields ((name, isFull) :: fields) members ↔
      ∃ a later, members = (name, write a) :: later ∧
        AreFields fields later := by
  constructor
  · rintro (_ | ⟨⟨rfl, hfull⟩, hlater⟩)
    obtain ⟨a, hwritten⟩ := (h _).mp hfull
    exact ⟨a, _, by rw [hwritten], hlater⟩
  · rintro ⟨a, later, rfl, hlater⟩
    exact .cons ⟨rfl, (h _).mpr ⟨a, rfl⟩⟩ hlater

/-! ## Normal forms -/

/-- `write` gives the normal forms of the values that `read` reads: it writes
all full documents and no other, reading gives back what was written, and two
documents that are read stand for the same value when their normal forms are the
same. -/
structure IsNormalForm (isFull : Json → Prop) (read : Json → Option α)
    (write : α → Json) :
    Prop where
  isRange : IsRange isFull write
  read_write : ∀ a, read (write a) = some a
  read_write_of_read : ∀ value a, read value = some a → read (write a) = some a
  eq_iff_write_eq : ∀ value value' a a', read value = some a →
    read value' = some a' →
    (a = a' ↔ write a = write a')

/-- Where reading gives back what was written, written forms are normal
forms. -/
theorem IsNormalForm.of_read_write
    (hrange : IsRange isFull write)
    (h : ∀ a, read (write a) = some a) :
    IsNormalForm isFull read write := by
  constructor
  · exact hrange
  · exact h
  · intro value a _
    exact h a
  · intro value value' a a' _ _
    constructor
    · intro hsame
      exact congrArg write hsame
    · intro hsame
      have hread : some a = some a' := by
        rw [← h a, ← h a', hsame]
      exact Option.some.inj hread

end FirebirdSchema.Json

namespace FirebirdSchema

open Json

/-! ## Full documents of store schemas and their parts -/

/-- A full primitive type: its name. -/
def PrimitiveKind.IsFull : Json → Prop :=
  IsOneOf ["Binary", "Boolean", "Byte", "SByte", "Int16", "Int32", "Int64",
    "Single", "Double", "Decimal", "DateTime", "DateTimeOffset", "Time", "Guid",
    "String"]

/-- A full statement of where values come from: its name. -/
def ValueGeneration.IsFull : Json → Prop :=
  IsOneOf ["None", "Identity", "Computed"]

/-- A full delete rule: its name. -/
def DeleteRule.IsFull : Json → Prop :=
  IsOneOf ["None", "Cascade"]

/-- A full length bound: a name when there is none, and otherwise a record of
the bound. -/
def LengthBound.IsFull (value : Json) : Prop :=
  IsOneOf ["max"] value ∨ IsRecord [("bounded", IsNatBelow UInt32.size)] value

/-- Full facets. -/
def Facets.IsFull : Json → Prop :=
  IsRecord [
    ("maxLength", IsNullable LengthBound.IsFull),
    ("fixedLength", IsNullable IsBool),
    ("unicode", IsNullable IsBool),
    ("precision", IsNullable (IsNatBelow UInt8.size)),
    ("scale", IsNullable (IsNatBelow UInt8.size))]

/-- A full property. -/
def Property.IsFull : Json → Prop :=
  IsRecord [
    ("name", IsText),
    ("kind", PrimitiveKind.IsFull),
    ("facets", Facets.IsFull),
    ("nullable", IsBool),
    ("storeGenerated", ValueGeneration.IsFull)]

/-- A full entity set. -/
def EntitySet.IsFull : Json → Prop :=
  IsRecord [
    ("name", IsText),
    ("table", IsNullable IsText),
    ("properties", IsList Property.IsFull),
    ("keyMembers", IsList IsText)]

/-- A full relationship end. -/
def RelationshipEnd.IsFull : Json → Prop :=
  IsRecord [
    ("role", IsText),
    ("entitySet", IsText),
    ("deleteBehavior", DeleteRule.IsFull)]

/-- A full referential constraint. -/
def ReferentialConstraint.IsFull : Json → Prop :=
  IsRecord [
    ("fromRole", IsText),
    ("toRole", IsText),
    ("fromProperties", IsList IsText),
    ("toProperties", IsList IsText)]

/-- A full relationship set. -/
def Relationship.IsFull : Json → Prop :=
  IsRecord [
    ("name", IsText),
    ("ends", IsList RelationshipEnd.IsFull),
    ("constraints", IsList ReferentialConstraint.IsFull)]

/-- A full store schema. -/
def StoreSchema.IsFull : Json → Prop :=
  IsRecord [
    ("entitySets", IsList EntitySet.IsFull),
    ("relationshipSets", IsList Relationship.IsFull)]

/-! ## What is written is full -/

theorem PrimitiveKind.isRange_ofNamed :
    IsRange IsFull (ofNamed (α := PrimitiveKind)) :=
  isRange_named

theorem ValueGeneration.isRange_ofNamed :
    IsRange IsFull (ofNamed (α := ValueGeneration)) :=
  isRange_named

theorem DeleteRule.isRange_ofNamed :
    IsRange IsFull (ofNamed (α := DeleteRule)) :=
  isRange_named

theorem LengthBound.isRange_toJson : IsRange IsFull toJson := by
  intro value
  constructor
  · rintro (⟨name, hname, rfl⟩ | ⟨members, rfl, hfull⟩)
    · obtain rfl := List.mem_singleton.mp hname
      exact ⟨max, rfl⟩
    · rw [areFields_cons_iff isRange_uint32] at hfull
      obtain ⟨n, later, rfl, hlater⟩ := hfull
      obtain rfl := areFields_nil_iff.mp hlater
      exact ⟨bounded n, rfl⟩
  · rintro ⟨bound, rfl⟩
    cases bound with
    | max => exact .inl ⟨"max", List.mem_singleton_self _, rfl⟩
    | bounded n =>
        refine .inr ⟨_, rfl, ?_⟩
        exact (areFields_cons_iff isRange_uint32).mpr ⟨n, [], rfl, .nil⟩

theorem Facets.isRange_toJson : IsRange IsFull toJson := by
  have hlength := isRange_nullable LengthBound.isRange_toJson
  have hflag := isRange_nullable isRange_bool
  have hdigits := isRange_nullable isRange_uint8
  intro value
  simp only [IsFull, IsRecord, areFields_cons_iff hlength,
    areFields_cons_iff hflag, areFields_cons_iff hdigits, areFields_nil_iff]
  constructor
  · rintro ⟨_, rfl, length, _, rfl, fixedLength, _, rfl, unicode, _, rfl,
      precision, _, rfl, scale, _, rfl, rfl⟩
    exact ⟨{ length, fixedLength, unicode, precision, scale }, rfl⟩
  · rintro ⟨facets, rfl⟩
    simp [toJson]

theorem Property.isRange_toJson : IsRange IsFull toJson := by
  have hname := isRange_text
  have hkind := PrimitiveKind.isRange_ofNamed
  have hfacets := Facets.isRange_toJson
  have hnullable := isRange_bool
  have hgeneration := ValueGeneration.isRange_ofNamed
  intro value
  simp only [IsFull, IsRecord, areFields_cons_iff hname,
    areFields_cons_iff hkind, areFields_cons_iff hfacets,
    areFields_cons_iff hnullable, areFields_cons_iff hgeneration,
    areFields_nil_iff]
  constructor
  · rintro ⟨_, rfl, name, _, rfl, kind, _, rfl, facets, _, rfl, nullable, _,
      rfl, generation, _, rfl, rfl⟩
    exact ⟨{ name, kind, facets, nullable, generation }, rfl⟩
  · rintro ⟨p, rfl⟩
    simp [toJson]

theorem EntitySet.isRange_toJson : IsRange IsFull toJson := by
  have hname := isRange_text
  have htable := isRange_nullable isRange_text
  have hproperties := isRange_list Property.isRange_toJson
  have hkeyMembers := isRange_list isRange_text
  intro value
  simp only [IsFull, IsRecord, areFields_cons_iff hname,
    areFields_cons_iff htable, areFields_cons_iff hproperties,
    areFields_cons_iff hkeyMembers, areFields_nil_iff]
  constructor
  · rintro ⟨_, rfl, name, _, rfl, table, _, rfl, properties, _, rfl, keyMembers,
      _, rfl, rfl⟩
    exact ⟨{ name, table, properties, keyMembers }, rfl⟩
  · rintro ⟨e, rfl⟩
    simp [toJson]

theorem RelationshipEnd.isRange_toJson : IsRange IsFull toJson := by
  have hname := isRange_text
  have hdeleteRule := DeleteRule.isRange_ofNamed
  intro value
  simp only [IsFull, IsRecord, areFields_cons_iff hname,
    areFields_cons_iff hdeleteRule, areFields_nil_iff]
  constructor
  · rintro ⟨_, rfl, role, _, rfl, entitySet, _, rfl, deleteRule, _, rfl, rfl⟩
    exact ⟨{ role, entitySet, deleteRule }, rfl⟩
  · rintro ⟨e, rfl⟩
    simp [toJson]

theorem ReferentialConstraint.isRange_toJson : IsRange IsFull toJson := by
  have hrole := isRange_text
  have hcolumns := isRange_list isRange_text
  intro value
  simp only [IsFull, IsRecord, areFields_cons_iff hrole,
    areFields_cons_iff hcolumns, areFields_nil_iff]
  constructor
  · rintro ⟨_, rfl, principalRole, _, rfl, dependentRole, _, rfl,
      principalColumns, _, rfl, dependentColumns, _, rfl, rfl⟩
    exact ⟨{ principalRole, dependentRole, principalColumns, dependentColumns },
      rfl⟩
  · rintro ⟨c, rfl⟩
    simp [toJson]

theorem Relationship.isRange_toJson : IsRange IsFull toJson := by
  have hname := isRange_text
  have hends := isRange_list RelationshipEnd.isRange_toJson
  have hconstraints := isRange_list ReferentialConstraint.isRange_toJson
  intro value
  simp only [IsFull, IsRecord, areFields_cons_iff hname,
    areFields_cons_iff hends, areFields_cons_iff hconstraints,
    areFields_nil_iff]
  constructor
  · rintro ⟨_, rfl, name, _, rfl, ends, _, rfl, constraints, _, rfl, rfl⟩
    exact ⟨{ name, ends, constraints }, rfl⟩
  · rintro ⟨r, rfl⟩
    simp [toJson]

theorem StoreSchema.isRange_toJson : IsRange IsFull toJson := by
  have hentitySets := isRange_list EntitySet.isRange_toJson
  have hrelationships := isRange_list Relationship.isRange_toJson
  intro value
  simp only [IsFull, IsRecord, areFields_cons_iff hentitySets,
    areFields_cons_iff hrelationships, areFields_nil_iff]
  constructor
  · rintro ⟨_, rfl, entitySets, _, rfl, relationships, _, rfl, rfl⟩
    exact ⟨{ entitySets, relationships }, rfl⟩
  · rintro ⟨s, rfl⟩
    simp [toJson]

/-- For store schemas and for every part of them, the full documents are the
normal forms of the documents that are read, and a schema that is written and
read again has the script it had. -/
theorem StoreSchema.isNormalForm_toJson :
    IsNormalForm StoreSchema.IsFull StoreSchema.ofJson? StoreSchema.toJson ∧
      IsNormalForm EntitySet.IsFull EntitySet.ofJson? EntitySet.toJson ∧
      IsNormalForm Property.IsFull Property.ofJson? Property.toJson ∧
      IsNormalForm PrimitiveKind.IsFull named? (ofNamed (α := PrimitiveKind)) ∧
      IsNormalForm Facets.IsFull Facets.ofJson? Facets.toJson ∧
      IsNormalForm LengthBound.IsFull LengthBound.ofJson? LengthBound.toJson ∧
      IsNormalForm ValueGeneration.IsFull named?
        (ofNamed (α := ValueGeneration)) ∧
      IsNormalForm Relationship.IsFull Relationship.ofJson?
        Relationship.toJson ∧
      IsNormalForm RelationshipEnd.IsFull RelationshipEnd.ofJson?
        RelationshipEnd.toJson ∧
      IsNormalForm DeleteRule.IsFull named? (ofNamed (α := DeleteRule)) ∧
      IsNormalForm ReferentialConstraint.IsFull ReferentialConstraint.ofJson?
        ReferentialConstraint.toJson ∧
      ∀ (g : Generator) (s : StoreSchema),
        (StoreSchema.ofJson? s.toJson).map
            (fun loaded => g.scriptText (some loaded)) =
          some (g.scriptText (some s)) := by
  refine ⟨.of_read_write isRange_toJson ofJson?_toJson,
    .of_read_write EntitySet.isRange_toJson EntitySet.ofJson?_toJson,
    .of_read_write Property.isRange_toJson Property.ofJson?_toJson,
    .of_read_write PrimitiveKind.isRange_ofNamed named?_ofNamed,
    .of_read_write Facets.isRange_toJson Facets.ofJson?_toJson,
    .of_read_write LengthBound.isRange_toJson LengthBound.ofJson?_toJson,
    .of_read_write ValueGeneration.isRange_ofNamed named?_ofNamed,
    .of_read_write Relationship.isRange_toJson Relationship.ofJson?_toJson,
    .of_read_write RelationshipEnd.isRange_toJson
      RelationshipEnd.ofJson?_toJson,
    .of_read_write DeleteRule.isRange_ofNamed named?_ofNamed,
    .of_read_write ReferentialConstraint.isRange_toJson
      ReferentialConstraint.ofJson?_toJson, ?_⟩
  intro g s
  rw [ofJson?_toJson]
  rfl

end FirebirdSchema
