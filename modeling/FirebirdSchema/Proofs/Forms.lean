import FirebirdSchema.Interchange.Store
import FirebirdSchema.Proofs.Spelling

/-!
# The forms of a document

The places of a schema document hold parts of the schema: a record, a name, a
truth value or a number.  A place may admit null instead of its part, or hold an
array of such parts.  A record is read when it can be divided into fields, none
that is required is absent, and each that is given is read in the form of its
place.
-/

namespace FirebirdSchema

open Json

/-! ## Parts, forms and fields -/

/-- A part of a schema document. -/
inductive Part
  | schema
  | entitySet
  | property
  | facets
  | relationship
  | relationshipEnd
  | constraint
  | lengthBound
  | kind
  | generation
  | deleteRule
  | text
  | truthValue
  | uint8
  | uint32
  deriving DecidableEq

/-- What a part of a document stands for. -/
def Part.Value : Part → Type
  | schema => StoreSchema
  | entitySet => EntitySet
  | property => Property
  | facets => Facets
  | relationship => Relationship
  | relationshipEnd => RelationshipEnd
  | constraint => ReferentialConstraint
  | lengthBound => LengthBound
  | kind => PrimitiveKind
  | generation => ValueGeneration
  | deleteRule => DeleteRule
  | text => String
  | truthValue => Bool
  | uint8 => UInt8
  | uint32 => UInt32

/-- The reader of a part. -/
def Part.read? : (part : Part) → Json → Option part.Value
  | schema => StoreSchema.ofJson?
  | entitySet => EntitySet.ofJson?
  | property => Property.ofJson?
  | facets => Facets.ofJson?
  | relationship => Relationship.ofJson?
  | relationshipEnd => RelationshipEnd.ofJson?
  | constraint => ReferentialConstraint.ofJson?
  | lengthBound => LengthBound.ofJson?
  | kind => named? (α := PrimitiveKind)
  | generation => named? (α := ValueGeneration)
  | deleteRule => named? (α := DeleteRule)
  | text => text?
  | truthValue => bool?
  | uint8 => uint8?
  | uint32 => uint32?

/-- What a place of a document holds. -/
inductive Form
  /-- One part. -/
  | one (part : Part)
  /-- One part, or null. -/
  | nullable (part : Part)
  /-- An array of parts. -/
  | list (part : Part)

/-- What a form stands for. -/
def Form.Value : Form → Type
  | one part => part.Value
  | nullable part => Option part.Value
  | list part => List part.Value

/-- Whether a form admits null. -/
def Form.isNullable : Form → Bool
  | nullable _ => true
  | one _ | list _ => false

/-- The reader of a form. -/
def Form.read? : (form : Form) → Json → Option form.Value
  | one part => part.read?
  | nullable part => Json.nullable? part.read?
  | list part => Json.list? part.read?

/-- A field of a record. -/
structure RecordField where
  name : String
  /-- Whether the field has no default. -/
  isRequired : Bool
  form : Form

/-- The fields of a record, in the order of their declaration.  Other parts have
none. -/
def Part.fields : Part → List RecordField
  | schema => [
    ⟨"entitySets", false, .list .entitySet⟩,
    ⟨"relationshipSets", false, .list .relationship⟩]
  | entitySet => [
    ⟨"name", true, .one .text⟩,
    ⟨"table", false, .nullable .text⟩,
    ⟨"properties", false, .list .property⟩,
    ⟨"keyMembers", false, .list .text⟩]
  | property => [
    ⟨"name", true, .one .text⟩,
    ⟨"kind", true, .one .kind⟩,
    ⟨"facets", false, .one .facets⟩,
    ⟨"nullable", false, .one .truthValue⟩,
    ⟨"storeGenerated", false, .one .generation⟩]
  | facets => [
    ⟨"maxLength", false, .nullable .lengthBound⟩,
    ⟨"fixedLength", false, .nullable .truthValue⟩,
    ⟨"unicode", false, .nullable .truthValue⟩,
    ⟨"precision", false, .nullable .uint8⟩,
    ⟨"scale", false, .nullable .uint8⟩]
  | relationship => [
    ⟨"name", true, .one .text⟩,
    ⟨"ends", false, .list .relationshipEnd⟩,
    ⟨"constraints", false, .list .constraint⟩]
  | relationshipEnd => [
    ⟨"role", true, .one .text⟩,
    ⟨"entitySet", true, .one .text⟩,
    ⟨"deleteBehavior", false, .one .deleteRule⟩]
  | constraint => [
    ⟨"fromRole", true, .one .text⟩,
    ⟨"toRole", true, .one .text⟩,
    ⟨"fromProperties", true, .list .text⟩,
    ⟨"toProperties", true, .list .text⟩]
  | lengthBound | kind | generation | deleteRule | text | truthValue | uint8
  | uint32 => []

/-- The names of the fields of a record. -/
def Part.fieldNames (part : Part) : List String :=
  part.fields.map RecordField.name

/-- The names of the fields that a record must be given. -/
def Part.requiredNames (part : Part) : List String :=
  (part.fields.filter RecordField.isRequired).map RecordField.name

theorem Part.mem_fieldNames {part : Part} {field : RecordField}
    (h : field ∈ part.fields) :
    field.name ∈ part.fieldNames :=
  List.mem_map_of_mem h

theorem Part.nodup_fieldNames (part : Part) : part.fieldNames.Nodup := by
  cases part <;> decide

theorem Part.nodup_requiredNames (part : Part) : part.requiredNames.Nodup := by
  have hsublist : (part.fields.filter RecordField.isRequired).Sublist
      part.fields :=
    List.filter_sublist
  exact part.nodup_fieldNames.sublist (hsublist.map RecordField.name)

/-! ## Reading a record field by field -/

/-- Whether a field accepts what a document gives for it. -/
def RecordField.Accepts (field : RecordField) : Option Json → Prop
  | some value => (field.form.read? value).isSome
  | none => field.isRequired = false

theorem RecordField.Accepts.isSome {field : RecordField} {given : Option Json}
    (h : field.Accepts given) (hrequired : field.isRequired = true) :
    given.isSome := by
  cases given with
  | none =>
      rw [Accepts, hrequired] at h
      exact absurd h.symm Bool.false_ne_true
  | some value => exact Option.isSome_some

section Fields

variable {α β : Type} {fields : List RecordField} {name : String} {form : Form}
  {read : Json → Option β} {next : β → Fields → Option α}

/-- A computation on the fields of a record that succeeds exactly when every
field accepts what is given for it. -/
def ChecksFields (fields : List RecordField) (read : Fields → Option α) :
    Prop :=
  ∀ given, (read given).isSome ↔
    ∀ field ∈ fields, field.Accepts (given.lookup field.name)

theorem checksFields_pure (a : α) : ChecksFields [] fun _ => pure a := by
  intro given
  simp

theorem ChecksFields.required
    (hform : ∀ value, (form.read? value).isSome = (read value).isSome)
    (hnext : ∀ b, ChecksFields fields (next b)) :
    ChecksFields (⟨name, true, form⟩ :: fields)
      fun given => given.required name read >>= fun b => next b given := by
  intro given
  simp only [List.forall_mem_cons, Fields.required]
  cases given.lookup name with
  | none => simp [RecordField.Accepts]
  | some value =>
      cases hread : read value with
      | none => simp [RecordField.Accepts, hform, hread]
      | some b => simpa [RecordField.Accepts, hform, hread] using hnext b given

theorem ChecksFields.withDefault {default : β}
    (hform : ∀ value, (form.read? value).isSome = (read value).isSome)
    (hnext : ∀ b, ChecksFields fields (next b)) :
    ChecksFields (⟨name, false, form⟩ :: fields)
      fun given => given.withDefault name default read >>= fun b =>
        next b given := by
  intro given
  simp only [List.forall_mem_cons, Fields.withDefault]
  cases given.lookup name with
  | none => simpa [RecordField.Accepts] using hnext default given
  | some value =>
      cases hread : read value with
      | none => simp [RecordField.Accepts, hform, hread]
      | some b => simpa [RecordField.Accepts, hform, hread] using hnext b given

theorem ChecksFields.isSome_record_iff {readFields : Fields → Option α}
    (part : Part) (h : ChecksFields part.fields readFields) (value : Json) :
    (value.fields? part.fieldNames >>= readFields).isSome ↔
      ∃ given, value.fields? part.fieldNames = some given ∧
        ∀ field ∈ part.fields, field.Accepts (given.lookup field.name) := by
  cases value.fields? part.fieldNames with
  | none => simp
  | some given => simpa using h given

end Fields

namespace Part

/-- A record is read exactly when its fields are. -/
theorem isSome_read?_iff {part : Part} (hrecord : part.fields ≠ [])
    (value : Json) :
    (part.read? value).isSome ↔
      ∃ given, value.fields? part.fieldNames = some given ∧
        ∀ field ∈ part.fields, field.Accepts (given.lookup field.name) := by
  cases part with
  | schema =>
      refine ChecksFields.isSome_record_iff schema ?_ value
      refine .withDefault (fun _ => rfl) fun entitySets => ?_
      refine .withDefault (fun _ => rfl) fun relationships => ?_
      exact checksFields_pure _
  | entitySet =>
      refine ChecksFields.isSome_record_iff entitySet ?_ value
      refine .required (fun _ => rfl) fun name => ?_
      refine .withDefault (fun _ => rfl) fun table => ?_
      refine .withDefault (fun _ => rfl) fun properties => ?_
      refine .withDefault (fun _ => rfl) fun keyMembers => ?_
      exact checksFields_pure _
  | property =>
      refine ChecksFields.isSome_record_iff property ?_ value
      refine .required (fun _ => rfl) fun name => ?_
      refine .required (fun _ => rfl) fun kind => ?_
      refine .withDefault (fun _ => rfl) fun facets => ?_
      refine .withDefault (fun _ => rfl) fun nullable => ?_
      refine .withDefault (fun _ => rfl) fun generation => ?_
      exact checksFields_pure _
  | facets =>
      refine ChecksFields.isSome_record_iff facets ?_ value
      refine .withDefault (fun _ => rfl) fun length => ?_
      refine .withDefault (fun _ => rfl) fun fixedLength => ?_
      refine .withDefault (fun _ => rfl) fun unicode => ?_
      refine .withDefault (fun _ => rfl) fun precision => ?_
      refine .withDefault (fun _ => rfl) fun scale => ?_
      exact checksFields_pure _
  | relationship =>
      refine ChecksFields.isSome_record_iff relationship ?_ value
      refine .required (fun _ => rfl) fun name => ?_
      refine .withDefault (fun _ => rfl) fun ends => ?_
      refine .withDefault (fun _ => rfl) fun constraints => ?_
      exact checksFields_pure _
  | relationshipEnd =>
      refine ChecksFields.isSome_record_iff relationshipEnd ?_ value
      refine .required (fun _ => rfl) fun role => ?_
      refine .required (fun _ => rfl) fun entitySet => ?_
      refine .withDefault (fun _ => rfl) fun deleteRule => ?_
      exact checksFields_pure _
  | constraint =>
      refine ChecksFields.isSome_record_iff constraint ?_ value
      refine .required (fun _ => rfl) fun principalRole => ?_
      refine .required (fun _ => rfl) fun dependentRole => ?_
      refine .required (fun _ => rfl) fun principalColumns => ?_
      refine .required (fun _ => rfl) fun dependentColumns => ?_
      exact checksFields_pure _
  | _ => exact absurd rfl hrecord

/-- A record that is read has been given its required fields. -/
theorem isSome_lookup_of_mem_requiredNames {part : Part} {value : Json}
    {given : Fields} (hread : (part.read? value).isSome)
    (hgiven : value.fields? part.fieldNames = some given) {name : String}
    (hname : name ∈ part.requiredNames) : (given.lookup name).isSome := by
  obtain ⟨field, hfield, rfl⟩ := List.mem_map.mp hname
  obtain ⟨hmem, hrequired⟩ := List.mem_filter.mp hfield
  rw [isSome_read?_iff (List.ne_nil_of_mem hmem), hgiven] at hread
  obtain ⟨_, hsame, haccepts⟩ := hread
  obtain rfl := Option.some.inj hsame
  exact (haccepts field hmem).isSome hrequired

end Part

end FirebirdSchema
