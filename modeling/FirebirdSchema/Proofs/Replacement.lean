import FirebirdSchema.Proofs.Forms
import Mathlib.Data.List.Perm.Subperm

/-!
# Replaced values

One value of a schema document is replaced by another, at any depth.  A document
that was read before is read afterwards exactly when the new value is read in
the form of its place: a value that is given, but not in that form, is never
taken for an absent one.  The forms themselves refuse null where it is not
admitted, records whose required fields are not given, arrays with more items
than the record has fields, numbers out of range, and whatever is not a spelling
of a name.
-/

namespace FirebirdSchema

open Json Lookup

/-! ## Replacing a value at a place -/

/-- The value `old`, at a place of the form `place`, is replaced by `new` in a
document. -/
inductive Replaces (place : Form) (old new : Json) : Form → Json → Json → Prop
  /-- The place is the document itself. -/
  | here : Replaces place old new place old new
  /-- The place is in a field that a record is given by name. -/
  | member {part : Part} {field : RecordField} {value value' : Json}
      (before after : List (String × Json)) (mem : field ∈ part.fields)
      (h : Replaces place old new field.form value value') :
      Replaces place old new (.one part)
        (obj (before ++ (field.name, value) :: after))
        (obj (before ++ (field.name, value') :: after))
  /-- The place is in a field that a record is given by position. -/
  | position {part : Part} {field : RecordField} {value value' : Json}
    (before after : List Json)
      (position : part.fields[before.length]? = some field)
      (h : Replaces place old new field.form value value') :
      Replaces place old new (.one part) (arr (before ++ value :: after))
        (arr (before ++ value' :: after))
  /-- The place is in an item of an array. -/
  | item {part : Part} {value value' : Json} (before after : List Json)
      (h : Replaces place old new (.one part) value value') :
      Replaces place old new (.list part) (arr (before ++ value :: after))
        (arr (before ++ value' :: after))
  /-- The place is the number of a length bound. -/
  | bound {value value' : Json}
    (h : Replaces place old new (.one .uint32) value value') :
      Replaces place old new (.nullable .lengthBound) (obj [("bounded", value)])
        (obj [("bounded", value')])

/-! ## Fields -/

/-- The fields that two values give to a record are alike, but for one field. -/
def GiveReplaced (names : List String) (name : String)
    (value value' document document' : Json) : Prop :=
  ∃ before after : Fields,
    ((before ++ (name, value) :: after).map Prod.fst).Nodup ∧
    document.fields? names = some (before ++ (name, value) :: after) ∧
    document'.fields? names = some (before ++ (name, value') :: after)

section Fields

variable {names : List String} {name : String} {value : Json} {given : Fields}

theorem giveReplaced_obj {before after : List (String × Json)}
    (hmem : name ∈ names)
    (h : (obj (before ++ (name, value) :: after)).fields? names = some given)
    (value' : Json) :
    GiveReplaced names name value value'
      (obj (before ++ (name, value) :: after))
      (obj (before ++ (name, value') :: after)) := by
  obtain ⟨hnodup, -⟩ := fields?_obj_eq_some_iff.mp h
  rw [knownMembers_of_mem hmem] at hnodup
  refine ⟨_, _, hnodup, ?_, ?_⟩
  · rw [fields?_obj_eq_some_iff, knownMembers_of_mem hmem]
    exact ⟨hnodup, rfl⟩
  · rw [fields?_obj_eq_some_iff, knownMembers_of_mem hmem]
    exact ⟨by simpa using hnodup, rfl⟩

theorem giveReplaced_arr {before after : List Json} (hnames : names.Nodup)
    (hplace : names[before.length]? = some name)
    (h : (arr (before ++ value :: after)).fields? names = some given)
    (value' : Json) :
    GiveReplaced names name value value' (arr (before ++ value :: after))
      (arr (before ++ value' :: after)) := by
  obtain ⟨hlength, -⟩ := fields?_arr_eq_some_iff.mp h
  have hnodup := nodup_zip hnames (before ++ value :: after)
  rw [zip_append_cons hplace] at hnodup
  refine ⟨_, _, hnodup, ?_, ?_⟩
  · rw [fields?_arr_eq_some_iff, zip_append_cons hplace]
    exact ⟨hlength, rfl⟩
  · rw [fields?_arr_eq_some_iff, zip_append_cons hplace]
    exact ⟨by simpa using hlength, rfl⟩

end Fields

namespace Part

variable {part : Part} {field : RecordField} {value value' : Json}

theorem forall_accepts_iff (hmem : field ∈ part.fields) {before after : Fields}
    (hnodup : ((before ++ (field.name, value) :: after).map Prod.fst).Nodup) :
    (∀ other ∈ part.fields,
        other.Accepts
          ((before ++ (field.name, value) :: after).lookup other.name)) ↔
      (field.form.read? value).isSome ∧
        ∀ other ∈ part.fields, other.name ≠ field.name →
          other.Accepts ((before ++ after).lookup other.name) := by
  constructor
  · intro h
    have hfield := h field hmem
    rw [lookup_append_cons_self_of_nodup hnodup] at hfield
    refine ⟨hfield, ?_⟩
    intro other hother hdiffer
    rw [← lookup_append_cons_of_ne hdiffer]
    exact h other hother
  · intro h
    obtain ⟨hfield, hothers⟩ := h
    intro other hother
    by_cases hsame : other.name = field.name
    · obtain rfl :=
        List.inj_on_of_nodup_map part.nodup_fieldNames hother hmem hsame
      rw [lookup_append_cons_self_of_nodup hnodup]
      exact hfield
    · rw [lookup_append_cons_of_ne hsame]
      exact hothers other hother hsame

/-- When one field of a record is replaced, the record is read exactly when the
new field is. -/
theorem isSome_read?_of_giveReplaced {document document' : Json}
    (hmem : field ∈ part.fields)
    (hgive : GiveReplaced part.fieldNames field.name value value' document
      document')
    (hread : (part.read? document).isSome) :
    (field.form.read? value).isSome ∧
      ((part.read? document').isSome ↔ (field.form.read? value').isSome) := by
  obtain ⟨before, after, hnodup, hgiven, hgiven'⟩ := hgive
  have hnodup' :
      ((before ++ (field.name, value') :: after).map Prod.fst).Nodup := by
    simpa using hnodup
  have hrecord : part.fields ≠ [] := List.ne_nil_of_mem hmem
  simp only [isSome_read?_iff hrecord, hgiven, Option.some.injEq,
    exists_eq_left', forall_accepts_iff hmem hnodup] at hread
  obtain ⟨hvalue, hothers⟩ := hread
  simp only [isSome_read?_iff hrecord, hgiven', Option.some.injEq,
    exists_eq_left', forall_accepts_iff hmem hnodup']
  exact ⟨hvalue, fun h => h.1, fun hvalue' => ⟨hvalue', hothers⟩⟩

theorem exists_fields?_of_isSome_read? {document : Json}
    (hmem : field ∈ part.fields) (hread : (part.read? document).isSome) :
    ∃ given, document.fields? part.fieldNames = some given := by
  obtain ⟨given, hgiven, -⟩ :=
    (isSome_read?_iff (List.ne_nil_of_mem hmem) document).mp hread
  exact ⟨given, hgiven⟩

end Part

/-! ## Items and numbers -/

theorem Json.isSome_list?_arr_iff {α : Type} {read : Json → Option α}
    {items : List Json} :
    (list? read (arr items)).isSome ↔ ∀ item ∈ items, (read item).isSome := by
  rw [list?]
  induction items with
  | nil => simp
  | cons item items ih =>
      rw [List.mapM_cons, List.forall_mem_cons, ← ih]
      cases read item with
      | none => simp
      | some a => cases items.mapM read <;> simp

theorem Form.isSome_read?_list_iff {part : Part} {before after : List Json}
    {value : Json} :
    ((Form.list part).read? (arr (before ++ value :: after))).isSome ↔
      (∀ item ∈ before, (part.read? item).isSome) ∧ (part.read? value).isSome ∧
        ∀ item ∈ after, (part.read? item).isSome := by
  change (list? part.read? (arr (before ++ value :: after))).isSome ↔ _
  rw [isSome_list?_arr_iff, List.forall_mem_append, List.forall_mem_cons]

theorem Form.isSome_read?_bound_iff {value : Json} :
    ((Form.nullable .lengthBound).read? (obj [("bounded", value)])).isSome ↔
      ((Form.one .uint32).read? value).isSome := by
  change ((value.uint32?.map LengthBound.bounded).map some).isSome ↔
    value.uint32?.isSome
  rw [Option.isSome_map, Option.isSome_map]

/-! ## Documents -/

theorem Replaces.isSome_read?_iff {place form : Form}
    {old new document document' : Json}
    (h : Replaces place old new form document document')
    (hread : (form.read? document).isSome) :
    (form.read? document').isSome ↔ (place.read? new).isSome := by
  induction h with
  | here => exact Iff.rfl
  | @member part field value value' before after hmem _ ih =>
      obtain ⟨given, hgiven⟩ := Part.exists_fields?_of_isSome_read? hmem hread
      have hgive := giveReplaced_obj (List.mem_map_of_mem hmem) hgiven value'
      obtain ⟨hvalue, hwhole⟩ :=
        Part.isSome_read?_of_giveReplaced hmem hgive hread
      exact hwhole.trans (ih hvalue)
  | @position part field value value' before after hplace _ ih =>
      have hmem := List.mem_of_getElem? hplace
      have hname : part.fieldNames[before.length]? = some field.name := by
        simp [Part.fieldNames, hplace]
      obtain ⟨given, hgiven⟩ := Part.exists_fields?_of_isSome_read? hmem hread
      have hgive := giveReplaced_arr part.nodup_fieldNames hname hgiven value'
      obtain ⟨hvalue, hwhole⟩ :=
        Part.isSome_read?_of_giveReplaced hmem hgive hread
      exact hwhole.trans (ih hvalue)
  | @item part value value' before after _ ih =>
      rw [Form.isSome_read?_list_iff] at hread ⊢
      obtain ⟨hbefore, hvalue, hafter⟩ := hread
      rw [← ih hvalue]
      exact ⟨fun h => h.2.1, fun h => ⟨hbefore, h, hafter⟩⟩
  | bound _ ih =>
      rw [Form.isSome_read?_bound_iff] at hread ⊢
      exact ih hread

/-! ## What the forms refuse -/

namespace Json

variable {value : Json}

theorem natBelow?_eq_some_iff {bound n : Nat} :
    value.natBelow? bound = some n ↔ n < bound ∧ value = int n := by
  cases value with
  | int m =>
      simp only [natBelow?, Option.ite_none_right_eq_some, Option.some.injEq,
        int.injEq]
      omega
  | _ => simp [natBelow?]

theorem uint8?_eq_some_iff {n : UInt8} :
    value.uint8? = some n ↔ value = int n.toNat := by
  constructor
  · intro h
    obtain ⟨m, hm, rfl⟩ := Option.map_eq_some_iff.mp h
    obtain ⟨hbound, rfl⟩ := natBelow?_eq_some_iff.mp hm
    rw [UInt8.toNat_ofNat_of_lt' hbound]
  · rintro rfl
    exact uint8?_toNat n

theorem uint32?_eq_some_iff {n : UInt32} :
    value.uint32? = some n ↔ value = int n.toNat := by
  constructor
  · intro h
    obtain ⟨m, hm, rfl⟩ := Option.map_eq_some_iff.mp h
    obtain ⟨hbound, rfl⟩ := natBelow?_eq_some_iff.mp hm
    rw [UInt32.toNat_ofNat_of_lt' hbound]
  · rintro rfl
    exact uint32?_toNat n

theorem tag?_eq_some_iff {s : String} :
    value.tag? = some s ↔ value = str s ∨ value = obj [(s, null)] := by
  constructor
  · intro h
    unfold tag? at h
    split at h
    · exact .inl (by rw [Option.some.inj h])
    · exact .inr (by rw [Option.some.inj h])
    · exact absurd h.symm (Option.some_ne_none s)
  · rintro (rfl | rfl)
    · rfl
    · rfl

theorem named?_eq_some_iff {α : Type} [Text.Named α] {a : α} :
    value.named? = some a ↔
      value = str (Text.Named.name a) ∨
        value = obj [(Text.Named.name a, null)] := by
  simp only [named?, Option.bind_eq_some_iff, Text.Named.ofName?_eq_some_iff]
  rw [← tag?_eq_some_iff]
  simp

end Json

theorem LengthBound.ofJson?_eq_some_iff {value : Json} {bound : LengthBound} :
    LengthBound.ofJson? value = some bound ↔
      bound = .max ∧ (value = str "max" ∨ value = obj [("max", null)]) ∨
        ∃ n, bound = .bounded n ∧ value = obj [("bounded", int n.toNat)] := by
  unfold LengthBound.ofJson?
  split
  · rename_i number
    simp [Option.map_eq_some_iff, uint32?_eq_some_iff, and_comm,
      eq_comm (a := bound)]
  · rename_i hunbounded
    have hother : ¬∃ n, bound = .bounded n ∧
        value = obj [("bounded", int n.toNat)] := by
      rintro ⟨n, -, hvalue⟩
      exact hunbounded _ hvalue
    rw [or_iff_left hother, ← tag?_eq_some_iff]
    simp [and_comm, eq_comm (a := bound)]

theorem Form.isSome_read?_null_iff {form : Form} :
    (form.read? null).isSome ↔ form.isNullable := by
  cases form with
  | one part => cases part <;> decide
  | nullable part => exact Iff.rfl
  | list part => exact Iff.rfl

namespace Part

variable {part : Part}

theorem read?_null (part : Part) : part.read? null = none := by
  cases part <;> rfl

theorem isSome_read?_null_iff {field : RecordField}
    (hmem : field ∈ part.fields) :
    (field.form.read? null).isSome ↔
      part = .entitySet ∧ field.name = "table" ∨ part = .facets := by
  rw [Form.isSome_read?_null_iff]
  have htable : ∀ field ∈ part.fields, field.form.isNullable ↔
      part = .entitySet ∧ field.name = "table" ∨ part = .facets := by
    cases part <;> decide
  exact htable field hmem

theorem isSome_lookup_of_obj {members : List (String × Json)}
    (h : (part.read? (obj members)).isSome) {name : String}
    (hname : name ∈ part.requiredNames) :
    (members.lookup name).isSome := by
  obtain ⟨field, hfield, rfl⟩ := List.mem_map.mp hname
  have hmem := List.mem_of_mem_filter hfield
  obtain ⟨given, hgiven⟩ := exists_fields?_of_isSome_read? hmem h
  have hlookup := isSome_lookup_of_mem_requiredNames h hgiven hname
  obtain ⟨-, rfl⟩ := fields?_obj_eq_some_iff.mp hgiven
  rwa [lookup_knownMembers (mem_fieldNames hmem)] at hlookup

/-- A record that is given by position has an item for every required field, and
no item beyond its fields.  Nothing but a record is given by position. -/
theorem length_le_of_arr {items : List Json}
    (h : (part.read? (arr items)).isSome) :
    part.requiredNames.length ≤ items.length ∧
      items.length ≤ part.fields.length := by
  by_cases hrecord : part.fields = []
  · have hnone : part.read? (arr items) = none := by
      cases part with
      | lengthBound | kind | generation | deleteRule | text | truthValue | uint8
      | uint32 => rfl
      | _ => exact absurd hrecord (List.cons_ne_nil _ _)
    rw [hnone] at h
    exact absurd h Bool.false_ne_true
  · obtain ⟨field, hmem⟩ := List.exists_mem_of_ne_nil _ hrecord
    obtain ⟨given, hgiven⟩ := exists_fields?_of_isSome_read? hmem h
    have hsubset : part.requiredNames ⊆ given.map Prod.fst := by
      intro name hname
      have hlookup := isSome_lookup_of_mem_requiredNames h hgiven hname
      obtain ⟨value, hvalue⟩ := Option.isSome_iff_exists.mp hlookup
      exact List.mem_map_of_mem (mem_of_lookup_eq_some hvalue)
    have hlength :=
      (List.subperm_of_subset part.nodup_requiredNames hsubset).length_le
    obtain ⟨hitems, rfl⟩ := fields?_arr_eq_some_iff.mp hgiven
    rw [fieldNames, List.length_map] at hitems
    rw [List.length_map, List.length_zip] at hlength
    exact ⟨Nat.le_trans hlength (Nat.min_le_right _ _), hitems⟩

end Part

/-! ## Documents are read whole or not at all -/

/-- A document that was read is read after a replacement exactly when the new
value is read in the form of its place.  Null is read for the table of an entity
set and for facets only.  A record is not read without its required fields, by
name or by position.  An integer is read as itself.  A name without content has
two spellings, and a length bound has no others than these. -/
theorem StoreSchema.ofJson?_of_replaces :
    (∀ (place : Form) (old new document document' : Json),
      Replaces place old new (.one .schema) document document' →
        (StoreSchema.ofJson? document).isSome →
          ((StoreSchema.ofJson? document').isSome ↔ (place.read? new).isSome)) ∧
      (∀ part : Part, part.read? null = none ∧
        (Form.list part).read? null = none) ∧
      (∀ part : Part, ∀ field ∈ part.fields, (field.form.read? null).isSome ↔
        part = .entitySet ∧ field.name = "table" ∨ part = .facets) ∧
      (∀ (part : Part) (members : List (String × Json)),
        (part.read? (obj members)).isSome →
        ∀ name ∈ part.requiredNames, (members.lookup name).isSome) ∧
      (∀ (part : Part) (items : List Json), (part.read? (arr items)).isSome →
        part.requiredNames.length ≤ items.length ∧
          items.length ≤ part.fields.length) ∧
      (Part.entitySet.requiredNames = ["name"] ∧
        Part.property.requiredNames = ["name", "kind"] ∧
        Part.relationship.requiredNames = ["name"] ∧
        Part.relationshipEnd.requiredNames = ["role", "entitySet"] ∧
        Part.constraint.requiredNames = ["fromRole", "toRole", "fromProperties",
          "toProperties"]) ∧
      (∀ (value : Json) (n : UInt8), value.uint8? = some n ↔
        value = int n.toNat) ∧
      (∀ (value : Json) (n : UInt32), value.uint32? = some n ↔
        value = int n.toNat) ∧
      (∀ (α : Type) [Text.Named α] (value : Json) (a : α),
        value.named? = some a ↔
          value = str (Text.Named.name a) ∨
            value = obj [(Text.Named.name a, null)]) ∧
      ∀ (value : Json) (bound : LengthBound),
        LengthBound.ofJson? value = some bound ↔
          bound = .max ∧ (value = str "max" ∨ value = obj [("max", null)]) ∨
            ∃ n, bound = .bounded n ∧
              value = obj [("bounded", int n.toNat)] := by
  refine ⟨?_, ?_, ?_, ?_, ?_, ?_, ?_, ?_, ?_, ?_⟩
  · intro place old new document document' hreplaces hread
    exact hreplaces.isSome_read?_iff hread
  · intro part
    exact ⟨part.read?_null, rfl⟩
  · intro part field hmem
    exact Part.isSome_read?_null_iff hmem
  · intro part members hread name hname
    exact Part.isSome_lookup_of_obj hread hname
  · intro part items hread
    exact Part.length_le_of_arr hread
  · decide
  · intro value n
    exact uint8?_eq_some_iff
  · intro value n
    exact uint32?_eq_some_iff
  · intro α _ value a
    exact named?_eq_some_iff
  · intro value bound
    exact LengthBound.ofJson?_eq_some_iff

/-- A document with a bound on the length of a property, which is given by
position. -/
def Sample.boundDocument (bound : Json) : Json :=
  obj [
    ("comment", null),
    ("entitySets", arr [
      obj [
        ("name", str "Person"),
        ("properties", arr [
          arr [str "ID", str "Int32"],
          arr [str "NAME", str "String",
            obj [("maxLength", obj [("bounded", bound)])]]])]])]

/-- A bound that does not fit into thirty-two bits takes the whole document with
it. -/
theorem StoreSchema.ofJson?_of_replaces_boundDocument :
    (StoreSchema.ofJson? (Sample.boundDocument (int 4294967295))).isSome ∧
      StoreSchema.ofJson? (Sample.boundDocument (int 4294967296)) = none := by
  have hreplaces : Replaces (.one .uint32) (int 4294967295) (int 4294967296)
    (.one .schema)
      (Sample.boundDocument (int 4294967295))
        (Sample.boundDocument (int 4294967296)) := by
    have hentitySets : ⟨"entitySets", false, .list .entitySet⟩ ∈
        Part.schema.fields := .head _
    have hproperties : ⟨"properties", false, .list .property⟩ ∈
        Part.entitySet.fields :=
      .tail _ (.tail _ (.head _))
    have hfacets : Part.property.fields[2]? =
        some ⟨"facets", false, .one .facets⟩ := rfl
    have hlength : ⟨"maxLength", false, .nullable .lengthBound⟩ ∈
        Part.facets.fields := .head _
    refine .member [("comment", null)] [] hentitySets (.item [] [] ?_)
    refine .member [("name", _)] [] hproperties (.item [_] [] ?_)
    exact .position [_, _] [] hfacets (.member [] [] hlength (.bound .here))
  have hread :
      (StoreSchema.ofJson? (Sample.boundDocument (int 4294967295))).isSome := by
    decide
  refine ⟨hread, ?_⟩
  rw [← Option.not_isSome_iff_eq_none,
    StoreSchema.ofJson?_of_replaces.1 _ _ _ _ _ hreplaces hread]
  decide

end FirebirdSchema
