import FirebirdSchema.Json.Record
import FirebirdSchema.Proofs.Lookup
import Mathlib.Data.List.Forall2
import Mathlib.Logic.Relation

/-!
# Spellings of records

One value has many documents.  The fields of a record may come in any order,
among members that do not belong to it; a field that holds its default may be
left out; the record may be given by position; and a name without content may be
written as an object.  Each of these respellings is a step, made anywhere in a
document.  A reader that sees a record only through its fields reads the same
value before and after a step.
-/

namespace FirebirdSchema.Json

open Lookup Relation

/-! ## Steps -/

variable {α β : Type} {R : Json → Json → Prop} {read : Json → Option α}

/-- One field of a record form. -/
structure FieldForm where
  name : String
  /-- The written form of the value that stands in for the field where it may be
  left out. -/
  default? : Option Json
  /-- The steps in which the value of the field may be respelled. -/
  Respells : Json → Json → Prop

/-- A value of a field that is a spelling of the default of the field. -/
def FieldForm.IsDefault (field : FieldForm) (value : Json) : Prop :=
  ∃ default, field.default? = some default ∧
    ReflTransGen field.Respells default value

/-- The value has one spelling only. -/
def RespellsNever (_ _ : Json) : Prop :=
  False

/-- A name without content is written as an object with that name as its only
member. -/
inductive RespellsTag : Json → Json → Prop
  | object (s : String) : RespellsTag (str s) (obj [(s, null)])

/-- One item of an array is respelled. -/
inductive RespellsItem (R : Json → Json → Prop) : Json → Json → Prop
  | item (before after : List Json) {value value' : Json} (h : R value value') :
      RespellsItem R (arr (before ++ value :: after))
        (arr (before ++ value' :: after))

/-- One step in which a record, given by name or by position, is respelled. -/
inductive RespellsRecord (fields : List FieldForm) : Json → Json → Prop
  /-- The members come in another order. -/
  | reorder {members members' : List (String × Json)}
    (h : members.Perm members') :
      RespellsRecord fields (obj members) (obj members')
  /-- A member is added whose name is not the name of a field. -/
  | add (before after : List (String × Json)) (name : String) (value : Json)
      (h : ∀ field ∈ fields, field.name ≠ name) :
      RespellsRecord fields (obj (before ++ after))
        (obj (before ++ (name, value) :: after))
  /-- A field that holds its default is left out. -/
  | leaveOut (before after : List (String × Json)) {field : FieldForm}
    {value : Json}
      (mem : field ∈ fields) (h : field.IsDefault value) :
      RespellsRecord fields (obj (before ++ (field.name, value) :: after))
        (obj (before ++ after))
  /-- The value of a field is respelled. -/
  | member (before after : List (String × Json)) {field : FieldForm}
    {value value' : Json}
      (mem : field ∈ fields) (h : field.Respells value value') :
      RespellsRecord fields (obj (before ++ (field.name, value) :: after))
        (obj (before ++ (field.name, value') :: after))
  /-- The fields are given by position, in the order of their declaration.
  Where a field was left out, its default is given. -/
  | positional {members : List (String × Json)} {items : List Json}
      (h : List.Forall₂ (fun (field : FieldForm) item =>
        members.lookup field.name = some item ∨
          members.lookup field.name = none ∧
            field.IsDefault item) fields items) :
      RespellsRecord fields (obj members) (arr items)
  /-- The value of a field that is given by position is respelled. -/
  | item (before after : List Json) {field : FieldForm} {value value' : Json}
      (place : fields[before.length]? = some field)
        (h : field.Respells value value') :
      RespellsRecord fields (arr (before ++ value :: after))
        (arr (before ++ value' :: after))
  /-- The last of the fields that are given by position is left out where it
  holds its default. -/
  | leaveOutLast (before : List Json) {field : FieldForm} {value : Json}
      (place : fields[before.length]? = some field)
        (h : field.IsDefault value) :
      RespellsRecord fields (arr (before ++ [value])) (arr before)

/-- What a step does to one field of a record. -/
inductive FieldForm.Change (field : FieldForm) : Option Json →
    Option Json → Prop
  | same (value : Option Json) : Change field value value
  | respelled {value value' : Json} (h : field.Respells value value') :
      Change field (some value) (some value')
  | omitted {value : Json} (h : field.IsDefault value) : Change field
    (some value) none
  | given {value : Json} (h : field.IsDefault value) : Change field none
    (some value)

/-- What a step does to the fields of a record. -/
def FieldsChange (fields : List FieldForm) (given given' : Fields) : Prop :=
  ∀ field ∈ fields,
    field.Change (given.lookup field.name) (given'.lookup field.name)

/-- What a reader reads before a step it reads after the step. -/
def ReadsAlike (R : Json → Json → Prop) (read : Json → Option α) : Prop :=
  ∀ value value' a, R value value' → read value = some a → read value' = some a

/-- A value that is read from the fields of a record is read alike when the
fields change. -/
def ReadsFields (fields : List FieldForm) (read : Fields → Option α) : Prop :=
  ∀ given given' a, FieldsChange fields given given' → read given = some a →
    read given' = some a

/-! ## The fields that a document gives -/

/-- The members of an object that belong to a record. -/
def knownMembers (names : List String) (members : List (String × Json)) :
    Fields :=
  members.filter fun member => member.1 ∈ names

theorem fields?_obj_eq_some_iff {names : List String}
    {members : List (String × Json)} {given : Fields} :
    (obj members).fields? names = some given ↔
      ((knownMembers names members).map Prod.fst).Nodup ∧
        knownMembers names members = given := by
  simp [fields?, knownMembers]

theorem fields?_arr_eq_some_iff {names : List String} {items : List Json}
    {given : Fields} :
    (arr items).fields? names = some given ↔
      items.length ≤ names.length ∧ names.zip items = given := by
  simp [fields?]

section Members

variable {before after : Fields} {names : List String} {name : String}
  {value : Json}

theorem knownMembers_of_mem (hmem : name ∈ names) :
    knownMembers names (before ++ (name, value) :: after) =
      knownMembers names before ++
        (name, value) :: knownMembers names after := by
  simp [knownMembers, hmem]

theorem knownMembers_of_notMem (hnotMem : name ∉ names) :
    knownMembers names (before ++ (name, value) :: after) =
      knownMembers names (before ++ after) := by
  simp [knownMembers, hnotMem]

theorem knownMembers_append :
    knownMembers names (before ++ after) =
      knownMembers names before ++ knownMembers names after :=
  List.filter_append ..

theorem lookup_knownMembers (hmem : name ∈ names)
    (members : List (String × Json)) :
    (knownMembers names members).lookup name = members.lookup name := by
  simp only [knownMembers]
  induction members with
  | nil => rfl
  | cons member members ih =>
      obtain ⟨key, value⟩ := member
      by_cases hknown : key ∈ names
      · simp [hknown, List.lookup_cons, ih]
      · have hother : (name == key) = false :=
          beq_false_of_ne fun hsame => hknown (hsame ▸ hmem)
        simp [hknown, List.lookup_cons, ih, hother]

end Members

/-! ## Steps change fields -/

section FieldsChange

variable {fields : List FieldForm} {field : FieldForm}
  {before after given given' : Fields}
  {names : List String} {value value' : Json}

theorem FieldsChange.refl (given : Fields) : FieldsChange fields given given :=
  fun field _ => .same (given.lookup field.name)

theorem FieldsChange.of_perm (hnodup : (given.map Prod.fst).Nodup)
    (h : given.Perm given') :
    FieldsChange fields given given' := by
  intro field _
  rw [lookup_of_perm h hnodup]
  exact .same _

theorem FieldsChange.of_respelled
    (hnames : (fields.map FieldForm.name).Nodup)
    (hnodup : ((before ++ (field.name, value) :: after).map Prod.fst).Nodup)
    (hmem : field ∈ fields) (h : field.Respells value value') :
    FieldsChange fields (before ++ (field.name, value) :: after)
      (before ++ (field.name, value') :: after) := by
  intro other hmemOther
  by_cases hsame : other.name = field.name
  · obtain rfl := List.inj_on_of_nodup_map hnames hmemOther hmem hsame
    have hnodup' :
        ((before ++ (other.name, value') :: after).map Prod.fst).Nodup := by
      simpa using hnodup
    rw [lookup_append_cons_self_of_nodup hnodup,
      lookup_append_cons_self_of_nodup hnodup']
    exact .respelled h
  · rw [lookup_append_cons_of_ne hsame, lookup_append_cons_of_ne hsame]
    exact .same _

theorem FieldsChange.of_omitted
    (hnames : (fields.map FieldForm.name).Nodup)
    (hnodup : ((before ++ (field.name, value) :: after).map Prod.fst).Nodup)
    (hmem : field ∈ fields) (h : field.IsDefault value) :
    FieldsChange fields (before ++ (field.name, value) :: after)
      (before ++ after) := by
  intro other hmemOther
  by_cases hsame : other.name = field.name
  · obtain rfl := List.inj_on_of_nodup_map hnames hmemOther hmem hsame
    rw [lookup_append_cons_self_of_nodup hnodup, lookup_append_of_nodup hnodup]
    exact .omitted h
  · rw [lookup_append_cons_of_ne hsame]
    exact .same _

/-- Fields that are all given by position are found by name. -/
theorem lookup_zip_of_forall₂ {P : FieldForm → Json → Prop} {items : List Json}
    (hnames : (fields.map FieldForm.name).Nodup)
    (h : List.Forall₂ P fields items) (hmem : field ∈ fields) :
    ∃ item, ((fields.map FieldForm.name).zip items).lookup field.name =
      some item ∧
      P field item := by
  induction h with
  | nil => simp at hmem
  | @cons first item fields items hitem _ ih =>
      obtain ⟨hnotMem, hnames⟩ := List.nodup_cons.mp hnames
      rcases List.mem_cons.mp hmem with rfl | hmem
      · exact ⟨item, by simp, hitem⟩
      · obtain ⟨found, hfound, hfoundItem⟩ := ih hnames hmem
        have hother : field.name ≠ first.name := fun hsame =>
          hnotMem (hsame ▸ List.mem_map_of_mem hmem)
        refine ⟨found, ?_, hfoundItem⟩
        simp [List.lookup_cons, beq_false_of_ne hother, hfound]

theorem FieldsChange.of_positional {members : List (String × Json)}
    {items : List Json} (hnames : (fields.map FieldForm.name).Nodup)
    (h : List.Forall₂ (fun (field : FieldForm) item =>
      members.lookup field.name = some item ∨
        members.lookup field.name = none ∧ field.IsDefault item) fields items) :
    FieldsChange fields (knownMembers (fields.map FieldForm.name) members)
      ((fields.map FieldForm.name).zip items) := by
  intro field hmem
  obtain ⟨item, hfound, hgiven | ⟨habsent, hdefault⟩⟩ :=
    lookup_zip_of_forall₂ hnames h hmem
  · rw [lookup_knownMembers (List.mem_map_of_mem hmem), hfound, hgiven]
    exact .same _
  · rw [lookup_knownMembers (List.mem_map_of_mem hmem), hfound, habsent]
    exact .given hdefault

/-- The field at a place among those that are given by position. -/
theorem zip_append_cons {before : List Json} {name : String}
    (hplace : names[before.length]? = some name) (value : Json)
    (after : List Json) :
    names.zip (before ++ value :: after) =
      names.zip before ++
        (name, value) :: (names.drop (before.length + 1)).zip after := by
  induction before generalizing names with
  | nil =>
      cases names with
      | nil => simp at hplace
      | cons first names =>
          obtain rfl : first = name := by simpa using hplace
          simp
  | cons item before ih =>
      cases names with
      | nil => simp at hplace
      | cons first names => simpa using ih hplace

theorem nodup_zip (hnodup : names.Nodup) (items : List Json) :
    ((names.zip items).map Prod.fst).Nodup := by
  rw [List.zip_eq_zip_take_min, List.map_fst_zip (by simp)]
  exact hnodup.sublist (List.take_sublist _ _)

end FieldsChange

/-- A step leaves a record readable and changes its fields as a step may.  By
name and by position alike, one place changes in a list of fields. -/
theorem RespellsRecord.exists_fieldsChange {fields : List FieldForm}
    {value value' : Json} {given : Fields}
    (hnames : (fields.map FieldForm.name).Nodup)
    (hstep : RespellsRecord fields value value')
    (h : value.fields? (fields.map FieldForm.name) = some given) :
    ∃ given', value'.fields? (fields.map FieldForm.name) = some given' ∧
      FieldsChange fields given given' := by
  cases hstep with
  | reorder hperm =>
      obtain ⟨hnodup, rfl⟩ := fields?_obj_eq_some_iff.mp h
      have hpermKnown :=
        hperm.filter fun member => decide (member.1 ∈ fields.map FieldForm.name)
      have hnodup' := (hpermKnown.map Prod.fst).nodup_iff.mp hnodup
      exact ⟨_, fields?_obj_eq_some_iff.mpr ⟨hnodup', rfl⟩,
        .of_perm hnodup hpermKnown⟩
  | @add before after name value hunknown =>
      have hnotMem : name ∉ fields.map FieldForm.name := by
        simpa using hunknown
      refine ⟨given, ?_, .refl given⟩
      rw [fields?_obj_eq_some_iff, knownMembers_of_notMem hnotMem]
      exact fields?_obj_eq_some_iff.mp h
  | @leaveOut before after field value hmem hdefault =>
      obtain ⟨hnodup, rfl⟩ := fields?_obj_eq_some_iff.mp h
      have hmemName : field.name ∈ fields.map FieldForm.name :=
        List.mem_map_of_mem hmem
      rw [knownMembers_of_mem hmemName] at hnodup ⊢
      refine ⟨_, fields?_obj_eq_some_iff.mpr ⟨?_, knownMembers_append⟩,
        .of_omitted hnames hnodup hmem hdefault⟩
      rw [knownMembers_append]
      exact nodup_of_append_cons hnodup
  | @member before after field value value' hmem hrespells =>
      obtain ⟨hnodup, rfl⟩ := fields?_obj_eq_some_iff.mp h
      have hmemName : field.name ∈ fields.map FieldForm.name :=
        List.mem_map_of_mem hmem
      rw [knownMembers_of_mem hmemName] at hnodup ⊢
      refine ⟨_, fields?_obj_eq_some_iff.mpr ⟨?_, knownMembers_of_mem hmemName⟩,
        .of_respelled hnames hnodup hmem hrespells⟩
      rw [knownMembers_of_mem hmemName]
      simpa using hnodup
  | positional hfound =>
      obtain ⟨hnodup, rfl⟩ := fields?_obj_eq_some_iff.mp h
      have hlength := hfound.length_eq
      exact ⟨_, fields?_arr_eq_some_iff.mpr ⟨by simp [hlength], rfl⟩,
        .of_positional hnames hfound⟩
  | @item before after field value value' hplace hrespells =>
      obtain ⟨hlength, rfl⟩ := fields?_arr_eq_some_iff.mp h
      have hnodup := nodup_zip hnames (before ++ value :: after)
      have hname : (fields.map FieldForm.name)[before.length]? =
          some field.name := by
        simp [hplace]
      rw [zip_append_cons hname] at hnodup ⊢
      have hlength' : (before ++ value' :: after).length ≤
          (fields.map FieldForm.name).length := by
        simpa using hlength
      exact ⟨_, fields?_arr_eq_some_iff.mpr ⟨hlength',
        zip_append_cons hname ..⟩,
        .of_respelled hnames hnodup (List.mem_of_getElem? hplace) hrespells⟩
  | @leaveOutLast before field value hplace hdefault =>
      obtain ⟨hlength, rfl⟩ := fields?_arr_eq_some_iff.mp h
      have hnodup := nodup_zip hnames (before ++ [value])
      have hname : (fields.map FieldForm.name)[before.length]? =
          some field.name := by
        simp [hplace]
      rw [zip_append_cons hname, List.zip_nil_right] at hnodup ⊢
      have hshort : before.length ≤ (fields.map FieldForm.name).length := by
        rw [List.length_append] at hlength
        omega
      have hchange :=
        FieldsChange.of_omitted hnames hnodup
          (List.mem_of_getElem? hplace) hdefault
      rw [List.append_nil] at hchange
      exact ⟨_, fields?_arr_eq_some_iff.mpr ⟨hshort, rfl⟩, hchange⟩

/-! ## Readers -/

section Readers

variable {fields : List FieldForm} {name : String} {readField : Json → Option β}
  {next : β → Fields → Option α}

theorem ReadsAlike.of_reflTransGen (h : ReadsAlike R read) {value value' : Json}
    {a : α} (hsteps : ReflTransGen R value value')
    (hread : read value = some a) :
    read value' = some a := by
  induction hsteps with
  | refl => exact hread
  | tail _ hstep ih => exact h _ _ a hstep ih

theorem readsAlike_never : ReadsAlike RespellsNever read :=
  fun _ _ _ hnever => hnever.elim

theorem readsAlike_named [Text.Named α] :
    ReadsAlike RespellsTag (named? (α := α)) := by
  rintro _ _ a ⟨s⟩ hread
  exact hread

theorem RespellsTag.ne_null {value value' : Json}
    (hstep : RespellsTag value value') :
    value ≠ null ∧ value' ≠ null := by
  obtain ⟨s⟩ := hstep
  simp

theorem readsAlike_list (h : ReadsAlike R read) :
    ReadsAlike (RespellsItem R) (list? read) := by
  rintro _ _ values ⟨before, after, hstep⟩ hread
  simp only [list?, List.mapM_append, List.mapM_cons, Option.bind_eq_bind,
    Option.bind_eq_some_iff] at hread ⊢
  obtain ⟨earlier, hearlier, later, ⟨a, hread, hlater⟩, hwhole⟩ := hread
  exact ⟨earlier, hearlier, later, ⟨a, h _ _ a hstep hread, hlater⟩, hwhole⟩

theorem nullable?_of_ne_null {value : Json} (h : value ≠ null) :
    nullable? read value = (read value).map some := by
  cases value with
  | null => exact absurd rfl h
  | _ => rfl

/-- A value that may be null is read alike where no step leads from or to
null. -/
theorem readsAlike_nullable (h : ReadsAlike R read)
    (hnotNull : ∀ value value', R value value' → value ≠ null ∧ value' ≠ null) :
    ReadsAlike R (nullable? read) := by
  intro value value' a hstep hread
  obtain ⟨hbefore, hafter⟩ := hnotNull value value' hstep
  rw [nullable?_of_ne_null hbefore] at hread
  rw [nullable?_of_ne_null hafter]
  obtain ⟨b, hvalue, rfl⟩ := Option.map_eq_some_iff.mp hread
  rw [h value value' b hstep hvalue]
  rfl

theorem FieldForm.IsDefault.read_eq {field : FieldForm} {written value : Json}
    {default : β} (h : ReadsAlike field.Respells readField)
    (hwritten : field.default? = some written)
    (hreadDefault : readField written = some default)
    (hdefault : field.IsDefault value) :
    readField value = some default := by
  obtain ⟨first, hfirst, hsteps⟩ := hdefault
  obtain rfl := Option.some.inj (hfirst.symm.trans hwritten)
  exact h.of_reflTransGen hsteps hreadDefault

theorem readsFields_pure (a : α) : ReadsFields fields fun _ => pure a :=
  fun _ _ _ _ hread => hread

theorem ReadsFields.bind {readFirst : Fields → Option β}
    (h : ReadsFields fields readFirst)
    (hnext : ∀ b, ReadsFields fields (next b)) :
    ReadsFields fields fun given => readFirst given >>= fun b =>
      next b given := by
  intro given given' a hchanges hread
  obtain ⟨b, hfirst, hrest⟩ := Option.bind_eq_some_iff.mp hread
  have hfirst' := h given given' b hchanges hfirst
  exact Option.bind_eq_some_iff.mpr ⟨b, hfirst',
    hnext b given given' a hchanges hrest⟩

theorem readsFields_required (hmem : ⟨name, none, R⟩ ∈ fields)
    (h : ReadsAlike R readField) :
    ReadsFields fields fun given => given.required name readField := by
  intro given given' b hchanges hread
  have hchange := hchanges _ hmem
  simp only [Fields.required] at hread ⊢
  generalize given.lookup name = before at hread hchange
  generalize given'.lookup name = after at hchange ⊢
  cases hchange with
  | same => exact hread
  | respelled hstep => exact h _ _ b hstep hread
  | omitted hdefault => simp [FieldForm.IsDefault] at hdefault
  | given => cases hread

theorem readsFields_withDefault {default : β} (written : Json)
    (hmem : ⟨name, some written, R⟩ ∈ fields) (h : ReadsAlike R readField)
    (hreadDefault : readField written = some default) :
    ReadsFields fields fun given =>
      given.withDefault name default readField := by
  intro given given' b hchanges hread
  have hchange := hchanges _ hmem
  simp only [Fields.withDefault] at hread ⊢
  generalize given.lookup name = before at hread hchange
  generalize given'.lookup name = after at hchange ⊢
  cases hchange with
  | same => exact hread
  | respelled hstep => exact h _ _ b hstep hread
  | omitted hdefault =>
      have hdefault := hdefault.read_eq h rfl hreadDefault
      exact hdefault.symm.trans hread
  | given hdefault =>
      have hdefault := hdefault.read_eq h rfl hreadDefault
      exact hdefault.trans hread

theorem readsAlike_record {readFields : Fields → Option α}
    (hnames : (fields.map FieldForm.name).Nodup)
    (h : ReadsFields fields readFields) :
    ReadsAlike (RespellsRecord fields)
      fun value =>
        value.fields? (fields.map FieldForm.name) >>= readFields := by
  intro value value' a hstep hread
  obtain ⟨given, hgiven, hread⟩ := Option.bind_eq_some_iff.mp hread
  obtain ⟨given', hgiven', hchange⟩ := hstep.exists_fieldsChange hnames hgiven
  exact Option.bind_eq_some_iff.mpr ⟨given', hgiven',
    h given given' a hchange hread⟩

end Readers

end FirebirdSchema.Json
