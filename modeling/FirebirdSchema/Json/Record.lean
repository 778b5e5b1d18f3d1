import FirebirdSchema.Json.Value
import FirebirdSchema.Text.Named

/-!
# Records and tags in JSON

Readers for the JSON forms of common types.  A record is written as an object,
or as an array of its fields in the order of their declaration; a value of a
finite type is written as its name.  Every reader answers `none` for a value
that is not of its form.
-/

namespace FirebirdSchema.Json

/-- The members of an object that belong to a record, or the fields of a record
by position. -/
abbrev Fields := List (String × Json)

/-- The fields that a value gives to a record with the field names `names`.  An
object may have other members, but no field twice; an array may end early, but
holds nothing beyond the fields. -/
def fields? (names : List String) : Json → Option Fields
  | arr items =>
    if items.length ≤ names.length then some (names.zip items) else none
  | obj members =>
    let known := members.filter fun member => member.1 ∈ names
    if (known.map Prod.fst).Nodup then some known else none
  | _ => none

variable {α : Type}

/-- The field of a record that must be given. -/
def Fields.required (fields : Fields) (name : String) (read : Json → Option α) :
    Option α :=
  (fields.lookup name).bind read

/-- The field of a record that is `default` when it is not given. -/
def Fields.withDefault (fields : Fields) (name : String) (default : α)
    (read : Json → Option α) :
    Option α :=
  match fields.lookup name with
  | some value => read value
  | none => some default

/-- A value that may be null. -/
def nullable? (read : Json → Option α) : Json → Option (Option α)
  | null => some none
  | value => (read value).map some

/-- The null value for nothing, and the written form of a value otherwise. -/
def ofNullable (write : α → Json) : Option α → Json
  | none => null
  | some a => write a

/-- An array of values of one form. -/
def list? (read : Json → Option α) : Json → Option (List α)
  | arr items => items.mapM read
  | _ => none

/-- The array of the written forms of some values. -/
def ofList (write : α → Json) (values : List α) : Json :=
  arr (values.map write)

/-- A text. -/
def text? : Json → Option String
  | str s => some s
  | _ => none

/-- A truth value. -/
def bool? : Json → Option Bool
  | bool b => some b
  | _ => none

/-- An integer from zero up to but not including `bound`. -/
def natBelow? (bound : Nat) : Json → Option Nat
  | int n => if 0 ≤ n ∧ n < bound then some n.toNat else none
  | _ => none

/-- An integer of eight bits. -/
def uint8? (value : Json) : Option UInt8 :=
  (value.natBelow? UInt8.size).map UInt8.ofNat

/-- An integer of thirty-two bits. -/
def uint32? (value : Json) : Option UInt32 :=
  (value.natBelow? UInt32.size).map UInt32.ofNat

/-- A name without content: a string, or an object with that name as its only
member and null as the value of the member. -/
def tag? : Json → Option String
  | str s => some s
  | obj [(s, null)] => some s
  | _ => none

/-- A value of a finite type, written as its name. -/
def named? [Text.Named α] (value : Json) : Option α :=
  value.tag?.bind Text.Named.ofName?

/-- The name of a value of a finite type. -/
def ofNamed [Text.Named α] (a : α) : Json :=
  str (Text.Named.name a)

@[simp] theorem text?_str (s : String) : text? (str s) = some s := rfl

@[simp] theorem bool?_bool (b : Bool) : bool? (bool b) = some b := rfl

@[simp] theorem uint8?_toNat (n : UInt8) : uint8? (int n.toNat) = some n := by
  have hbound := n.toNat_lt_size
  simp only [uint8?, natBelow?]
  rw [if_pos (by omega)]
  simp

@[simp] theorem uint32?_toNat (n : UInt32) :
    uint32? (int n.toNat) = some n := by
  have hbound := n.toNat_lt_size
  simp only [uint32?, natBelow?]
  rw [if_pos (by omega)]
  simp

@[simp] theorem named?_ofNamed [Text.Named α] (a : α) :
    named? (ofNamed a) = some a := by
  simp [named?, ofNamed, tag?]

theorem list?_ofList {read : Json → Option α} {write : α → Json}
    (h : ∀ a, read (write a) = some a) (values : List α) :
    list? read (ofList write values) = some values := by
  simp only [list?, ofList]
  induction values with
  | nil => rfl
  | cons a values ih => simp [List.mapM_cons, h, ih]

theorem nullable?_ofNullable {read : Json → Option α} {write : α → Json}
    (h : ∀ a, read (write a) = some a) (hnotNull : ∀ a, write a ≠ null)
    (value : Option α) :
    nullable? read (ofNullable write value) = some value := by
  cases value with
  | none => rfl
  | some a =>
      simp only [ofNullable]
      cases hwritten : write a with
      | null => exact absurd hwritten (hnotNull a)
      | _ => simp [nullable?, ← hwritten, h a]

end FirebirdSchema.Json
