import FirebirdSchema.Json.Record
import FirebirdSchema.Model.Property

/-!
# The JSON form of properties

Properties and their facets as JSON records.  The written form gives every
field; reading it yields the value that was written.
-/

namespace FirebirdSchema

open Json

namespace LengthBound

/-- The JSON form of a length bound. -/
def toJson : LengthBound → Json
  | max => str "max"
  | bounded n => obj [("bounded", int n.toNat)]

/-- The length bound that a JSON value stands for. -/
def ofJson? : Json → Option LengthBound
  | obj [("bounded", value)] => value.uint32?.map bounded
  | value => if value.tag? = some "max" then some max else none

@[simp] theorem ofJson?_toJson (bound : LengthBound) :
    ofJson? bound.toJson = some bound := by
  cases bound with
  | max => rfl
  | bounded n => simp [toJson, ofJson?]

theorem toJson_ne_null (bound : LengthBound) : bound.toJson ≠ null := by
  cases bound <;> simp [toJson]

end LengthBound

namespace Facets

/-- The field names of the record form, in order. -/
def fieldNames : List String :=
  ["maxLength", "fixedLength", "unicode", "precision", "scale"]

/-- The JSON form of facets. -/
def toJson (facets : Facets) : Json :=
  obj [
    ("maxLength", ofNullable LengthBound.toJson facets.length),
    ("fixedLength", ofNullable bool facets.fixedLength),
    ("unicode", ofNullable bool facets.unicode),
    ("precision", ofNullable (fun n => int n.toNat) facets.precision),
    ("scale", ofNullable (fun n => int n.toNat) facets.scale)]

/-- The facets that a JSON value stands for. -/
def ofJson? (value : Json) : Option Facets := do
  let fields ← value.fields? fieldNames
  let length ← fields.withDefault "maxLength" none
    (nullable? LengthBound.ofJson?)
  let fixedLength ← fields.withDefault "fixedLength" none (nullable? bool?)
  let unicode ← fields.withDefault "unicode" none (nullable? bool?)
  let precision ← fields.withDefault "precision" none (nullable? uint8?)
  let scale ← fields.withDefault "scale" none (nullable? uint8?)
  return { length, fixedLength, unicode, precision, scale }

@[simp] theorem ofJson?_toJson (facets : Facets) :
    ofJson? facets.toJson = some facets := by
  simp [ofJson?, toJson, fields?, fieldNames, Fields.withDefault,
    List.lookup_cons,
    nullable?_ofNullable LengthBound.ofJson?_toJson LengthBound.toJson_ne_null,
    nullable?_ofNullable bool?_bool (fun b => by simp),
    nullable?_ofNullable uint8?_toNat (fun n => by simp)]

end Facets

namespace Property

/-- The field names of the record form, in order. -/
def fieldNames : List String :=
  ["name", "kind", "facets", "nullable", "storeGenerated"]

/-- The JSON form of a property. -/
def toJson (p : Property) : Json :=
  obj [
    ("name", str p.name),
    ("kind", ofNamed p.kind),
    ("facets", p.facets.toJson),
    ("nullable", bool p.nullable),
    ("storeGenerated", ofNamed p.generation)]

/-- The property that a JSON value stands for. -/
def ofJson? (value : Json) : Option Property := do
  let fields ← value.fields? fieldNames
  let name ← fields.required "name" text?
  let kind ← fields.required "kind" named?
  let facets ← fields.withDefault "facets" {} Facets.ofJson?
  let nullable ← fields.withDefault "nullable" true bool?
  let generation ← fields.withDefault "storeGenerated" .none named?
  return { name, kind, facets, nullable, generation }

@[simp] theorem ofJson?_toJson (p : Property) : ofJson? p.toJson = some p := by
  simp [ofJson?, toJson, fields?, fieldNames, Fields.required,
    Fields.withDefault, List.lookup_cons]

end Property

end FirebirdSchema
