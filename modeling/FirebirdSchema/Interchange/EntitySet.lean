import FirebirdSchema.Interchange.Property
import FirebirdSchema.Model.EntitySet

/-!
# The JSON form of entity sets

Entity sets as JSON records.  Only the table name may be null; everything but
the name of the set has a default.
-/

namespace FirebirdSchema.EntitySet

open Json

/-- The field names of the record form, in order. -/
def fieldNames : List String :=
  ["name", "table", "properties", "keyMembers"]

/-- The JSON form of an entity set. -/
def toJson (e : EntitySet) : Json :=
  obj [
    ("name", str e.name),
    ("table", ofNullable str e.table),
    ("properties", ofList Property.toJson e.properties),
    ("keyMembers", ofList str e.keyMembers)]

/-- The entity set that a JSON value stands for. -/
def ofJson? (value : Json) : Option EntitySet := do
  let fields ← value.fields? fieldNames
  let name ← fields.required "name" text?
  let table ← fields.withDefault "table" none (nullable? text?)
  let properties ← fields.withDefault "properties" [] (list? Property.ofJson?)
  let keyMembers ← fields.withDefault "keyMembers" [] (list? text?)
  return { name, table, properties, keyMembers }

@[simp] theorem ofJson?_toJson (e : EntitySet) : ofJson? e.toJson = some e := by
  simp [ofJson?, toJson, fields?, fieldNames, Fields.required,
    Fields.withDefault, List.lookup_cons,
    nullable?_ofNullable text?_str (fun s => by simp),
    list?_ofList Property.ofJson?_toJson, list?_ofList text?_str]

end FirebirdSchema.EntitySet
