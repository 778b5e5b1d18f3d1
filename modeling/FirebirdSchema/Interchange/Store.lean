import FirebirdSchema.Interchange.EntitySet
import FirebirdSchema.Interchange.Relationship
import FirebirdSchema.Json.Document
import FirebirdSchema.Model.Store

/-!
# The JSON form of store schemas

Store schemas as JSON records and as JSON documents.
-/

namespace FirebirdSchema.StoreSchema

open Json

/-- The field names of the record form, in order. -/
def fieldNames : List String :=
  ["entitySets", "relationshipSets"]

/-- The JSON form of a store schema. -/
def toJson (s : StoreSchema) : Json :=
  obj [
    ("entitySets", ofList EntitySet.toJson s.entitySets),
    ("relationshipSets", ofList Relationship.toJson s.relationships)]

/-- The store schema that a JSON value stands for. -/
def ofJson? (value : Json) : Option StoreSchema := do
  let fields ← value.fields? fieldNames
  let entitySets ← fields.withDefault "entitySets" [] (list? EntitySet.ofJson?)
  let relationships ← fields.withDefault "relationshipSets" []
    (list? Relationship.ofJson?)
  return { entitySets, relationships }

/-- The store schema that a document holds, when it is not null. -/
def ofDocument? (document : String) : Option (Option StoreSchema) :=
  (Json.parse? document).bind (nullable? ofJson?)

@[simp] theorem ofJson?_toJson (s : StoreSchema) :
    ofJson? s.toJson = some s := by
  simp [ofJson?, toJson, fields?, fieldNames, Fields.withDefault,
    List.lookup_cons, list?_ofList EntitySet.ofJson?_toJson,
    list?_ofList Relationship.ofJson?_toJson]

end FirebirdSchema.StoreSchema
