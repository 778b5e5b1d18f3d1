import FirebirdSchema.Json.Record
import FirebirdSchema.Model.Relationship

/-!
# The JSON form of relationship sets

Relationship sets, their ends and their referential constraints as JSON records.
Every field of a constraint must be given.
-/

namespace FirebirdSchema

open Json

namespace RelationshipEnd

/-- The field names of the record form, in order. -/
def fieldNames : List String :=
  ["role", "entitySet", "deleteBehavior"]

/-- The JSON form of a relationship end. -/
def toJson (e : RelationshipEnd) : Json :=
  obj [
    ("role", str e.role),
    ("entitySet", str e.entitySet),
    ("deleteBehavior", ofNamed e.deleteRule)]

/-- The relationship end that a JSON value stands for. -/
def ofJson? (value : Json) : Option RelationshipEnd := do
  let fields ← value.fields? fieldNames
  let role ← fields.required "role" text?
  let entitySet ← fields.required "entitySet" text?
  let deleteRule ← fields.withDefault "deleteBehavior" .none named?
  return { role, entitySet, deleteRule }

@[simp] theorem ofJson?_toJson (e : RelationshipEnd) :
    ofJson? e.toJson = some e := by
  simp [ofJson?, toJson, fields?, fieldNames, Fields.required,
    Fields.withDefault, List.lookup_cons]

end RelationshipEnd

namespace ReferentialConstraint

/-- The field names of the record form, in order. -/
def fieldNames : List String :=
  ["fromRole", "toRole", "fromProperties", "toProperties"]

/-- The JSON form of a referential constraint. -/
def toJson (c : ReferentialConstraint) : Json :=
  obj [
    ("fromRole", str c.principalRole),
    ("toRole", str c.dependentRole),
    ("fromProperties", ofList str c.principalColumns),
    ("toProperties", ofList str c.dependentColumns)]

/-- The referential constraint that a JSON value stands for. -/
def ofJson? (value : Json) : Option ReferentialConstraint := do
  let fields ← value.fields? fieldNames
  let principalRole ← fields.required "fromRole" text?
  let dependentRole ← fields.required "toRole" text?
  let principalColumns ← fields.required "fromProperties" (list? text?)
  let dependentColumns ← fields.required "toProperties" (list? text?)
  return { principalRole, dependentRole, principalColumns, dependentColumns }

@[simp] theorem ofJson?_toJson (c : ReferentialConstraint) :
    ofJson? c.toJson = some c := by
  simp [ofJson?, toJson, fields?, fieldNames, Fields.required, List.lookup_cons,
    list?_ofList text?_str]

end ReferentialConstraint

namespace Relationship

/-- The field names of the record form, in order. -/
def fieldNames : List String :=
  ["name", "ends", "constraints"]

/-- The JSON form of a relationship set. -/
def toJson (r : Relationship) : Json :=
  obj [
    ("name", str r.name),
    ("ends", ofList RelationshipEnd.toJson r.ends),
    ("constraints", ofList ReferentialConstraint.toJson r.constraints)]

/-- The relationship set that a JSON value stands for. -/
def ofJson? (value : Json) : Option Relationship := do
  let fields ← value.fields? fieldNames
  let name ← fields.required "name" text?
  let ends ← fields.withDefault "ends" [] (list? RelationshipEnd.ofJson?)
  let constraints ← fields.withDefault "constraints" []
    (list? ReferentialConstraint.ofJson?)
  return { name, ends, constraints }

@[simp] theorem ofJson?_toJson (r : Relationship) :
    ofJson? r.toJson = some r := by
  simp [ofJson?, toJson, fields?, fieldNames, Fields.required,
    Fields.withDefault, List.lookup_cons,
    list?_ofList RelationshipEnd.ofJson?_toJson,
    list?_ofList ReferentialConstraint.ofJson?_toJson]

end Relationship

end FirebirdSchema
