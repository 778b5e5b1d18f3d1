import FirebirdSchema.Model.Store
import FirebirdSchema.Script.Statement
import FirebirdSchema.Server.Dialect

/-!
# The script of a schema

The statements that a schema stands for in a dialect, or the first fault on the
way to them.  All tables come before all foreign keys, so that a fault in an
entity set is found before any fault in a relationship set.
-/

namespace FirebirdSchema

/-- An identifier as the dialect writes it. -/
def Dialect.identifier (d : Dialect) (name : String) :
    Except Fault Identifier := do
  return { name, text := ← d.quote name }

/-- Attributes the fault of a failed computation to an entity set. -/
def Fault.attributeToEntitySet {α : Type} (name : String)
    (result : Except Fault α) :
    Except Fault α :=
  result.mapError (Fault.inEntitySet name)

/-- Attributes the fault of a failed computation to a relationship set. -/
def Fault.attributeToRelationshipSet {α : Type} (name : String)
    (result : Except Fault α) :
    Except Fault α :=
  result.mapError (Fault.inRelationshipSet name)

/-- The markers that the type of a property gives to its column. -/
def Property.markers (p : Property) : Markers :=
  match p.kind with
  | .boolean => Markers.empty.mark p.name .boolean
  | .guid => Markers.empty.mark p.name .guid
  | _ => Markers.empty

/-- The column of a property: its name is written first, then its type. -/
def Column.ofProperty (d : Dialect) (p : Property) : Except Fault Column := do
  let name ← d.identifier p.name
  let type ← d.columnType p.kind p.facets
  return { name, type
           isTruthValue := p.kind = .boolean
           nullable := p.nullable }

/-- The markers of a table with the given properties and key.  The marker of a
generated key replaces a marker that the type of the column gave to it. -/
def Markers.ofProperties (properties keys : List Property) : Markers :=
  let typed := properties.foldl (fun m p => m.merge p.markers) Markers.empty
  (keys.filter Property.isIdentity).foldl
    (fun m p => m.mark p.name .generatedKey) typed

/-- The table block of an entity set, with faults that are not yet attributed to
the set. -/
def TableBlock.ofEntitySet (d : Dialect) (e : EntitySet) :
    Except Fault TableBlock := do
  let name ← d.identifier e.tableName
  let keys ← e.keyProperties
  let columns ← e.properties.mapM (Column.ofProperty d)
  let keyName ← d.identifier ("PK_" ++ e.tableName)
  let keyColumns ← keys.mapM fun p => d.identifier p.name
  let markers := Markers.ofProperties e.properties keys
  let comments ← markers.entries.mapM fun entry => do
    return (← d.identifier entry.1, entry.2)
  return { name, columns, keyName, keyColumns, comments }

/-- The foreign key of a relationship set of a schema, with faults that are not
yet attributed to the set.  Both ends are bound to entity sets before any
identifier is written. -/
def ForeignKey.ofRelationship (d : Dialect) (s : StoreSchema)
    (r : Relationship) :
    Except Fault ForeignKey := do
  let binding ← r.binding
  let principalSet ← s.boundEntitySet binding.principal
  let dependentSet ← s.boundEntitySet binding.dependent
  let table ← d.identifier dependentSet.tableName
  let name ← d.identifier ("FK_" ++ binding.name)
  let columns ← binding.constraint.dependentColumns.mapM d.identifier
  let principal ← d.identifier principalSet.tableName
  let principalColumns ← binding.constraint.principalColumns.mapM d.identifier
  return {
    table, name, columns, principal, principalColumns
    deleteRule := binding.principal.deleteRule }

/-- The table block of an entity set. -/
def EntitySet.tableBlock (d : Dialect) (e : EntitySet) :
    Except Fault TableBlock :=
  Fault.attributeToEntitySet e.name (TableBlock.ofEntitySet d e)

/-- The foreign key of a relationship set of a schema. -/
def StoreSchema.foreignKey (d : Dialect) (s : StoreSchema) (r : Relationship) :
    Except Fault ForeignKey :=
  Fault.attributeToRelationshipSet r.name (ForeignKey.ofRelationship d s r)

/-- The script of a schema. -/
def Script.ofSchema (d : Dialect) (s : StoreSchema) : Except Fault Script := do
  let tables ← s.entitySets.mapM (EntitySet.tableBlock d)
  let foreignKeys ← s.relationships.mapM (StoreSchema.foreignKey d s)
  return { tables, foreignKeys }

end FirebirdSchema
