import FirebirdSchema.Generator

/-!
# A sample schema

Customers and their orders, and the report that a demonstration run writes about
them.
-/

namespace FirebirdSchema.Sample

/-- The entity set of customers. -/
def customers : EntitySet :=
  EntitySet.named "Customer"
    |>.withTable "CUSTOMER"
    |>.withKey (Property.ofKind "ID" .int32).notNull.identity
    |>.withProperty (Property.ofKind "NAME" .string
      |>.withLength (.bounded 100)
      |>.withUnicode true
      |>.notNull)
    |>.withProperty (Property.ofKind "IS_ACTIVE" .boolean)
    |>.withProperty (Property.ofKind "EXTERNAL_ID" .guid)

/-- The entity set of orders. -/
def orders : EntitySet :=
  EntitySet.named "Order"
    |>.withTable "ORDER"
    |>.withKey (Property.ofKind "ID" .int32).notNull.identity
    |>.withProperty (Property.ofKind "CUSTOMER_ID" .int32).notNull
    |>.withProperty ((Property.ofKind "TOTAL" .decimal).withPrecision 12 2)

/-- The relationship set between customers and their orders. -/
def customerOrders : Relationship :=
  Relationship.named "CustomerOrder"
    |>.withEnd (RelationshipEnd.ofRole "Customer" "Customer").cascade
    |>.withEnd (RelationshipEnd.ofRole "Order" "Order")
    |>.withConstraint
      ((ReferentialConstraint.between "Customer" "Order").withPair "ID"
        "CUSTOMER_ID")

/-- The schema of customers and orders. -/
def schema : StoreSchema :=
  { entitySets := [customers, orders], relationships := [customerOrders] }

/-- A name that would break out of its quotes if they were not doubled. -/
def hostileName : String :=
  "A\"; -- '\n\""

/-- A schema of one table with one column. -/
def tableOf (e : EntitySet) : StoreSchema :=
  StoreSchema.withEntitySet {} (e.withKey (Property.ofKind "ID" .int32))

/-- What a run of a program writes, and the code with which it ends. -/
structure Report where
  output : String
  diagnostics : String
  exitCode : UInt32
  deriving DecidableEq

/-- The report on the script of the sample schema. -/
def report : Report :=
  let title := "=== Store Model DDL Demo ===\n\n"
  match Generator.standard.schemaText schema with
  | .ok script =>
    { output := title ++ script ++ "\n", diagnostics := "", exitCode := 0 }
  | .error fault =>
    { output := title,
      diagnostics := "DDL generation error: " ++ fault.message ++ "\n",
      exitCode := 1 }

end FirebirdSchema.Sample
