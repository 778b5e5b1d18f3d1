import FirebirdSchema.Fault
import FirebirdSchema.Model.Property

/-!
# Entity sets

An entity set is stored in one table.  Its key members name properties; a name
stands for the first property that bears it.
-/

namespace FirebirdSchema

/-- An entity set, stored in one table. -/
structure EntitySet where
  name : String
  /-- The name of the table, when it differs from the name of the set. -/
  table : Option String := none
  /-- The properties, in the order of their columns. -/
  properties : List Property := []
  /-- The names of the key members, in key order. -/
  keyMembers : List String := []
  deriving DecidableEq

namespace EntitySet

/-- An entity set without properties, stored in a table of its own name. -/
def named (name : String) : EntitySet :=
  { name := name }

/-- Names the table. -/
def withTable (e : EntitySet) (table : String) : EntitySet :=
  { e with table := some table }

/-- Declares a further property. -/
def withProperty (e : EntitySet) (p : Property) : EntitySet :=
  { e with properties := e.properties ++ [p] }

/-- Makes a property the next key member. -/
def withKeyMember (e : EntitySet) (member : String) : EntitySet :=
  { e with keyMembers := e.keyMembers ++ [member] }

/-- Declares a further property and makes it the next key member. -/
def withKey (e : EntitySet) (p : Property) : EntitySet :=
  (e.withProperty p).withKeyMember p.name

/-- The name of the table in which the set is stored. -/
def tableName (e : EntitySet) : String :=
  e.table.getD e.name

/-- The first property of a name. -/
def property? (e : EntitySet) (name : String) : Option Property :=
  e.properties.find? fun p => p.name = name

/-- The property that a key member names. -/
def keyProperty (e : EntitySet) (member : String) : Except Fault Property :=
  match e.property? member with
  | some p => .ok p
  | none => .error (.unknownKeyMember member)

/-- The properties that the key members name, in key order.  There is at least
one. -/
def keyProperties (e : EntitySet) : Except Fault (List Property) :=
  match e.keyMembers with
  | [] => .error .missingKey
  | members => members.mapM e.keyProperty

theorem name_of_property? {e : EntitySet} {name : String} {p : Property}
    (h : e.property? name = some p) : p.name = name := by
  simpa using List.find?_some h

theorem mem_properties_of_property? {e : EntitySet} {name : String}
    {p : Property} (h : e.property? name = some p) : p ∈ e.properties :=
  List.mem_of_find?_eq_some h

theorem property?_eq_none_iff {e : EntitySet} {name : String} :
    e.property? name = none ↔ ∀ p ∈ e.properties, p.name ≠ name := by
  simp [property?]

theorem keyProperty_eq_ok_iff {e : EntitySet} {member : String} {p : Property} :
    e.keyProperty member = .ok p ↔ e.property? member = some p := by
  unfold keyProperty
  split <;> simp_all

end EntitySet

end FirebirdSchema
