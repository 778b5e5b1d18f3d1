import FirebirdSchema.Model.EntitySet
import FirebirdSchema.Model.Relationship

/-!
# Store schemas

A store schema holds the entity sets and the relationship sets of one container,
each in the order of its declaration.  A name stands for the first set that
bears it.
-/

namespace FirebirdSchema

/-- The entity sets and relationship sets of one container. -/
structure StoreSchema where
  entitySets : List EntitySet := []
  relationships : List Relationship := []
  deriving DecidableEq

namespace StoreSchema

/-- Declares a further entity set. -/
def withEntitySet (s : StoreSchema) (e : EntitySet) : StoreSchema :=
  { s with entitySets := s.entitySets ++ [e] }

/-- Declares a further relationship set. -/
def withRelationship (s : StoreSchema) (r : Relationship) : StoreSchema :=
  { s with relationships := s.relationships ++ [r] }

/-- The first entity set of a name. -/
def entitySet? (s : StoreSchema) (name : String) : Option EntitySet :=
  s.entitySets.find? fun e => e.name = name

/-- The entity set to which a relationship end is bound. -/
def boundEntitySet (s : StoreSchema) (e : RelationshipEnd) :
    Except Fault EntitySet :=
  match s.entitySet? e.entitySet with
  | some set => .ok set
  | none => .error (.unknownEntitySet e.entitySet)

theorem mem_entitySets_of_entitySet? {s : StoreSchema} {name : String}
    {e : EntitySet} (h : s.entitySet? name = some e) : e ∈ s.entitySets :=
  List.mem_of_find?_eq_some h

theorem boundEntitySet_eq_ok_iff {s : StoreSchema} {e : RelationshipEnd}
    {set : EntitySet} :
    s.boundEntitySet e = .ok set ↔ s.entitySet? e.entitySet = some set := by
  unfold boundEntitySet
  split <;> simp_all

theorem entitySet?_withEntitySet (s : StoreSchema) (e : EntitySet)
    (name : String) :
    (s.withEntitySet e).entitySet? name =
      (s.entitySet? name).or (if e.name = name then some e else none) := by
  simp only [entitySet?, withEntitySet, List.find?_append]
  by_cases h : e.name = name <;> simp [h]

end StoreSchema

end FirebirdSchema
