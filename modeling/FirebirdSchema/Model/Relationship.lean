import FirebirdSchema.Fault

/-!
# Relationship sets

A relationship set relates the rows of a principal table to the rows of a
dependent table.  Its ends play roles, and its one referential constraint says
which role is the principal, which the dependent, and which columns are paired.
-/

namespace FirebirdSchema

/-- What happens to dependent rows when a principal row is deleted. -/
inductive DeleteRule
  /-- The deletion is refused. -/
  | none
  /-- The dependent rows are deleted too. -/
  | cascade
  deriving DecidableEq

instance : Text.Named DeleteRule where
  values := [.none, .cascade]
  name
    | .none => "None"
    | .cascade => "Cascade"
  find?_name r := by cases r <;> rfl

/-- One end of a relationship set. -/
structure RelationshipEnd where
  role : String
  /-- The name of the entity set bound to this end. -/
  entitySet : String
  deleteRule : DeleteRule := .none
  deriving DecidableEq

/-- An end at which deletions are refused. -/
def RelationshipEnd.ofRole (role entitySet : String) : RelationshipEnd :=
  { role := role, entitySet := entitySet }

/-- Lets deletions cascade from this end to the other. -/
def RelationshipEnd.cascade (e : RelationshipEnd) : RelationshipEnd :=
  { e with deleteRule := .cascade }

/-- The roles of the two ends and the columns that are paired. -/
structure ReferentialConstraint where
  /-- The role of the end that is referred to. -/
  principalRole : String
  /-- The role of the end that refers. -/
  dependentRole : String
  principalColumns : List String := []
  dependentColumns : List String := []
  deriving DecidableEq

/-- A constraint between two roles that pairs no columns yet. -/
def ReferentialConstraint.between (principalRole dependentRole : String) :
    ReferentialConstraint :=
  { principalRole := principalRole, dependentRole := dependentRole }

/-- Pairs a principal column with a dependent column. -/
def ReferentialConstraint.withPair (c : ReferentialConstraint)
    (principal dependent : String) : ReferentialConstraint :=
  { c with
    principalColumns := c.principalColumns ++ [principal]
    dependentColumns := c.dependentColumns ++ [dependent] }

/-- A relationship set, enforced by one foreign key. -/
structure Relationship where
  name : String
  ends : List RelationshipEnd := []
  /-- The referential constraints; a relationship that can be enforced has
  exactly one. -/
  constraints : List ReferentialConstraint := []
  deriving DecidableEq

/-- A relationship whose constraint has been bound to two of its ends. -/
structure Binding where
  name : String
  /-- The end that is referred to. -/
  principal : RelationshipEnd
  /-- The end that refers. -/
  dependent : RelationshipEnd
  constraint : ReferentialConstraint
  deriving DecidableEq

namespace Relationship

/-- A relationship without ends. -/
def named (name : String) : Relationship :=
  { name := name }

/-- Adds an end. -/
def withEnd (r : Relationship) (e : RelationshipEnd) : Relationship :=
  { r with ends := r.ends ++ [e] }

/-- Adds a referential constraint. -/
def withConstraint (r : Relationship) (c : ReferentialConstraint) :
    Relationship :=
  { r with constraints := r.constraints ++ [c] }

/-- The first end that plays a role. -/
def end? (r : Relationship) (role : String) : Option RelationshipEnd :=
  r.ends.find? fun e => e.role = role

/-- The end that a constraint means by a role. -/
def endOf (r : Relationship) (role : String) : Except Fault RelationshipEnd :=
  match r.end? role with
  | some e => .ok e
  | none => .error (.unknownRole role)

/-- The only constraint of a relationship. -/
def constraint (r : Relationship) : Except Fault ReferentialConstraint :=
  match r.constraints with
  | [c] => .ok c
  | cs => .error (.constraintCount cs.length)

/-- Binds the only constraint of a relationship to the ends that play its roles.
The constraint is looked at first, then the principal role, then the dependent
one. -/
def binding (r : Relationship) : Except Fault Binding := do
  let c ← r.constraint
  if c.principalColumns.length ≠ c.dependentColumns.length then
    throw (.constraintArity c.principalColumns.length c.dependentColumns.length)
  let principal ← r.endOf c.principalRole
  let dependent ← r.endOf c.dependentRole
  return { name := r.name, principal, dependent, constraint := c }

theorem endOf_eq_ok_iff {r : Relationship} {role : String}
    {e : RelationshipEnd} :
    r.endOf role = .ok e ↔ r.end? role = some e := by
  unfold endOf
  split <;> simp_all

theorem constraint_eq_ok_iff {r : Relationship} {c : ReferentialConstraint} :
    r.constraint = .ok c ↔ r.constraints = [c] := by
  unfold constraint
  split <;> simp_all

end Relationship

end FirebirdSchema
