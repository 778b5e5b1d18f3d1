/-!
# JSON values

The values that JSON documents denote.  Integers are told apart from the other
numbers by how they are written, and an object keeps its members in order,
repeated names included.
-/

namespace FirebirdSchema

/-- A JSON value. -/
inductive Json
  | null
  | bool (b : Bool)
  | int (n : Int)
  /-- A number with a fraction or an exponent, or a negative zero, as it is
  written. -/
  | decimal (literal : String)
  | str (s : String)
  | arr (items : List Json)
  | obj (members : List (String × Json))
  /-- A string, or an object with a member name, that holds half of a surrogate
  pair.  Such a value is well-formed, but denotes no text. -/
  | unpaired
  deriving Inhabited

namespace Json

mutual

/-- A value in which, of the members of an object that share a name, only the
last is kept. -/
def keepLast : Json → Json
  | arr items => arr (keepLastItems items)
  | obj members => obj (keepLastMembers members)
  | value => value

/-- `keepLast` for every item of an array. -/
def keepLastItems : List Json → List Json
  | [] => []
  | item :: items => keepLast item :: keepLastItems items

/-- `keepLast` for the members of an object. -/
def keepLastMembers : List (String × Json) → List (String × Json)
  | [] => []
  | (name, value) :: members =>
    let later := keepLastMembers members
    if later.any fun member => member.1 =
      name then later else (name, keepLast value) :: later

end

end Json

end FirebirdSchema
