import FirebirdSchema.Json.Lexeme

/-!
# JSON documents

A document is read lexeme by lexeme.  The arrays and objects that are still open
form a stack, so that documents may be nested to any depth.
-/

namespace FirebirdSchema.Json

/-- A member of an object under construction; its name is `none` when that
denotes no text. -/
abbrev PendingMember := Option String × Json

/-- An array or object that is still open, with what it holds so far, last
first. -/
inductive Frame
  | items (before : List Json)
  /-- An object whose member `name` is being read. -/
  | member (before : List PendingMember) (name : Option String)

/-- What may come next in a document. -/
inductive Stage
  /-- A value. -/
  | value
  /-- The first item of an array, or its end. -/
  | firstItem
  /-- The first member name of an object, or its end. -/
  | firstName
  /-- A further member name of an object that holds `before`. -/
  | name (before : List PendingMember)
  /-- The colon behind a member name. -/
  | colon (before : List PendingMember) (name : Option String)
  /-- What stands behind a value that is complete. -/
  | complete (value : Json)

/-- The object with the given members. -/
def ofMembers (members : List PendingMember) : Json :=
  match members.mapM fun (name, value) => name.map fun name =>
    (name, value) with
  | some members => .obj members
  | none => .unpaired

/-- The stack and the stage behind the first lexeme of a value. -/
def beginValue (stack : List Frame) : Lexeme → Option (List Frame × Stage)
  | .scalar value => some (stack, .complete value)
  | .text (some s) => some (stack, .complete (.str s))
  | .text none => some (stack, .complete .unpaired)
  | .arrayOpen => some (stack, .firstItem)
  | .objectOpen => some (stack, .firstName)
  | _ => none

/-- The stack and the stage behind a complete value and one more lexeme. -/
def endValue (value : Json) : List Frame → Lexeme → Option (List Frame × Stage)
  | .items before :: stack, .comma =>
    some (.items (value :: before) :: stack, .value)
  | .items before :: stack, .arrayClose =>
    some (stack, .complete (.arr (value :: before).reverse))
  | .member before name :: stack, .comma =>
    some (stack, .name ((name, value) :: before))
  | .member before name :: stack, .objectClose =>
    some (stack, .complete (ofMembers ((name, value) :: before).reverse))
  | _, _ => none

/-- The stack and the stage behind one more lexeme. -/
def Stage.next? (stack : List Frame) :
    Stage → Lexeme → Option (List Frame × Stage)
  | value, l => beginValue stack l
  | firstItem, .arrayClose => some (stack, complete (.arr []))
  | firstItem, l => beginValue (.items [] :: stack) l
  | firstName, .objectClose => some (stack, complete (.obj []))
  | firstName, .text s => some (stack, colon [] s)
  | name before, .text s => some (stack, colon before s)
  | colon before s, .colon => some (.member before s :: stack, value)
  | complete v, l => endValue v stack l
  | _, _ => none

/-- The value of a document whose remaining lexemes are given. -/
def readLexemes (stack : List Frame) (stage : Stage) : List Lexeme → Option Json
  | [] =>
    match stack, stage with
    | [], .complete value => some value
    | _, _ => none
  | l :: ls =>
    match stage.next? stack l with
    | some (stack', stage') => readLexemes stack' stage' ls
    | none => none

/-- The value that a document denotes. -/
def parse? (document : String) : Option Json := do
  readLexemes [] .value (← lexemes? document.toList)

end FirebirdSchema.Json
