/-!
# Named values

A finite type whose values are known by distinct names, and the value that a
name stands for.
-/

namespace FirebirdSchema.Text

/-- A finite type whose values have distinct names. -/
class Named (α : Type) where
  /-- All values, in the order of their declaration. -/
  values : List α
  /-- The name of a value. -/
  name : α → String
  /-- Looking a value up by its name finds that value. -/
  find?_name : ∀ a, (values.find? fun b => name b = name a) = some a

namespace Named

variable {α : Type} [Named α]

/-- The value that a name stands for. -/
def ofName? (s : String) : Option α :=
  (values (α := α)).find? fun a => name a = s

@[simp] theorem ofName?_name (a : α) : ofName? (name a) = some a :=
  find?_name a

theorem ofName?_eq_some_iff {s : String} {a : α} :
    ofName? s = some a ↔ s = name a := by
  constructor
  · intro h
    have hname : name a = s := by simpa using List.find?_some h
    exact hname.symm
  · rintro rfl
    exact ofName?_name a

end Named

end FirebirdSchema.Text
