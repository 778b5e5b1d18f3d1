/-!
# Column markers

A marker in the comment of a column tells a later pass what the column stands
for.  The markers of a table form a map from column names that keeps the order
in which columns were first marked.
-/

namespace FirebirdSchema

/-- What a column stands for. -/
inductive Marker
  /-- A small integer that stands for a truth value. -/
  | boolean
  /-- Sixteen bytes that stand for a unique identifier. -/
  | guid
  /-- A key column whose values the server generates. -/
  | generatedKey
  deriving DecidableEq

/-- The text of a marker in a comment. -/
def Marker.text : Marker → String
  | boolean => "#BOOL#"
  | guid => "#GUID#"
  | generatedKey => "#PK_GEN#"

/-- Marks a column in a list of marked columns.  A column that is marked already
keeps its place. -/
def markColumn (column : String) (marker : Marker) :
    List (String × Marker) → List (String × Marker)
  | [] => [(column, marker)]
  | (name, old) :: entries =>
    if name = column then (name, marker) :: entries
    else (name, old) :: markColumn column marker entries

theorem map_fst_markColumn (column : String) (marker : Marker)
    (entries : List (String × Marker)) :
    (markColumn column marker entries).map Prod.fst =
      if column ∈ entries.map Prod.fst then entries.map Prod.fst
      else entries.map Prod.fst ++ [column] := by
  induction entries with
  | nil => rfl
  | cons entry entries ih =>
      by_cases hsame : entry.1 = column
      · simp [markColumn, hsame]
      · have hother : column ≠ entry.1 := fun h => hsame h.symm
        simp only [markColumn, if_neg hsame, List.map_cons, ih, List.mem_cons,
          hother, false_or]
        split <;> simp

theorem nodup_map_fst_markColumn (column : String) (marker : Marker)
    {entries : List (String × Marker)} (h : (entries.map Prod.fst).Nodup) :
    ((markColumn column marker entries).map Prod.fst).Nodup := by
  rw [map_fst_markColumn]
  split
  · exact h
  · rename_i habsent
    rw [List.nodup_append]
    refine ⟨h, by simp, ?_⟩
    intro name hname other hother
    rw [List.mem_singleton] at hother
    subst hother
    rintro rfl
    exact habsent hname

/-- The markers of the columns of a table, each column at most once. -/
structure Markers where
  /-- The marked columns, in the order in which they were first marked. -/
  entries : List (String × Marker)
  nodup : (entries.map Prod.fst).Nodup
  deriving DecidableEq

namespace Markers

/-- No column is marked. -/
def empty : Markers :=
  ⟨[], List.nodup_nil⟩

/-- Marks a column, in its old place if it is marked already. -/
def mark (m : Markers) (column : String) (marker : Marker) : Markers :=
  ⟨markColumn column marker m.entries,
    nodup_map_fst_markColumn column marker m.nodup⟩

/-- Marks every column that `other` marks, in the order of `other`. -/
def merge (m other : Markers) : Markers :=
  other.entries.foldl (fun m entry => m.mark entry.1 entry.2) m

/-- The marker of a column. -/
def get? (m : Markers) (column : String) : Option Marker :=
  m.entries.lookup column

/-- The marked columns, in the order in which they were first marked. -/
def columns (m : Markers) : List String :=
  m.entries.map Prod.fst

/-- The number of marked columns. -/
def size (m : Markers) : Nat :=
  m.entries.length

/-- Whether no column is marked. -/
def isEmpty (m : Markers) : Bool :=
  m.entries.isEmpty

@[ext] theorem ext {m other : Markers} (h : m.entries = other.entries) :
    m = other := by
  cases m
  cases other
  cases h
  rfl

@[simp] theorem entries_empty : empty.entries = [] := rfl

@[simp] theorem entries_mark (m : Markers) (column : String) (marker : Marker) :
    (m.mark column marker).entries = markColumn column marker m.entries := rfl

theorem columns_mark (m : Markers) (column : String) (marker : Marker) :
    (m.mark column marker).columns =
      if column ∈ m.columns then m.columns else m.columns ++ [column] :=
  map_fst_markColumn column marker m.entries

@[simp] theorem get?_empty (column : String) : empty.get? column = none := rfl

theorem get?_mark (m : Markers) (column name : String) (marker : Marker) :
    (m.mark column marker).get? name = if name = column then some marker
      else m.get? name := by
  simp only [get?, entries_mark]
  have hdiffer : ∀ {other : String}, name ≠ other →
      (name == other) = false := by simp
  induction m.entries with
  | nil =>
      by_cases h : name = column
      · simp [markColumn, h]
      · simp [markColumn, List.lookup_cons, h, hdiffer h]
  | cons entry entries ih =>
      obtain ⟨first, old⟩ := entry
      by_cases hsame : first = column
      · subst hsame
        by_cases h : name = first
        · simp [markColumn, h]
        · simp [markColumn, List.lookup_cons, h, hdiffer h]
      · by_cases h : name = first
        · subst h
          simp [markColumn, hsame]
        · simp only [markColumn, if_neg hsame, List.lookup_cons, hdiffer h, ih]

@[simp] theorem merge_empty (m : Markers) : m.merge empty = m := rfl

end Markers

end FirebirdSchema
