import FirebirdSchema.Proofs.Lookup
import FirebirdSchema.Script.Marker

/-!
# Markings

The markers of a table come from marking columns one after the other.  Whatever
columns are marked, and however often, two things describe the outcome: the
columns stand in the order in which they were marked first, and each of them has
the marker that it was given last.
-/

namespace FirebirdSchema

namespace Markers

/-- Marks columns one after the other. -/
def assign (m : Markers) (assignments : List (String × Marker)) : Markers :=
  assignments.foldl (fun m assignment => m.mark assignment.1 assignment.2) m

@[simp] theorem assign_nil (m : Markers) : m.assign [] = m := rfl

@[simp] theorem assign_cons (m : Markers) (assignment : String × Marker)
    (assignments : List (String × Marker)) :
    m.assign (assignment :: assignments) =
      (m.mark assignment.1 assignment.2).assign assignments := rfl

theorem assign_append (m : Markers) (first second : List (String × Marker)) :
    m.assign (first ++ second) = (m.assign first).assign second :=
  List.foldl_append

@[simp] theorem columns_empty : empty.columns = [] := rfl

theorem mem_columns_mark {m : Markers} {column name : String}
    {marker : Marker} :
    name ∈ (m.mark column marker).columns ↔
      name ∈ m.columns ∨ name = column := by
  rw [columns_mark]
  split
  · rename_i hmarked
    constructor
    · exact Or.inl
    · intro h
      rcases h with h | rfl
      · exact h
      · exact hmarked
  · simp

/-- The columns that are new come behind the old ones, in the order in which
they are first marked. -/
theorem columns_assign (m : Markers) (assignments : List (String × Marker)) :
    (m.assign assignments).columns =
      m.columns ++
        ((assignments.map Prod.fst).filter (· ∉ m.columns)).eraseDups := by
  induction assignments generalizing m with
  | nil => simp
  | cons assignment assignments ih =>
      obtain ⟨column, marker⟩ := assignment
      rw [assign_cons, ih, columns_mark]
      by_cases hmarked : column ∈ m.columns
      · simp [hmarked]
      · have hfilter : (assignments.map Prod.fst).filter
          (· ∉ m.columns ++ [column]) =
            ((assignments.map Prod.fst).filter (· ∉ m.columns)).filter
              (! · == column) := by
          rw [List.filter_filter]
          apply List.filter_congr
          intro name _
          by_cases hname : name = column
          · simp [hname]
          · simp [hname]
        rw [if_neg hmarked, hfilter, List.map_cons,
          List.filter_cons_of_pos (by simpa using hmarked), List.eraseDups_cons,
          List.append_assoc, List.singleton_append]

theorem mem_columns_assign {m : Markers} {assignments : List (String × Marker)}
    {name : String} :
    name ∈ (m.assign assignments).columns ↔
      name ∈ m.columns ∨ name ∈ assignments.map Prod.fst := by
  rw [columns_assign, List.mem_append, List.mem_eraseDups, List.mem_filter,
    decide_eq_true_eq]
  by_cases hmarked : name ∈ m.columns
  · simp [hmarked]
  · simp [hmarked]

/-- A column has the marker that it is given last. -/
theorem get?_assign (m : Markers) (assignments : List (String × Marker))
    (column : String) :
    (m.assign assignments).get? column =
      (assignments.reverse.lookup column).or (m.get? column) := by
  induction assignments generalizing m with
  | nil => rfl
  | cons assignment assignments ih =>
      obtain ⟨name, marker⟩ := assignment
      rw [assign_cons, ih, get?_mark, List.reverse_cons, List.lookup_append,
        Option.or_assoc]
      by_cases hcolumn : column = name
      · simp [hcolumn]
      · have hdiffer : (column == name) = false := by simpa using hcolumn
        simp [hcolumn, List.lookup_cons, hdiffer]

/-- The entries are the marked columns with their markers. -/
theorem get?_eq_some_of_mem {m : Markers} {column : String} {marker : Marker}
    (h : (column, marker) ∈ m.entries) : m.get? column = some marker :=
  Lookup.lookup_eq_some_of_mem m.nodup h

end Markers

end FirebirdSchema
