import FirebirdSchema.Proofs.Markings
import Mathlib.Data.Finset.Card

/-!
# Markers as an ordered map

However markers are put together, by marking columns and by merging what was put
together before, the outcome is that of one flat sequence of assignments
(`Construction.markers_eq_assign`).  The columns stand in the order of their
first assignments, and each has the marker of its last one.

Merging applies the assignments of the second operand behind those of the first.
So it is associative, the order of the columns included; the empty map is its
identity, and it is idempotent.
-/

namespace FirebirdSchema

namespace Markers

variable {m other : Markers}

/-! ## Equal maps -/

theorem entries_eq_filterMap (m : Markers) :
    m.entries = m.columns.filterMap fun column =>
      (m.get? column).map fun marker => (column, marker) := by
  have hentry : ∀ entry ∈ m.entries,
      ((m.get? entry.1).map fun marker => (entry.1, marker)) = some entry := by
    intro entry hmem
    rw [get?_eq_some_of_mem hmem, Option.map_some]
  rw [columns, List.filterMap_map]
  exact (List.filterMap_some.symm).trans (List.filterMap_congr fun entry h =>
    (hentry entry h).symm)

/-- The order of the columns and the marker of each are all there is to a
map. -/
theorem ext_get? (hcolumns : m.columns = other.columns)
    (hget : ∀ column, m.get? column = other.get? column) : m = other := by
  apply Markers.ext
  rw [entries_eq_filterMap m, entries_eq_filterMap other, hcolumns]
  simp only [hget]

/-! ## Merging -/

theorem eraseDups_of_nodup {names : List String} (h : names.Nodup) :
    names.eraseDups = names := by
  induction names with
  | nil => rfl
  | cons name names ih =>
      obtain ⟨hfresh, hnames⟩ := List.nodup_cons.mp h
      have hothers : names.filter (! · == name) = names := by
        rw [List.filter_eq_self]
        intro other hother
        have hdiffer : other ≠ name := fun hsame => hfresh (hsame ▸ hother)
        simpa using hdiffer
      rw [List.eraseDups_cons, hothers, ih hnames]

theorem merge_eq_assign (m other : Markers) :
    m.merge other = m.assign other.entries := rfl

theorem columns_merge (m other : Markers) :
    (m.merge other).columns =
      m.columns ++ other.columns.filter (· ∉ m.columns) := by
  rw [merge_eq_assign, columns_assign,
    eraseDups_of_nodup (other.nodup.filter _)]
  rfl

theorem get?_merge (m other : Markers) (column : String) :
    (m.merge other).get? column = (other.get? column).or (m.get? column) := by
  rw [merge_eq_assign, get?_assign,
    Lookup.lookup_of_perm (List.reverse_perm other.entries).symm other.nodup]
  rfl

theorem empty_merge (m : Markers) : empty.merge m = m := by
  apply ext_get?
  · simp [columns_merge]
  · simp [get?_merge]

theorem merge_self (m : Markers) : m.merge m = m := by
  apply ext_get?
  · simp [columns_merge]
  · simp [get?_merge]

/-- A column that is marked in the second operand may be marked behind the merge
instead. -/
theorem merge_mark (m other : Markers) (column : String) (marker : Marker) :
    m.merge (other.mark column marker) =
      (m.merge other).mark column marker := by
  apply ext_get?
  · rw [columns_merge, columns_mark, columns_mark, columns_merge]
    by_cases hother : column ∈ other.columns <;>
      by_cases hm : column ∈ m.columns <;>
      simp [hother, hm]
  · intro name
    rw [get?_merge, get?_mark, get?_mark, get?_merge]
    by_cases hname : name = column <;> simp [hname]

theorem merge_assign (m other : Markers)
    (assignments : List (String × Marker)) :
    m.merge (other.assign assignments) =
      (m.merge other).assign assignments := by
  induction assignments generalizing other with
  | nil => rfl
  | cons assignment assignments ih => rw [assign_cons, ih, merge_mark,
      assign_cons]

theorem merge_assoc (m m' m'' : Markers) :
    (m.merge m').merge m'' = m.merge (m'.merge m'') :=
  (merge_assign m m' m''.entries).symm

/-! ## Constructions -/

/-- A way of putting markers together. -/
inductive Construction
  | empty
  /-- Marks a column behind everything else. -/
  | mark (construction : Construction) (column : String) (marker : Marker)
  /-- Merges what is put together in a second way into what is put together in a
  first. -/
  | merge (first second : Construction)

namespace Construction

/-- The markers that are put together. -/
def markers : Construction → Markers
  | empty => .empty
  | mark construction column marker => construction.markers.mark column marker
  | merge first second => first.markers.merge second.markers

/-- The assignments of markers to columns, from the first to the last. -/
def assignments : Construction → List (String × Marker)
  | empty => []
  | mark construction column marker =>
    construction.assignments ++ [(column, marker)]
  | merge first second => first.assignments ++ second.assignments

/-- How markers are put together makes no difference, apart from the
assignments. -/
theorem markers_eq_assign (construction : Construction) :
    construction.markers = Markers.empty.assign construction.assignments := by
  induction construction with
  | empty => rfl
  | mark construction column marker ih =>
      rw [markers, ih, assignments, assign_append, assign_cons, assign_nil]
  | merge first second hfirst hsecond =>
      rw [markers, hfirst, hsecond, merge_assign, merge_empty, assignments,
        assign_append]

variable {construction : Construction}

theorem columns_markers :
    construction.markers.columns =
      (construction.assignments.map Prod.fst).eraseDups := by
  rw [markers_eq_assign, columns_assign]
  simp

theorem get?_markers {column : String} :
    construction.markers.get? column =
      construction.assignments.reverse.lookup column := by
  rw [markers_eq_assign, get?_assign, get?_empty, Option.or_none]

theorem size_markers :
    construction.markers.size =
      (construction.assignments.map Prod.fst).toFinset.card := by
  have hcolumns : construction.markers.columns.toFinset =
      (construction.assignments.map Prod.fst).toFinset := by
    ext column
    rw [List.mem_toFinset, List.mem_toFinset, columns_markers,
      List.mem_eraseDups]
  calc
    construction.markers.size = construction.markers.columns.length :=
      List.length_map Prod.fst |>.symm
    _ = construction.markers.columns.toFinset.card :=
      (List.toFinset_card_of_nodup construction.markers.nodup).symm
    _ = (construction.assignments.map Prod.fst).toFinset.card := by
      rw [hcolumns]

end Construction

/-- Markers that are put together in any way form a map that remembers the order
of insertion: every column is marked once, its marker is that of the last
assignment to it, the columns stand in the order of their first assignments, and
there are as many as there are assigned columns.  Merging is associative and
idempotent with the empty map as its identity, and it appends the columns that
are new, with the markers of the second map before those of the first. -/
theorem insertion_ordered_map :
    (∀ construction : Construction,
      construction.markers.columns.Nodup ∧
      (∀ column, construction.markers.get? column =
        construction.assignments.reverse.lookup column) ∧
      construction.markers.columns =
        (construction.assignments.map Prod.fst).eraseDups ∧
      construction.markers.size =
        (construction.assignments.map Prod.fst).toFinset.card) ∧
    ∀ m m' m'' : Markers,
      (m.merge m').merge m'' = m.merge (m'.merge m'') ∧
      m.merge empty = m ∧ empty.merge m = m ∧ m.merge m = m ∧
      (m.merge m').columns = m.columns ++ m'.columns.filter (· ∉ m.columns) ∧
      ∀ column, (m.merge m').get? column =
        (m'.get? column).or (m.get? column) := by
  constructor
  · intro construction
    exact ⟨construction.markers.nodup, fun _ => Construction.get?_markers,
      Construction.columns_markers, Construction.size_markers⟩
  · intro m m' m''
    exact ⟨merge_assoc m m' m'', merge_empty m, empty_merge m, merge_self m,
      columns_merge m m', get?_merge m m'⟩

end Markers

end FirebirdSchema
