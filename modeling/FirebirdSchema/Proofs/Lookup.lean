import Mathlib.Data.List.Nodup

/-!
# Lookups by name

A list of named values is read by name, and the first value of a name is found.
Where no name occurs twice, a lookup finds exactly the values of the list, in
whatever order they stand.
-/

namespace FirebirdSchema.Lookup

variable {α : Type} {before after entries entries' : List (String × α)}
  {name : String} {value : α}

theorem lookup_append_cons_of_ne {other : String} (h : other ≠ name) :
    (before ++ (name, value) :: after).lookup other =
      (before ++ after).lookup other := by
  simp [List.lookup_append, List.lookup_cons, beq_false_of_ne h]

theorem lookup_append_of_nodup
    (hnodup : ((before ++ (name, value) :: after).map Prod.fst).Nodup) :
    (before ++ after).lookup name = none := by
  rw [List.map_append, List.map_cons, List.nodup_middle,
    ← List.map_append] at hnodup
  have hnotMem := (List.nodup_cons.mp hnodup).1
  rw [List.lookup_eq_none_iff]
  intro entry hmem
  have hmemName : entry.1 ∈ (before ++ after).map Prod.fst :=
    List.mem_map_of_mem hmem
  have hother : name ≠ entry.1 := fun hsame => hnotMem (hsame ▸ hmemName)
  simpa using hother

theorem nodup_of_append_cons
    (hnodup : ((before ++ (name, value) :: after).map Prod.fst).Nodup) :
    ((before ++ after).map Prod.fst).Nodup :=
  hnodup.sublist
    (((List.sublist_cons_self _ _).append_left before).map Prod.fst)

theorem lookup_append_cons_self_of_nodup
    (hnodup : ((before ++ (name, value) :: after).map Prod.fst).Nodup) :
    (before ++ (name, value) :: after).lookup name = some value := by
  have habsent := lookup_append_of_nodup hnodup
  rw [List.lookup_append, Option.or_eq_none_iff] at habsent
  simp [List.lookup_append, habsent.1]

theorem lookup_eq_some_of_mem (hnodup : (entries.map Prod.fst).Nodup)
    (hmem : (name, value) ∈ entries) : entries.lookup name = some value := by
  obtain ⟨before, after, rfl⟩ := List.append_of_mem hmem
  exact lookup_append_cons_self_of_nodup hnodup

theorem mem_of_lookup_eq_some (h : entries.lookup name = some value) :
    (name, value) ∈ entries := by
  obtain ⟨before, after, rfl, -⟩ := List.lookup_eq_some_iff.mp h
  simp

theorem lookup_of_perm (h : entries.Perm entries')
    (hnodup : (entries.map Prod.fst).Nodup) (name : String) :
    entries'.lookup name = entries.lookup name := by
  have hnodup' : (entries'.map Prod.fst).Nodup :=
    (h.map Prod.fst).nodup_iff.mp hnodup
  refine Option.ext fun value => ?_
  constructor
  · intro hfound
    exact lookup_eq_some_of_mem hnodup
      (h.mem_iff.mpr (mem_of_lookup_eq_some hfound))
  · intro hfound
    exact lookup_eq_some_of_mem hnodup'
      (h.mem_iff.mp (mem_of_lookup_eq_some hfound))

end FirebirdSchema.Lookup
