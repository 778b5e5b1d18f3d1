import FirebirdSchema.Fault
import Mathlib.Data.List.Chain

/-!
# Attributed faults

A fault may be attributed to sets again and again, in any order and beginning
with a fault that is attributed already.  Every fault is its root below a list
of attributions (`attributed_root`).  From this form come its message, the chain
of its causes and the end of that chain, so that no attribution hides the root.
-/

namespace FirebirdSchema

/-- A set to which a fault is attributed. -/
inductive Attribution
  | entitySet (name : String)
  | relationshipSet (name : String)

namespace Attribution

/-- Attributes a fault to a set. -/
def wrap : Attribution → Fault → Fault
  | entitySet name, fault => .inEntitySet name fault
  | relationshipSet name, fault => .inRelationshipSet name fault

/-- What an attribution puts before the message of a fault. -/
def label : Attribution → String
  | entitySet name => "Entity set '" ++ name ++ "': "
  | relationshipSet name => "Relationship set '" ++ name ++ "': "

theorem wrap_inj {set set' : Attribution} {fault fault' : Fault} :
    set.wrap fault = set'.wrap fault' ↔ set = set' ∧ fault = fault' := by
  cases set <;> cases set' <;> simp [wrap]

end Attribution

namespace Fault

open Attribution

/-- Attributes a fault to one set after the other; the last set comes out
outermost. -/
def attributed (fault : Fault) (sets : List Attribution) : Fault :=
  sets.foldl (fun fault set => set.wrap fault) fault

/-- The sets to which a fault is attributed, outermost first. -/
def attributions : Fault → List Attribution
  | inEntitySet name cause => .entitySet name :: cause.attributions
  | inRelationshipSet name cause => .relationshipSet name :: cause.attributions
  | _ => []

/-! ## One attribution -/

section Wrap

variable (set : Attribution) (fault : Fault)

@[simp] theorem cause?_wrap : (set.wrap fault).cause? = some fault := by
  cases set <;> rfl

@[simp] theorem root_wrap : (set.wrap fault).root = fault.root := by
  cases set <;> rfl

@[simp] theorem message_wrap :
    (set.wrap fault).message = set.label ++ fault.message := by
  cases set <;> rfl

@[simp] theorem causes_wrap :
    (set.wrap fault).causes = fault :: fault.causes := by
  cases set <;> rfl

@[simp] theorem attributions_wrap :
    (set.wrap fault).attributions = set :: fault.attributions := by
  cases set <;> rfl

end Wrap

theorem attributions_eq_nil {fault : Fault} (h : fault.cause? = none) :
    fault.attributions = [] := by
  cases fault with
  | inEntitySet name cause => cases h
  | inRelationshipSet name cause => cases h
  | _ => rfl

/-- A fault is either not attributed or another fault with one more
attribution. -/
theorem attribution_induction {motive : Fault → Prop}
    (plain : ∀ fault, fault.cause? = none → motive fault)
    (wrapped : ∀ (set : Attribution) cause, motive cause →
      motive (set.wrap cause))
    (fault : Fault) : motive fault := by
  induction fault with
  | inEntitySet name cause ih => exact wrapped (.entitySet name) cause ih
  | inRelationshipSet name cause ih =>
      exact wrapped (.relationshipSet name) cause ih
  | _ => exact plain _ rfl

/-! ## Lists of attributions -/

@[simp] theorem attributed_nil (fault : Fault) :
    fault.attributed [] = fault := rfl

@[simp] theorem attributed_concat (fault : Fault) (sets : List Attribution)
    (set : Attribution) :
    fault.attributed (sets ++ [set]) = set.wrap (fault.attributed sets) := by
  rw [attributed, List.foldl_append]
  rfl

theorem root_attributed (fault : Fault) (sets : List Attribution) :
    (fault.attributed sets).root = fault.root := by
  induction sets using List.reverseRecOn with
  | nil => rfl
  | append_singleton sets set ih => rw [attributed_concat, root_wrap, ih]

theorem attributions_attributed (fault : Fault) (sets : List Attribution) :
    (fault.attributed sets).attributions =
      sets.reverse ++ fault.attributions := by
  induction sets using List.reverseRecOn with
  | nil => rfl
  | append_singleton sets set ih =>
      rw [attributed_concat, attributions_wrap, ih, List.reverse_concat,
        List.cons_append]

theorem message_attributed (fault : Fault) (sets : List Attribution) :
    (fault.attributed sets).message =
      String.join (sets.reverse.map Attribution.label) ++ fault.message := by
  induction sets using List.reverseRecOn with
  | nil => simp
  | append_singleton sets set ih =>
      rw [attributed_concat, message_wrap, ih, List.reverse_concat,
        List.map_cons, String.join_cons, String.append_assoc]

/-- Every fault is its root, attributed to the sets of the fault. -/
theorem attributed_root (fault : Fault) :
    fault.root.attributed fault.attributions.reverse = fault := by
  induction fault using attribution_induction with
  | plain fault h =>
      rw [attributions_eq_nil h, root_eq_self h]
      rfl
  | wrapped set cause ih =>
      rw [root_wrap, attributions_wrap, List.reverse_cons,
        attributed_concat, ih]

/-- The message of a fault begins with its attributions and ends with the
message of its root. -/
theorem message_eq (fault : Fault) :
    fault.message =
      String.join (fault.attributions.map Attribution.label) ++
        fault.root.message := by
  have h := message_attributed fault.root fault.attributions.reverse
  rwa [attributed_root, List.reverse_reverse] at h

/-! ## The root -/

theorem cause?_root (fault : Fault) : fault.root.cause? = none :=
  Option.not_isSome_iff_eq_none.mp (not_isAttributed_root fault)

theorem root_ne_wrap (fault cause : Fault) (set : Attribution) :
    fault.root ≠ set.wrap cause := by
  intro h
  have hcause := cause?_root fault
  rw [h, cause?_wrap] at hcause
  cases hcause

theorem root_root (fault : Fault) : fault.root.root = fault.root :=
  root_eq_self (cause?_root fault)

/-! ## The chain of causes -/

theorem length_causes (fault : Fault) :
    fault.causes.length = fault.attributions.length := by
  induction fault using attribution_induction with
  | plain fault h =>
      rw [causes_eq_nil h, attributions_eq_nil h]
      rfl
  | wrapped set cause ih =>
      rw [causes_wrap, attributions_wrap, List.length_cons,
        List.length_cons, ih]

/-- Behind each fault of the chain stands its cause. -/
theorem isChain_causes (fault : Fault) :
    List.IsChain (fun fault cause => fault.cause? = some cause)
      (fault :: fault.causes) := by
  induction fault using attribution_induction with
  | plain fault h =>
      rw [causes_eq_nil h]
      exact List.isChain_singleton fault
  | wrapped set cause ih =>
      rw [causes_wrap]
      exact List.isChain_cons_cons.mpr ⟨cause?_wrap set cause, ih⟩

/-- The chain ends with the root. -/
theorem getLast?_causes (fault : Fault) :
    (fault :: fault.causes).getLast? = some fault.root := by
  induction fault using attribution_induction with
  | plain fault h =>
      rw [causes_eq_nil h, root_eq_self h]
      rfl
  | wrapped set cause ih =>
      rw [causes_wrap, List.getLast?_cons_cons, ih, root_wrap]

/-- Fewer attributions lead to what is inside the outermost one. -/
theorem exists_attributed_eq_wrap_iff {fault cause : Fault} {set : Attribution}
    {n : Nat} :
    (∃ outer : List Attribution, outer.length = n + 1 ∧
        cause.attributed outer = set.wrap fault) ↔
      ∃ outer : List Attribution, outer.length = n ∧
        cause.attributed outer = fault := by
  constructor
  · rintro ⟨outer, hlength, hfault⟩
    obtain ⟨inner, last, rfl⟩ := (List.eq_nil_or_concat' outer).resolve_left
      (List.ne_nil_of_length_eq_add_one hlength)
    rw [attributed_concat, wrap_inj] at hfault
    exact ⟨inner, by simpa using hlength, hfault.2⟩
  · rintro ⟨outer, rfl, rfl⟩
    exact ⟨outer ++ [set], List.length_append,
      attributed_concat cause outer set⟩

/-- The chain of causes takes the attributions away one by one, the outermost
first. -/
theorem getElem?_causes_eq_some_iff {fault cause : Fault} {i : Nat} :
    fault.causes[i]? = some cause ↔
      ∃ outer : List Attribution, outer.length = i + 1 ∧
        cause.attributed outer = fault := by
  induction fault using attribution_induction generalizing i with
  | plain fault h =>
      rw [causes_eq_nil h]
      constructor
      · intro hcause
        cases hcause
      · rintro ⟨outer, hlength, rfl⟩
        obtain ⟨inner, last, rfl⟩ := (List.eq_nil_or_concat' outer).resolve_left
          (List.ne_nil_of_length_eq_add_one hlength)
        rw [attributed_concat, cause?_wrap] at h
        cases h
  | wrapped set inside ih =>
      rw [causes_wrap, exists_attributed_eq_wrap_iff]
      cases i with
      | zero =>
          rw [List.getElem?_cons_zero, Option.some_inj]
          constructor
          · rintro rfl
            exact ⟨[], rfl, rfl⟩
          · rintro ⟨outer, hlength, rfl⟩
            rw [List.eq_nil_of_length_eq_zero hlength, attributed_nil]
      | succ i => rw [List.getElem?_cons_succ, ih]

/-! ## Attributions of any fault -/

/-- However often a fault is attributed, its root stays what it was, attributed
to no set.  The message lists the attributions from the outermost to the first
and goes on with the message of the fault, so it ends with the message of the
root.  The chain of causes has one member for every attribution of the result;
each of them is the cause of what is before it, and has as many attributions
fewer than the result as its place says.  The last one is the root. -/
theorem root_behind_attributions (fault : Fault) (sets : List Attribution) :
    (fault.attributed sets).root = fault.root ∧
    (∀ name cause, fault.root ≠ .inEntitySet name cause ∧
      fault.root ≠ .inRelationshipSet name cause) ∧
    fault.root.root = fault.root ∧
    (fault.attributed sets).message =
      String.join (sets.reverse.map Attribution.label) ++ fault.message ∧
    (∃ lead, (fault.attributed sets).message =
      lead ++ (fault.attributed sets).root.message) ∧
    (fault.attributed sets).causes.length =
      sets.length + fault.attributions.length ∧
    List.IsChain (fun fault cause => fault.cause? = some cause)
      (fault.attributed sets :: (fault.attributed sets).causes) ∧
    (∀ i cause, (fault.attributed sets).causes[i]? = some cause ↔
      ∃ outer : List Attribution, outer.length = i + 1 ∧
        cause.attributed outer = fault.attributed sets) ∧
    ((fault.attributed sets).causes ≠ [] →
      (fault.attributed sets).causes.getLast? =
        some (fault.attributed sets).root) := by
  refine ⟨root_attributed fault sets, ?_, root_root fault,
    message_attributed fault sets, ⟨_, message_eq (fault.attributed sets)⟩, ?_,
    isChain_causes _, fun i cause => getElem?_causes_eq_some_iff, ?_⟩
  · intro name cause
    exact ⟨root_ne_wrap fault cause (.entitySet name),
      root_ne_wrap fault cause (.relationshipSet name)⟩
  · rw [length_causes, attributions_attributed, List.length_append,
      List.length_reverse]
  · intro hcauses
    obtain ⟨cause, causes, hsplit⟩ := List.exists_cons_of_ne_nil hcauses
    have hlast := getLast?_causes (fault.attributed sets)
    rwa [hsplit, List.getLast?_cons_cons, ← hsplit] at hlast

/-- A fault that is attributed already, attributed to two further sets whose
names imitate the wording of attributions. -/
theorem root_behind_attributions_imitatedLabels :
    let fault := Fault.inEntitySet "A': " (.unknownKeyMember "B")
    let sets := [Attribution.relationshipSet "", .entitySet "Entity set 'C"]
    (fault.attributed sets).causes ≠ [] ∧
      (fault.attributed sets).causes.getLast? = some (.unknownKeyMember "B") ∧
      (fault.attributed sets).causes.length = 3 ∧
      (fault.attributed sets).message =
        "Entity set 'Entity set 'C': Relationship set '': " ++
          "Entity set 'A': ': Key member 'B' is not a declared property" := by
  intro fault sets
  have hcauses : (fault.attributed sets).causes ≠ [] := List.cons_ne_nil _ _
  obtain ⟨-, -, -, hmessage, -, hlength, -, -, hlast⟩ :=
    root_behind_attributions fault sets
  exact ⟨hcauses, hlast hcauses, hlength, hmessage.trans (by decide +kernel)⟩

end Fault

end FirebirdSchema
