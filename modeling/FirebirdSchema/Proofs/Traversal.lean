import Mathlib.Data.List.Forall2

/-!
# Traversals that stop at the first fault

A computation that may fail either gives a value or a fault.  This module says
when a sequence of two such computations, and a traversal of a list by one,
gives which value and which fault.  A traversal gives the fault of the first
member that fails, whatever comes after that member; and a search gives the
first member with a property.
-/

namespace FirebirdSchema.Traversal

variable {ε α β γ : Type}

/-! ## Sequences of two computations -/

theorem bind_eq_ok_iff {x : Except ε α} {f : α → Except ε β} {b : β} :
    x >>= f = .ok b ↔ ∃ a, x = .ok a ∧ f a = .ok b := by
  cases x with
  | error fault =>
      constructor
      · intro h
        cases h
      · intro h
        obtain ⟨a, ha, -⟩ := h
        cases ha
  | ok a =>
      constructor
      · intro h
        exact ⟨a, rfl, h⟩
      · intro h
        obtain ⟨a', ha, hb⟩ := h
        cases ha
        exact hb

theorem bind_eq_error_iff {x : Except ε α} {f : α → Except ε β} {fault : ε} :
    x >>= f = .error fault ↔
      x = .error fault ∨ ∃ a, x = .ok a ∧ f a = .error fault := by
  cases x with
  | error cause =>
      constructor
      · intro h
        cases h
        exact Or.inl rfl
      · intro h
        rcases h with h | ⟨a, ha, -⟩
        · cases h
          rfl
        · cases ha
  | ok a =>
      constructor
      · intro h
        exact Or.inr ⟨a, rfl, h⟩
      · intro h
        rcases h with h | ⟨a', ha, hfault⟩
        · cases h
        · cases ha
          exact hfault

@[simp] theorem ok_bind (a : α) (f : α → Except ε β) :
    (Except.ok a >>= f) = f a := rfl

theorem pure_eq_ok_iff {a b : α} : (pure a : Except ε α) = .ok b ↔ a = b := by
  constructor
  · intro h
    exact Except.ok.inj h
  · rintro rfl
    rfl

theorem map_eq_ok_iff {x : Except ε α} {f : α → β} {b : β} :
    x.map f = .ok b ↔ ∃ a, x = .ok a ∧ f a = b := by
  cases x <;> simp [Except.map]

theorem map_eq_error_iff {x : Except ε α} {f : α → β} {fault : ε} :
    x.map f = .error fault ↔ x = .error fault := by
  cases x <;> simp [Except.map]

theorem mapError_eq_ok_iff {δ : Type} {x : Except ε α} {f : ε → δ} {a : α} :
    x.mapError f = .ok a ↔ x = .ok a := by
  cases x <;> simp [Except.mapError]

theorem mapError_eq_error_iff {δ : Type} {x : Except ε α} {f : ε → δ}
    {fault : δ} :
    x.mapError f = .error fault ↔ ∃ cause, x = .error cause ∧
      f cause = fault := by
  cases x <;> simp [Except.mapError]

theorem mapError_map {δ : Type} (x : Except ε α) (f : α → β) (k : ε → δ) :
    (x.map f).mapError k = (x.mapError k).map f := by
  cases x <;> rfl

/-- The faults of a sequence may be changed in each of its two computations. -/
theorem mapError_bind {δ : Type} (x : Except ε α) (f : α → Except ε β)
    (k : ε → δ) :
    (x >>= f).mapError k = x.mapError k >>= fun a => (f a).mapError k := by
  cases x <;> rfl

/-- Values may be changed in the second computation of a sequence or at its
end. -/
theorem map_of_bind (x : Except ε α) (f : α → Except ε β) (k : β → γ) :
    (x >>= f).map k = x >>= fun a => (f a).map k := by
  cases x <;> rfl

/-- Two sequences agree when a view of their first values does and nothing else
of these values counts later. -/
theorem bind_eq_bind_of_map_eq {x y : Except ε α} {f g : α → Except ε β}
    {k : α → γ} (h : x.map k = y.map k) (hnext : ∀ a b, k a = k b → f a = g b) :
    x >>= f = y >>= g := by
  cases x with
  | error fault =>
      rw [map_eq_error_iff.mp h.symm]
      rfl
  | ok a =>
      obtain ⟨b, rfl, hview⟩ := map_eq_ok_iff.mp h.symm
      exact hnext a b hview.symm

/-! ## Lists -/

theorem mapM_eq_ok_iff {f : α → Except ε β} {xs : List α} {ys : List β} :
    xs.mapM f = .ok ys ↔ List.Forall₂ (fun x y => f x = .ok y) xs ys := by
  induction xs generalizing ys with
  | nil =>
      rw [List.mapM_nil, pure_eq_ok_iff, List.forall₂_nil_left_iff]
      exact eq_comm
  | cons x xs ih =>
      simp only [List.mapM_cons, bind_eq_ok_iff, pure_eq_ok_iff, ih,
        List.forall₂_cons_left_iff]
      constructor
      · intro h
        obtain ⟨y, hy, ys', hys, rfl⟩ := h
        exact ⟨y, ys', hy, hys, rfl⟩
      · intro h
        obtain ⟨y, ys', hy, hys, rfl⟩ := h
        exact ⟨y, hy, ys', hys, rfl⟩

theorem exists_mapM_eq_ok_iff {f : α → Except ε β} {xs : List α} :
    (∃ ys, xs.mapM f = .ok ys) ↔ ∀ x ∈ xs, ∃ y, f x = .ok y := by
  induction xs with
  | nil => exact ⟨fun _ x hx => absurd hx List.not_mem_nil, fun _ => ⟨[], rfl⟩⟩
  | cons x xs ih =>
      rw [List.forall_mem_cons, ← ih]
      simp only [List.mapM_cons, bind_eq_ok_iff, pure_eq_ok_iff]
      constructor
      · intro h
        obtain ⟨_, y, hy, ys, hys, rfl⟩ := h
        exact ⟨⟨y, hy⟩, ys, hys⟩
      · intro h
        obtain ⟨⟨y, hy⟩, ys, hys⟩ := h
        exact ⟨y :: ys, y, hy, ys, hys, rfl⟩

theorem mapM_eq_ok_map {f : α → Except ε β} {g : α → β} {xs : List α}
    (h : ∀ x ∈ xs, f x = .ok (g x)) : xs.mapM f = .ok (xs.map g) := by
  rw [mapM_eq_ok_iff, List.forall₂_map_right_iff]
  exact List.forall₂_same.mpr h

theorem map_eq_map_of_mapM_eq_ok {f : α → Except ε β} {k : β → γ} {l : α → γ}
    {xs : List α} {ys : List β} (hstep : ∀ x ∈ xs, ∀ y, f x = .ok y → k y = l x)
    (h : xs.mapM f = .ok ys) :
    ys.map k = xs.map l := by
  rw [mapM_eq_ok_iff] at h
  induction h with
  | nil => rfl
  | @cons x y xs ys hy _ ih =>
      obtain ⟨hx, hxs⟩ := List.forall_mem_cons.mp hstep
      rw [List.map_cons, List.map_cons, hx y hy, ih hxs]

theorem eq_map_of_mapM_eq_ok {f : α → Except ε β} {g : α → β} {xs : List α}
    {ys : List β} (hg : ∀ x ∈ xs, ∀ y, f x = .ok y → y = g x)
    (h : xs.mapM f = .ok ys) :
    ys = xs.map g := by
  rw [← map_eq_map_of_mapM_eq_ok hg h, List.map_id']

/-- A traversal by `f` goes through a traversal by `g`, when every step does. -/
theorem exists_mapM_map_eq {δ : Type} {f : α → Except ε β} {g : α → Except δ γ}
    {k : γ → β} {xs : List α} {ys : List β}
    (hstep : ∀ x ∈ xs, ∀ y, f x = .ok y → ∃ z, g x = .ok z ∧ k z = y)
    (h : xs.mapM f = .ok ys) :
    ∃ zs, xs.mapM g = .ok zs ∧ zs.map k = ys := by
  rw [mapM_eq_ok_iff] at h
  induction h with
  | nil => exact ⟨[], rfl, rfl⟩
  | @cons x y xs ys hy _ ih =>
      obtain ⟨hx, hxs⟩ := List.forall_mem_cons.mp hstep
      obtain ⟨z, hz, rfl⟩ := hx y hy
      obtain ⟨zs, hzs, rfl⟩ := ih hxs
      refine ⟨z :: zs, ?_, rfl⟩
      rw [mapM_eq_ok_iff] at hzs ⊢
      exact List.Forall₂.cons hz hzs

/-- A traversal keeps its values when every step keeps its value. -/
theorem mapM_eq_ok_of_imp {f g : α → Except ε β} {xs : List α} {ys : List β}
    (hstep : ∀ x y, f x = .ok y → g x = .ok y) (h : xs.mapM f = .ok ys) :
    xs.mapM g = .ok ys := by
  rw [mapM_eq_ok_iff] at h ⊢
  exact h.imp hstep

/-- Values may be changed in each step of a traversal or at its end. -/
theorem map_mapM (f : α → Except ε β) (k : β → γ) (xs : List α) :
    (xs.mapM f).map (List.map k) = xs.mapM fun x => (f x).map k := by
  induction xs with
  | nil => rfl
  | cons x xs ih =>
      rw [List.mapM_cons, List.mapM_cons, ← ih]
      cases f x with
      | error fault => rfl
      | ok y => cases xs.mapM f <;> rfl

/-- Faults may be changed in each step of a traversal or at its end. -/
theorem mapError_mapM {δ : Type} (f : α → Except ε β) (k : ε → δ)
    (xs : List α) :
    (xs.mapM f).mapError k = xs.mapM fun x => (f x).mapError k := by
  induction xs with
  | nil => rfl
  | cons x xs ih =>
      simp only [List.mapM_cons, mapError_bind, ih]
      rfl

theorem mapM_eq_mapM_of_forall₂ {f : α → Except ε γ} {g : β → Except ε γ}
    {xs : List α} {ys : List β}
    (h : List.Forall₂ (fun x y => f x = g y) xs ys) :
    xs.mapM f = ys.mapM g := by
  induction h with
  | nil => rfl
  | cons hpair _ ih => rw [List.mapM_cons, List.mapM_cons, hpair, ih]

theorem mapM_congr {f g : α → Except ε β} {xs : List α}
    (h : ∀ x ∈ xs, f x = g x) :
    xs.mapM f = xs.mapM g :=
  mapM_eq_mapM_of_forall₂ (List.forall₂_same.mpr h)

theorem mapM_concat {f : α → Except ε β} {xs : List α} {ys : List β}
    (h : xs.mapM f = .ok ys) (x : α) :
    (xs ++ [x]).mapM f = (f x).map fun y => ys ++ [y] := by
  rw [List.mapM_append, h, List.mapM_cons, List.mapM_nil]
  cases f x <;> rfl

/-- The values of a computation that succeeds on a list form a function. -/
theorem exists_values [Inhabited β] {f : α → Except ε β} {xs : List α}
    (h : ∀ x ∈ xs, ∃ y, f x = .ok y) :
    ∃ value : α → β, ∀ x ∈ xs, f x = .ok (value x) := by
  refine ⟨fun x => (f x).toOption.getD default, ?_⟩
  intro x hx
  obtain ⟨y, hy⟩ := h x hx
  simp only [hy, Except.toOption, Option.getD_some]

theorem length_of_mapM_eq_ok {f : α → Except ε β} {xs : List α} {ys : List β}
    (h : xs.mapM f = .ok ys) : ys.length = xs.length :=
  (mapM_eq_ok_iff.mp h).length_eq.symm

theorem eq_nil_iff_of_mapM_eq_ok {f : α → Except ε β} {xs : List α}
    {ys : List β} (h : xs.mapM f = .ok ys) : ys = [] ↔ xs = [] := by
  rw [← List.length_eq_zero_iff, length_of_mapM_eq_ok h,
    List.length_eq_zero_iff]

theorem exists_value_mem {f : α → Except ε β} {xs : List α} {ys : List β}
    (h : xs.mapM f = .ok ys) {x : α} (hx : x ∈ xs) : ∃ y ∈ ys, f x = .ok y := by
  rw [mapM_eq_ok_iff] at h
  induction h with
  | nil => exact absurd hx List.not_mem_nil
  | @cons x' y xs ys hy _ ih =>
      rcases List.mem_cons.mp hx with rfl | hx
      · exact ⟨y, List.mem_cons_self, hy⟩
      · obtain ⟨z, hz, hvalue⟩ := ih hx
        exact ⟨z, List.mem_cons_of_mem y hz, hvalue⟩

theorem exists_argument_mem {f : α → Except ε β} {xs : List α} {ys : List β}
    (h : xs.mapM f = .ok ys) {y : β} (hy : y ∈ ys) : ∃ x ∈ xs, f x = .ok y := by
  rw [mapM_eq_ok_iff] at h
  induction h with
  | nil => exact absurd hy List.not_mem_nil
  | @cons x y' xs ys hvalue _ ih =>
      rcases List.mem_cons.mp hy with rfl | hy
      · exact ⟨x, List.mem_cons_self, hvalue⟩
      · obtain ⟨z, hz, hvalue⟩ := ih hy
        exact ⟨z, List.mem_cons_of_mem x hz, hvalue⟩

/-- The values of a traversal stand where their arguments stood. -/
theorem getElem?_of_mapM_eq_ok {f : α → Except ε β} {before after : List α}
    {x : α} {ys : List β} (h : (before ++ x :: after).mapM f = .ok ys) :
    ∃ y, f x = .ok y ∧ ys[before.length]? = some y := by
  simp only [List.mapM_append, List.mapM_cons, bind_eq_ok_iff,
    pure_eq_ok_iff] at h
  obtain ⟨earlier, hearlier, _, ⟨y, hy, later, -, rfl⟩, rfl⟩ := h
  refine ⟨y, hy, ?_⟩
  rw [← length_of_mapM_eq_ok hearlier,
    List.getElem?_append_right (Nat.le_refl _), Nat.sub_self]
  rfl

/-- The member `x` is the first one of `xs` at which `f` fails, and `fault` is
its fault. -/
def FirstFault (f : α → Except ε β) (xs : List α) (x : α) (fault : ε) : Prop :=
  ∃ before after, xs = before ++ x :: after ∧
    (∀ y ∈ before, ∃ b, f y = .ok b) ∧ f x = .error fault

theorem FirstFault.mem {f : α → Except ε β} {xs : List α} {x : α} {fault : ε}
    (h : FirstFault f xs x fault) : x ∈ xs := by
  obtain ⟨before, after, rfl, -, -⟩ := h
  exact List.mem_append_right before List.mem_cons_self

theorem FirstFault.eq_error {f : α → Except ε β} {xs : List α} {x : α}
    {fault : ε} (h : FirstFault f xs x fault) : f x = .error fault := by
  obtain ⟨-, -, -, -, hfault⟩ := h
  exact hfault

theorem FirstFault.cons {f : α → Except ε β} {xs : List α} {x y : α} {fault : ε}
    (hy : ∃ b, f y = .ok b) (h : FirstFault f xs x fault) :
    FirstFault f (y :: xs) x fault := by
  obtain ⟨before, after, rfl, hbefore, hfault⟩ := h
  exact ⟨y :: before, after, rfl, List.forall_mem_cons.mpr ⟨hy, hbefore⟩,
    hfault⟩

/-- The member `x` is the first one of `xs` of which `P` holds. -/
def IsFirst (P : α → Prop) (xs : List α) (x : α) : Prop :=
  ∃ before after, xs = before ++ x :: after ∧ (∀ y ∈ before, ¬P y) ∧ P x

theorem find?_eq_some_iff_isFirst {P : α → Prop} [DecidablePred P] {xs : List α}
    {x : α} :
    xs.find? (fun y => P y) = some x ↔ IsFirst P xs x := by
  simp only [List.find?_eq_some_iff_append, IsFirst, decide_eq_true_eq,
    Bool.not_eq_true', decide_eq_false_iff_not]
  constructor
  · rintro ⟨hx, before, after, hsplit, hbefore⟩
    exact ⟨before, after, hsplit, hbefore, hx⟩
  · rintro ⟨before, after, hsplit, hbefore, hx⟩
    exact ⟨hx, before, after, hsplit, hbefore⟩

theorem IsFirst.append_right {P : α → Prop} {xs : List α} {x : α}
    (h : IsFirst P xs x) (ys : List α) : IsFirst P (xs ++ ys) x := by
  obtain ⟨before, after, rfl, hbefore, hx⟩ := h
  exact ⟨before, after ++ ys, by simp, hbefore, hx⟩

/-- Where no two members look the same, each is the first one that looks like
it. -/
theorem isFirst_of_nodup_map {k : α → β} {xs : List α} {x : α}
    (h : (xs.map k).Nodup) (hx : x ∈ xs) :
    IsFirst (fun y => k y = k x) xs x := by
  obtain ⟨before, after, rfl⟩ := List.append_of_mem hx
  rw [List.map_append, List.map_cons, List.nodup_append] at h
  refine ⟨before, after, rfl, ?_, rfl⟩
  intro y hy hsame
  exact h.2.2 (k y) (List.mem_map_of_mem hy) (k x) List.mem_cons_self hsame

/-- The first member that fails is the first one of those that fail. -/
theorem FirstFault.isFirst {f : α → Except ε β} {P : α → Prop}
    {xs : List α} {x : α} {fault : ε} (h : FirstFault f xs x fault)
    (hP : ∀ y ∈ xs, (∃ b, f y = .ok b) ↔ ¬P y) : IsFirst P xs x := by
  have hmem := h.mem
  obtain ⟨before, after, rfl, hbefore, hfault⟩ := h
  refine ⟨before, after, rfl, ?_, ?_⟩
  · intro y hy
    exact (hP y (List.mem_append_left _ hy)).mp (hbefore y hy)
  · by_contra hx
    obtain ⟨b, hb⟩ := (hP x hmem).mpr hx
    rw [hb] at hfault
    cases hfault

/-- A traversal fails exactly with the fault of the first member that fails. -/
theorem mapM_eq_error_iff {f : α → Except ε β} {xs : List α} {fault : ε} :
    xs.mapM f = .error fault ↔ ∃ x, FirstFault f xs x fault := by
  induction xs with
  | nil =>
      constructor
      · intro h
        cases h
      · intro h
        obtain ⟨x, hx⟩ := h
        exact absurd hx.mem List.not_mem_nil
  | cons y xs ih =>
      rw [List.mapM_cons, bind_eq_error_iff]
      constructor
      · intro h
        rcases h with hy | ⟨b, hy, hxs⟩
        · exact ⟨y, [], xs, rfl, fun _ h => absurd h List.not_mem_nil, hy⟩
        · rw [bind_eq_error_iff] at hxs
          obtain hxs | ⟨ys, -, hpure⟩ := hxs
          · obtain ⟨x, hx⟩ := ih.mp hxs
            exact ⟨x, hx.cons ⟨b, hy⟩⟩
          · cases hpure
      · intro h
        obtain ⟨x, before, after, hsplit, hbefore, hfault⟩ := h
        cases before with
        | nil =>
            obtain ⟨rfl, rfl⟩ := List.cons.inj hsplit
            exact Or.inl hfault
        | cons z before =>
            obtain ⟨rfl, rfl⟩ := List.cons.inj hsplit
            obtain ⟨⟨b, hb⟩, hbefore⟩ := List.forall_mem_cons.mp hbefore
            have hrest := ih.mpr ⟨x, before, after, rfl, hbefore, hfault⟩
            exact Or.inr ⟨b, hb, bind_eq_error_iff.mpr (Or.inl hrest)⟩

/-! ## Kinds of faults -/

/-- Every fault of a computation is of one kind. -/
def FaultsIn (kind : ε → Prop) (x : Except ε α) : Prop :=
  ∀ fault, x = .error fault → kind fault

namespace FaultsIn

variable {kind : ε → Prop}

theorem ok (a : α) : FaultsIn kind (.ok a : Except ε α) := by
  intro fault h
  cases h

theorem error {fault : ε} (h : kind fault) :
    FaultsIn kind (.error fault : Except ε α) := by
  intro fault' h'
  cases h'
  exact h

theorem bind {x : Except ε α} {f : α → Except ε β} (hx : FaultsIn kind x)
    (hf : ∀ a, x = .ok a → FaultsIn kind (f a)) : FaultsIn kind (x >>= f) := by
  intro fault h
  rcases bind_eq_error_iff.mp h with h | ⟨a, ha, h⟩
  · exact hx fault h
  · exact hf a ha fault h

theorem mapM {f : α → Except ε β} (hf : ∀ a, FaultsIn kind (f a))
    (xs : List α) :
    FaultsIn kind (xs.mapM f) := by
  intro fault h
  obtain ⟨x, hx⟩ := mapM_eq_error_iff.mp h
  exact hf x fault hx.eq_error

theorem imp {kind' : ε → Prop} {x : Except ε α} (hx : FaultsIn kind x)
    (himp : ∀ fault, kind fault → kind' fault) : FaultsIn kind' x :=
  fun fault h => himp fault (hx fault h)

end FaultsIn

/-- A change that keeps every fault of a computation keeps the computation. -/
theorem mapError_eq_self {x : Except ε α} {k : ε → ε}
    (h : FaultsIn (fun fault => k fault = fault) x) : x.mapError k = x := by
  cases x with
  | error fault => exact congrArg Except.error (h fault rfl)
  | ok a => rfl

/-! ## Labelled faults -/

/-- A computation whose faults carry a label. -/
def label {σ : Type} (s : σ) (x : Except ε α) : Except (σ × ε) α :=
  x.mapError (Prod.mk s)

theorem mapError_label {σ : Type} (s : σ) (x : Except ε α) :
    (label s x).mapError Prod.snd = x := by
  cases x <;> rfl

theorem faultsIn_label {σ : Type} {kind : σ × ε → Prop} {s : σ}
    {x : Except ε α} (h : ∀ fault, x = .error fault → kind (s, fault)) :
    FaultsIn kind (label s x) := by
  intro fault hfault
  obtain ⟨cause, hcause, rfl⟩ := mapError_eq_error_iff.mp hfault
  exact h cause hcause

end FirebirdSchema.Traversal
