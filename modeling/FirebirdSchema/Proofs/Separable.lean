import FirebirdSchema.Proofs.Characters
import FirebirdSchema.Text.Numeral

/-!
# Separable codes

A code is separable when a text that begins with the code of a value determines
both the value and the text behind its code.  Names between double quotes,
numerals, column types and markers are separable as long as the text behind them
cannot continue them, and so are lists of separable codes.
-/

namespace FirebirdSchema

variable {α β : Type}

/-- A text that begins with a code determines the value and the rest of the
text, provided that the rest lies in `follow`. -/
def Separable (code : α → List Char) (follow : List Char → Prop) : Prop :=
  ∀ ⦃a b : α⦄ ⦃rest rest' : List Char⦄, follow rest → follow rest' →
    code a ++ rest = code b ++ rest' → a = b ∧ rest = rest'

namespace Separable

variable {code : α → List Char} {follow stop : List Char → Prop}

theorem append_left (h : Separable code follow) (lead : List Char) :
    Separable (fun a => lead ++ code a) follow := by
  intro a b rest rest' hrest hrest' heq
  rw [List.append_assoc, List.append_assoc] at heq
  exact h hrest hrest' (List.append_cancel_left heq)

/-- Codes one after another, up to a text that cannot begin with a further
code. -/
theorem flatMap (h : Separable code follow)
    (hnext : ∀ a rest, follow (code a ++ rest))
    (hstop : ∀ rest, stop rest → follow rest)
    (hlast : ∀ a rest, ¬stop (code a ++ rest)) :
    Separable (List.flatMap code) stop := by
  intro xs
  induction xs with
  | nil =>
      intro ys rest rest' hrest hrest' heq
      cases ys with
      | nil => exact ⟨rfl, heq⟩
      | cons y ys =>
          rw [List.flatMap_nil, List.nil_append, List.flatMap_cons,
            List.append_assoc] at heq
          exact absurd (heq ▸ hrest) (hlast y _)
  | cons x xs ih =>
      intro ys rest rest' hrest hrest' heq
      cases ys with
      | nil =>
          rw [List.flatMap_nil, List.nil_append, List.flatMap_cons,
            List.append_assoc] at heq
          exact absurd (heq.symm ▸ hrest') (hlast x _)
      | cons y ys =>
          rw [List.flatMap_cons, List.flatMap_cons, List.append_assoc,
            List.append_assoc] at heq
          obtain ⟨hxy, htail⟩ := h (follow_flatMap_append hnext hstop xs hrest)
            (follow_flatMap_append hnext hstop ys hrest') heq
          obtain ⟨hxsys, hrests⟩ := ih hrest hrest' htail
          exact ⟨by rw [hxy, hxsys], hrests⟩

/-- Codes with separators between them, up to a text that begins neither with a
code nor with a separator and a code. -/
theorem separated {separator : List Char} (h : Separable code follow)
    (hnext : ∀ a rest, follow (separator ++ code a ++ rest))
    (hstop : ∀ rest, stop rest → follow rest)
    (hfirst : ∀ a rest, ¬stop (code a ++ rest))
    (hlast : ∀ a rest, ¬stop (separator ++ code a ++ rest)) :
    Separable (FirebirdSchema.separated separator code) stop := by
  have htails : Separable (List.flatMap fun x => separator ++ code x) stop :=
    (h.append_left separator).flatMap hnext hstop hlast
  intro xs ys rest rest' hrest hrest' heq
  cases xs with
  | nil =>
      cases ys with
      | nil => exact ⟨rfl, heq⟩
      | cons y ys =>
          rw [FirebirdSchema.separated, FirebirdSchema.separated,
            List.nil_append, List.append_assoc] at heq
          exact absurd (heq ▸ hrest) (hfirst y _)
  | cons x xs =>
      cases ys with
      | nil =>
          rw [FirebirdSchema.separated, FirebirdSchema.separated,
            List.nil_append, List.append_assoc] at heq
          exact absurd (heq.symm ▸ hrest') (hfirst x _)
      | cons y ys =>
          rw [FirebirdSchema.separated, FirebirdSchema.separated,
            List.append_assoc, List.append_assoc] at heq
          obtain ⟨hxy, htail⟩ := h (follow_flatMap_append hnext hstop xs hrest)
            (follow_flatMap_append hnext hstop ys hrest') heq
          obtain ⟨hxsys, hrests⟩ := htails hrest hrest' htail
          exact ⟨by rw [hxy, hxsys], hrests⟩

end Separable

/-! ## Quoted names -/

/-- A double quote behind a quoted name would continue the name. -/
theorem separable_quotedChars :
    Separable quotedChars fun rest => rest.head? ≠ some '"' := by
  intro name name' rest rest' hrest hrest' heq
  have hscan := Text.Quoted.scan_encode name.toList rest hrest
  have hscan' := Text.Quoted.scan_encode name'.toList rest' hrest'
  unfold quotedChars at heq
  rw [heq, hscan'] at hscan
  obtain ⟨hnames, hrests⟩ := Prod.mk.inj (Option.some.inj hscan)
  exact ⟨(String.toList_inj.mp hnames).symm, hrests.symm⟩

theorem separable_quotedListChars :
    Separable quotedListChars fun rest => rest.head? = some ')' := by
  have hhead : ∀ name rest, (quotedChars name ++ rest).head? = some '"' := by
    intro name rest
    rfl
  apply separable_quotedChars.separated
  · intro name rest
    simp
  · intro rest hrest
    simp [hrest]
  · intro name rest
    simp [hhead]
  · intro name rest
    simp

/-! ## Numerals -/

/-- A digit behind a numeral would continue the numeral. -/
theorem separable_toDigits :
    Separable (Nat.toDigits 10) fun rest => ∀ c ∈ rest.head?,
      c.isDigit = false := by
  have hdigits : ∀ n, ∀ c ∈ Nat.toDigits 10 n, c.isDigit = true := by
    intro n c hc
    exact Nat.isDigit_of_mem_toDigits (by decide) (by decide) hc
  have htake : ∀ n rest, (∀ c ∈ rest.head?, c.isDigit = false) →
      (Nat.toDigits 10 n ++ rest).takeWhile Char.isDigit =
        Nat.toDigits 10 n := by
    intro n rest hrest
    rw [List.takeWhile_append_of_pos (hdigits n)]
    cases rest with
    | nil => simp
    | cons c cs => simp [hrest c rfl]
  intro m n rest rest' hrest hrest' heq
  have hsame : Nat.toDigits 10 m = Nat.toDigits 10 n := by
    rw [← htake m rest hrest, heq, htake n rest' hrest']
  have hvalue := Text.natOfDigits?_toDigits m
  rw [hsame, Text.natOfDigits?_toDigits] at hvalue
  rw [hsame] at heq
  exact ⟨(Option.some.inj hvalue).symm, List.append_cancel_left heq⟩

end FirebirdSchema
