import FirebirdSchema.Text.Blank
import FirebirdSchema.Text.Numeral
import Mathlib.Algebra.Group.Nat.Defs
import Mathlib.Data.List.DropRight

/-!
# Trimmed texts and numerals

What trimming leaves of a text, and which texts are numerals, described without
the functions that trim and read them.  The main statements are `isTrimmed_iff`,
`isNumeral_iff` and `natOfNumeral32?_padded`: a plus sign and zeros in front of
a digit do not change a number.
-/

namespace FirebirdSchema.Text

/-! ## Trimmed texts -/

/-- `body` is what is left of a text without the blank characters at its two
ends. -/
structure IsTrimmed (text body : List Char) : Prop where
  split : ∃ lead trail, text = lead ++ body ++ trail ∧
    (∀ c ∈ lead, isBlank c = true) ∧ ∀ c ∈ trail, isBlank c = true
  first : ∀ c ∈ body.head?, isBlank c = false
  last : ∀ c ∈ body.getLast?, isBlank c = false

theorem trimBlank_append_append {lead trail : List Char}
    (hlead : ∀ c ∈ lead, isBlank c = true)
    (htrail : ∀ c ∈ trail, isBlank c = true) (text : List Char) :
    trimBlank (lead ++ text ++ trail) = trimBlank text := by
  have htrimmed : trimBlank (text ++ trail) = trimBlank text := by
    induction trail using List.reverseRecOn with
    | nil => simp
    | append_singleton trail c ih =>
        rw [← List.append_assoc,
          trimBlank_append_of_isBlank (htrail c (by simp))]
        exact ih fun d hd => htrail d (by simp [hd])
  rw [List.append_assoc, ← htrimmed]
  induction lead with
  | nil => rfl
  | cons c lead ih =>
      rw [List.cons_append, trimBlank_cons_of_isBlank (hlead c (by simp))]
      exact ih fun d hd => hlead d (by simp [hd])

theorem trimBlank_eq_rdropWhile (text : List Char) :
    trimBlank text = (text.dropWhile isBlank).rdropWhile isBlank :=
  rfl

theorem isTrimmed_trimBlank (text : List Char) :
    IsTrimmed text (trimBlank text) where
  split := by
    refine ⟨text.takeWhile isBlank, (text.dropWhile isBlank).rtakeWhile isBlank,
      ?_, fun c hc => List.mem_takeWhile_imp hc,
      fun c hc => List.mem_rtakeWhile_imp hc⟩
    rw [List.append_assoc, trimBlank_eq_rdropWhile,
      List.rdropWhile_append_rtakeWhile, List.takeWhile_append_dropWhile]
  first := by
    intro c hc
    obtain ⟨trail, htrail⟩ :=
      List.rdropWhile_prefix isBlank (text.dropWhile isBlank)
    have hopens : (text.dropWhile isBlank).head? = some c := by
      rw [← htrail, List.head?_append, ← trimBlank_eq_rdropWhile,
        Option.mem_def.mp hc]
      rfl
    simpa [hopens] using List.head?_dropWhile_not isBlank text
  last := by
    intro c hc
    obtain ⟨hne, rfl⟩ := List.mem_getLast?_eq_getLast hc
    exact Bool.eq_false_iff.mpr
      (List.rdropWhile_last_not isBlank (text.dropWhile isBlank) hne)

theorem isTrimmed_iff {text body : List Char} :
    IsTrimmed text body ↔ trimBlank text = body := by
  constructor
  · rintro ⟨⟨lead, trail, rfl, hlead, htrail⟩, hfirst, hlast⟩
    rw [trimBlank_append_append hlead htrail, trimBlank_eq_self hfirst hlast]
  · rintro rfl
    exact isTrimmed_trimBlank text

theorem isBlank_point : isBlank '.' = false := by
  decide

theorem isBlank_of_isDigit {c : Char} (h : c.isDigit = true) :
    isBlank c = false := by
  have hbounds : 48 ≤ c.toNat ∧ c.toNat ≤ 57 := Char.isDigit_iff_toNat.mp h
  simp only [isBlank, blankRanges, List.any_cons, List.any_nil, Bool.or_false]
  grind

theorem dropWhile_append_cons {p : Char → Bool} {c : Char} (hc : p c = false)
    (front back : List Char) :
    (front ++ c :: back).dropWhile p = front.dropWhile p ++ c :: back := by
  rw [List.dropWhile_append]
  split
  · next h => simp [List.isEmpty_iff.mp h, hc]
  · rfl

/-- Trimming works on both sides of a character that is not blank. -/
theorem trimBlank_append_cons {c : Char} (hc : isBlank c = false)
    (front back : List Char) :
    trimBlank (front ++ c :: back) =
      front.dropWhile isBlank ++ c :: back.rdropWhile isBlank := by
  rw [trimBlank, dropWhile_append_cons hc, List.reverse_append,
    List.reverse_cons, List.append_assoc, List.singleton_append,
    dropWhile_append_cons hc]
  simp [List.rdropWhile]

/-! ## Numerals -/

/-- A nonempty run of digits and its value, read from left to right. -/
inductive IsDigits : List Char → Nat → Prop
  | digit {c : Char} (hc : c.isDigit = true) : IsDigits [c]
    (c.toNat - '0'.toNat)
  | concat {cs : List Char} {n : Nat} {c : Char} (h : IsDigits cs n)
    (hc : c.isDigit = true) :
    IsDigits (cs ++ [c]) (10 * n + (c.toNat - '0'.toNat))

/-- Digits behind at most one plus sign, with their value. -/
inductive IsNumeral : List Char → Nat → Prop
  | plain {cs : List Char} {n : Nat} (h : IsDigits cs n) : IsNumeral cs n
  | plus {cs : List Char} {n : Nat} (h : IsDigits cs n) : IsNumeral
    ('+' :: cs) n

theorem isDigits_ofDigitChars {cs : List Char} (hne : cs ≠ [])
    (hdigits : ∀ c ∈ cs, c.isDigit = true) :
    IsDigits cs (Nat.ofDigitChars 10 cs 0) := by
  induction cs using List.reverseRecOn with
  | nil => exact absurd rfl hne
  | append_singleton cs c ih =>
      have hc : c.isDigit = true := hdigits c (by simp)
      rw [Nat.ofDigitChars_append, Nat.ofDigitChars_cons, Nat.ofDigitChars_nil]
      by_cases hcs : cs = []
      · subst hcs
        simpa using IsDigits.digit hc
      · exact .concat (ih hcs fun d hd => hdigits d (by simp [hd])) hc

theorem natOfDigits?_eq_some_iff {cs : List Char} {n : Nat} :
    natOfDigits? cs = some n ↔ IsDigits cs n := by
  constructor
  · intro h
    rw [natOfDigits?, Option.ite_none_right_eq_some] at h
    obtain ⟨⟨hne, hdigits⟩, hvalue⟩ := h
    rw [← Option.some.inj hvalue]
    exact isDigits_ofDigitChars hne (List.all_eq_true.mp hdigits)
  · intro h
    induction h with
    | digit hc => simp [natOfDigits?, hc, Nat.ofDigitChars_cons]
    | concat _ hc ih =>
        rw [natOfDigits?, Option.ite_none_right_eq_some] at ih ⊢
        obtain ⟨⟨-, hdigits⟩, hvalue⟩ := ih
        refine ⟨⟨by simp, by simpa [hc] using hdigits⟩, ?_⟩
        rw [Nat.ofDigitChars_append, Option.some.inj hvalue,
          Nat.ofDigitChars_cons, Nat.ofDigitChars_nil]

theorem IsDigits.isDigit {cs : List Char} {n : Nat} (h : IsDigits cs n) :
    ∀ c ∈ cs, c.isDigit = true := by
  induction h with
  | digit hc => simpa using hc
  | concat _ hc ih =>
      intro d hd
      rcases List.mem_append.mp hd with hd | hd
      · exact ih d hd
      · rwa [List.mem_singleton.mp hd]

theorem dropPlus_of_head?_ne {cs : List Char} (h : cs.head? ≠ some '+') :
    dropPlus cs = cs := by
  cases cs with
  | nil => rfl
  | cons c cs =>
      have hc : c ≠ '+' := by simpa using h
      simp [dropPlus, hc]

theorem isNumeral_iff {cs : List Char} {n : Nat} :
    IsNumeral cs n ↔ natOfDigits? (dropPlus cs) = some n := by
  rw [natOfDigits?_eq_some_iff]
  constructor
  · rintro (h | h)
    · rwa [dropPlus_of_head?_ne]
      intro hplus
      exact absurd (h.isDigit '+' (List.mem_of_mem_head? hplus)) (by decide)
    · exact h
  · intro h
    by_cases hplus : cs.head? = some '+'
    · obtain ⟨ds, rfl⟩ := List.head?_eq_some_iff.mp hplus
      exact .plus h
    · rw [dropPlus_of_head?_ne hplus] at h
      exact .plain h

theorem natOfNumeral32?_eq_some_iff_isNumeral {cs : List Char} {n : Nat} :
    natOfNumeral32? cs = some n ↔ IsNumeral cs n ∧ n < 2 ^ 32 := by
  have hsize : UInt32.size = 2 ^ 32 := rfl
  rw [natOfNumeral32?_eq_some_iff, isNumeral_iff, hsize]

/-- A number that does not fit in 32 bits is refused. -/
theorem IsNumeral.natOfNumeral32?_eq_none {cs : List Char} {n : Nat}
    (h : IsNumeral cs n) (hn : 2 ^ 32 ≤ n) : natOfNumeral32? cs = none := by
  rw [natOfNumeral32?, isNumeral_iff.mp h]
  simpa [UInt32.size] using hn

theorem IsNumeral.point_not_mem {cs : List Char} {n : Nat}
    (h : IsNumeral cs n) : '.' ∉ cs := by
  intro hpoint
  rcases h with h | h
  · exact absurd (h.isDigit '.' hpoint) (by decide)
  · exact absurd (h.isDigit '.' (by simpa using hpoint)) (by decide)

/-- The characters that a number may be padded with: at most one plus sign, and
then zeros. -/
def IsPadding (pad : List Char) : Prop :=
  ∃ plus zeros, pad = plus ++ zeros ∧ (plus = [] ∨ plus = ['+']) ∧
    ∀ c ∈ zeros, c = '0'

theorem IsPadding.eq_or_eq {pad : List Char} (h : IsPadding pad) :
    ∀ c ∈ pad, c = '+' ∨ c = '0' := by
  obtain ⟨plus, zeros, rfl, hplus, hzeros⟩ := h
  intro c hc
  rcases List.mem_append.mp hc with hc | hc
  · rcases hplus with rfl | rfl
    · exact absurd hc List.not_mem_nil
    · exact .inl (by simpa using hc)
  · exact .inr (hzeros c hc)

theorem IsPadding.dropWhile_isBlank {pad : List Char} (hpad : IsPadding pad) :
    pad.dropWhile isBlank = pad := by
  cases pad with
  | nil => rfl
  | cons c pad =>
      have hc : isBlank c = false := by
        rcases hpad.eq_or_eq c (by simp) with rfl | rfl <;> decide
      simp [hc]

theorem head?_ne_plus_of_isDigit {cs : List Char}
    (h : ∃ c ∈ cs.head?, c.isDigit = true) :
    cs.head? ≠ some '+' := by
  intro hplus
  obtain ⟨c, hc, hdigit⟩ := h
  obtain rfl : '+' = c := Option.some.inj (hplus.symm.trans hc)
  exact absurd hdigit (by decide)

theorem natOfDigits?_zeros_append {zeros : List Char}
    (hzeros : ∀ c ∈ zeros, c = '0') {cs : List Char} (hcs : cs ≠ []) :
    natOfDigits? (zeros ++ cs) = natOfDigits? cs := by
  induction zeros with
  | nil => rfl
  | cons c zeros ih =>
      obtain rfl : c = '0' := hzeros c (by simp)
      rw [← ih fun c hc => hzeros c (by simp [hc])]
      simp [natOfDigits?, Nat.ofDigitChars_cons, hcs]

/-- Padding in front of a digit does not change the value of a numeral. -/
theorem natOfNumeral32?_padded {pad : List Char} (hpad : IsPadding pad)
    {d : Char} (hd : d.isDigit = true) (cs : List Char) :
    natOfNumeral32? (pad ++ d :: cs) = natOfNumeral32? (d :: cs) := by
  obtain ⟨plus, zeros, rfl, hplus, hzeros⟩ := hpad
  have hdropPlus : dropPlus (plus ++ zeros ++ d :: cs) = zeros ++ d :: cs := by
    rcases hplus with rfl | rfl
    · refine dropPlus_of_head?_ne (head?_ne_plus_of_isDigit ?_)
      cases zeros with
      | nil => exact ⟨d, rfl, hd⟩
      | cons c zeros => exact ⟨c, rfl, by rw [hzeros c (by simp)]; decide⟩
    · rfl
  have hplain : dropPlus (d :: cs) = d :: cs :=
    dropPlus_of_head?_ne (head?_ne_plus_of_isDigit ⟨d, rfl, hd⟩)
  rw [natOfNumeral32?, natOfNumeral32?, hdropPlus, hplain,
    natOfDigits?_zeros_append hzeros (List.cons_ne_nil d cs)]

end FirebirdSchema.Text
