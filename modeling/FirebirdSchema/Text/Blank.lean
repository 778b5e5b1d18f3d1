/-!
# Blank characters

The characters with the Unicode property `White_Space`, and the removal of blank
characters from both ends of a text.
-/

namespace FirebirdSchema.Text

/-- The code points of `White_Space`, as ranges with both ends included. -/
def blankRanges : List (Nat × Nat) :=
  [(0x0009, 0x000D), (0x0020, 0x0020), (0x0085, 0x0085), (0x00A0, 0x00A0),
    (0x1680, 0x1680), (0x2000, 0x200A), (0x2028, 0x2029), (0x202F, 0x202F),
    (0x205F, 0x205F), (0x3000, 0x3000)]

/-- Whether a character is blank. -/
def isBlank (c : Char) : Bool :=
  blankRanges.any fun range => range.1 ≤ c.toNat && c.toNat ≤ range.2

/-- A text without the blank characters at its two ends. -/
def trimBlank (cs : List Char) : List Char :=
  ((cs.dropWhile isBlank).reverse.dropWhile isBlank).reverse

/-- Leading blank characters do not count. -/
theorem trimBlank_cons_of_isBlank {c : Char} (h : isBlank c = true)
    (cs : List Char) :
    trimBlank (c :: cs) = trimBlank cs := by
  simp [trimBlank, h]

/-- Trailing blank characters do not count. -/
theorem trimBlank_append_of_isBlank {c : Char} (h : isBlank c = true)
    (cs : List Char) :
    trimBlank (cs ++ [c]) = trimBlank cs := by
  induction cs with
  | nil => simp [trimBlank, h]
  | cons d ds ih =>
      by_cases hd : isBlank d = true
      · simpa [trimBlank, hd] using ih
      · simp [trimBlank, hd, h]

/-- A text whose first and last characters are not blank is its own trimmed
form. -/
theorem trimBlank_eq_self {cs : List Char}
    (hfirst : ∀ c ∈ cs.head?, isBlank c = false)
    (hlast : ∀ c ∈ cs.getLast?, isBlank c = false) :
    trimBlank cs = cs := by
  have hdropWhile : ∀ ds : List Char, (∀ c ∈ ds.head?, isBlank c = false) →
      ds.dropWhile isBlank = ds := by
    intro ds hds
    cases ds with
    | nil => rfl
    | cons d ds => simp [hds d (by simp)]
  rw [trimBlank, hdropWhile cs hfirst,
    hdropWhile cs.reverse (by simpa using hlast), List.reverse_reverse]

end FirebirdSchema.Text
