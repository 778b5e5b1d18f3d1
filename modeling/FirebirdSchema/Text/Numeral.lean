/-!
# Numerals

Decimal numerals for natural numbers: runs of ASCII digits, and 32-bit numerals
with an optional plus sign.
-/

namespace FirebirdSchema.Text

/-- The value of a nonempty run of ASCII digits.  Leading zeros are allowed. -/
def natOfDigits? (cs : List Char) : Option Nat :=
  if cs ≠ [] ∧ cs.all Char.isDigit then some (Nat.ofDigitChars 10 cs 0)
    else none

/-- A text without its first character, when that is a plus sign. -/
def dropPlus : List Char → List Char
  | '+' :: cs => cs
  | cs => cs

/-- The value of a 32-bit numeral: digits after at most one plus sign, below
`2 ^ 32`. -/
def natOfNumeral32? (cs : List Char) : Option Nat :=
  (natOfDigits? (dropPlus cs)).filter (· < UInt32.size)

theorem natOfDigits?_toDigits (n : Nat) :
    natOfDigits? (Nat.toDigits 10 n) = some n := by
  have hdigits : ∀ c ∈ Nat.toDigits 10 n, c.isDigit = true :=
    fun c hc => Nat.isDigit_of_mem_toDigits (by decide) (by decide) hc
  rw [natOfDigits?, if_pos ⟨Nat.toDigits_ne_nil, List.all_eq_true.mpr hdigits⟩,
    Nat.ofDigitChars_toDigits (by decide) (by decide)]

theorem natOfNumeral32?_eq_some_iff {cs : List Char} {n : Nat} :
    natOfNumeral32? cs = some n ↔
      natOfDigits? (dropPlus cs) = some n ∧ n < UInt32.size := by
  simp [natOfNumeral32?, Option.filter_eq_some_iff]

end FirebirdSchema.Text
