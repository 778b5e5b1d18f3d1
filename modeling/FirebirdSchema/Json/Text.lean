/-!
# Strings of JSON documents

A string is read as a sequence of units, each a character or half of a surrogate
pair that was written as an escape.  The units denote a text when the halves
come in pairs.
-/

namespace FirebirdSchema.Json

/-- A unit of a string. -/
inductive TextUnit
  | char (c : Char)
  /-- Half of a surrogate pair, by its code. -/
  | surrogate (code : Nat)
  deriving DecidableEq

/-- The unit that a four-digit escape writes. -/
def TextUnit.ofCode (code : Nat) : TextUnit :=
  if 0xD800 ≤ code ∧
    code ≤ 0xDFFF then surrogate code else char (Char.ofNat code)

/-- The characters that units denote, behind those already read in `before`,
which is reversed. -/
def joinUnits (before : List Char) : List TextUnit → Option (List Char)
  | [] => some before.reverse
  | .char c :: units => joinUnits (c :: before) units
  | .surrogate high :: .surrogate low :: units =>
    if high < 0xDC00 ∧ 0xDC00 ≤ low then
      joinUnits
        (Char.ofNat (0x10000 + (high - 0xD800) * 0x400 + (low - 0xDC00)) ::
          before) units
    else none
  | .surrogate _ :: _ => none

/-- The text that units denote. -/
def textOfUnits? (units : List TextUnit) : Option String :=
  (joinUnits [] units).map String.ofList

/-- The value of a hexadecimal digit. -/
def hexDigit? (c : Char) : Option Nat :=
  if c.isDigit then some (c.toNat - '0'.toNat)
  else if 'a' ≤ c ∧ c ≤ 'f' then some (c.toNat - 'a'.toNat + 10)
  else if 'A' ≤ c ∧ c ≤ 'F' then some (c.toNat - 'A'.toNat + 10)
  else none

/-- The value of four hexadecimal digits. -/
def hexCode? (a b c d : Char) : Option Nat := do
  return (((← hexDigit? a) * 16 + (← hexDigit? b)) * 16 +
    (← hexDigit? c)) * 16 + (← hexDigit? d)

/-- The character that a one-letter escape writes. -/
def escaped? : Char → Option Char
  | '"' => some '"'
  | '\\' => some '\\'
  | '/' => some '/'
  | 'b' => some '\x08'
  | 'f' => some '\x0C'
  | 'n' => some '\n'
  | 'r' => some '\r'
  | 't' => some '\t'
  | _ => none

/-- Reads a string up to the double quote that closes it.  The units already
read are in `before`, reversed; the result pairs all units with the text behind
the quote. -/
def scanUnits (before : List TextUnit) :
    List Char → Option (List TextUnit × List Char)
  | [] => none
  | '"' :: cs => some (before.reverse, cs)
  | '\\' :: 'u' :: a :: b :: c :: d :: cs =>
    match hexCode? a b c d with
    | some code => scanUnits (.ofCode code :: before) cs
    | none => none
  | '\\' :: e :: cs =>
    match escaped? e with
    | some c => scanUnits (.char c :: before) cs
    | none => none
  | c :: cs => if c = '\\' ∨
    c.toNat < 0x20 then none else scanUnits (.char c :: before) cs

theorem length_lt_of_scanUnits {before units : List TextUnit}
    {cs rest : List Char} (h : scanUnits before cs = some (units, rest)) :
    rest.length < cs.length := by
  fun_induction scanUnits before cs <;> simp_all <;> omega

end FirebirdSchema.Json
