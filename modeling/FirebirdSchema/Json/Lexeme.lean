import FirebirdSchema.Json.Text
import FirebirdSchema.Json.Value
import FirebirdSchema.Text.Numeral

/-!
# Lexemes of JSON documents

The lexemes into which a document is cut.  Between lexemes stand blank
characters, which for JSON are the space, the tabulator and the two characters
that end lines.
-/

namespace FirebirdSchema.Json

/-- A lexeme of a document. -/
inductive Lexeme
  | arrayOpen
  | arrayClose
  | objectOpen
  | objectClose
  | comma
  | colon
  /-- A string, or `none` when it denotes no text. -/
  | text (s : Option String)
  /-- A number or a literal name. -/
  | scalar (value : Json)

/-- Whether a character may stand between lexemes. -/
def isBlank (c : Char) : Bool :=
  c = ' ' || c = '\t' || c = '\n' || c = '\r'

/-- Whether a character may occur in a number. -/
def isNumberChar (c : Char) : Bool :=
  c.isDigit || c = '-' || c = '+' || c = '.' || c = 'e' || c = 'E'

/-- Whether a text is a nonempty run of digits. -/
def isDigits (cs : List Char) : Bool :=
  !cs.isEmpty && cs.all Char.isDigit

/-- Whether a text is empty or the exponent of a number. -/
def isExponent : List Char → Bool
  | [] => true
  | e :: '+' :: cs => (e = 'e' || e = 'E') && isDigits cs
  | e :: '-' :: cs => (e = 'e' || e = 'E') && isDigits cs
  | e :: cs => (e = 'e' || e = 'E') && isDigits cs

/-- Whether a text may follow the integral digits of a number: a fraction, an
exponent, one after the other, or nothing. -/
def isFractionExponent : List Char → Bool
  | '.' :: cs => isDigits (cs.takeWhile Char.isDigit) &&
    isExponent (cs.dropWhile Char.isDigit)
  | cs => isExponent cs

/-- The number whose parts are given: a minus sign or nothing, the integral
digits, and the text behind them.  Digits that open with a superfluous zero
write no number. -/
def numberOfParts? (sign digits rest : List Char) : Option Json :=
  match Text.natOfDigits? digits with
  | none => none
  | some n =>
    if digits.head? = some '0' ∧ digits ≠ ['0'] then none
    else if rest = [] ∧ sign = [] then some (.int n)
    else if rest = [] ∧ n ≠ 0 then some (.int (-n))
    else if isFractionExponent rest then some
      (.decimal (String.ofList (sign ++ digits ++ rest)))
    else none

/-- The number that a text writes. -/
def number? : List Char → Option Json
  | '-' :: cs =>
    numberOfParts? ['-'] (cs.takeWhile Char.isDigit) (cs.dropWhile Char.isDigit)
  | cs => numberOfParts? [] (cs.takeWhile Char.isDigit)
    (cs.dropWhile Char.isDigit)

/-- Reads one lexeme from the front of a text that does not open with a blank
character. -/
def Lexeme.next? : List Char → Option (Lexeme × List Char)
  | '[' :: cs => some (arrayOpen, cs)
  | ']' :: cs => some (arrayClose, cs)
  | '{' :: cs => some (objectOpen, cs)
  | '}' :: cs => some (objectClose, cs)
  | ',' :: cs => some (comma, cs)
  | ':' :: cs => some (colon, cs)
  | 'n' :: 'u' :: 'l' :: 'l' :: cs => some (scalar .null, cs)
  | 't' :: 'r' :: 'u' :: 'e' :: cs => some (scalar (.bool true), cs)
  | 'f' :: 'a' :: 'l' :: 's' :: 'e' :: cs => some (scalar (.bool false), cs)
  | '"' :: cs => (scanUnits [] cs).map fun (units, rest) =>
    (text (textOfUnits? units), rest)
  | cs =>
    (number? (cs.takeWhile isNumberChar)).map fun value =>
      (scalar value, cs.dropWhile isNumberChar)

theorem number?_nil : number? [] = none := rfl

theorem length_dropWhile_lt {cs : List Char} {p : Char → Bool}
    (h : cs.takeWhile p ≠ []) :
    (cs.dropWhile p).length < cs.length := by
  have hsplit : (cs.takeWhile p).length + (cs.dropWhile p).length =
      cs.length := by
    rw [← List.length_append, List.takeWhile_append_dropWhile]
  have hpositive : 0 < (cs.takeWhile p).length := List.length_pos_iff.mpr h
  omega

theorem Lexeme.length_lt_of_next? {cs rest : List Char} {l : Lexeme}
    (h : next? cs = some (l, rest)) : rest.length < cs.length := by
  unfold next? at h
  split at h <;> simp only [Option.some.injEq, Prod.mk.injEq,
    Option.map_eq_some_iff] at h
  all_goals try
    obtain ⟨-, rfl⟩ := h
    simp
    try omega
  · obtain ⟨⟨units, rest'⟩, hscanned, -, rfl⟩ := h
    have hshorter := length_lt_of_scanUnits hscanned
    simp only [List.length_cons]
    omega
  · obtain ⟨value, hwritten, -, rfl⟩ := h
    apply length_dropWhile_lt
    intro hempty
    rw [hempty, number?_nil] at hwritten
    simp at hwritten

/-- The lexemes of a text, behind those already read in `before`, which is
reversed. -/
def lexemesFrom (before : List Lexeme) : List Char → Option (List Lexeme)
  | [] => some before.reverse
  | c :: cs =>
    if isBlank c then lexemesFrom before cs
    else
      match _next : Lexeme.next? (c :: cs) with
      | none => none
      | some (l, rest) => lexemesFrom (l :: before) rest
termination_by cs => cs.length
decreasing_by
  · simp
  · exact Lexeme.length_lt_of_next? ‹_›

/-- The lexemes of a text. -/
def lexemes? (cs : List Char) : Option (List Lexeme) :=
  lexemesFrom [] cs

end FirebirdSchema.Json
