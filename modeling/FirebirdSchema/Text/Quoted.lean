/-!
# Quoted identifiers

A quoted identifier is its name between double quotes, with every double quote
of the name written twice.  `Quoted.scan` reads one quoted identifier from the
front of a text, and `Quoted.scan_encode` states that it stops exactly where
`Quoted.encode` stopped.
-/

namespace FirebirdSchema.Text.Quoted

/-- A name with every double quote written twice. -/
def double : List Char → List Char
  | [] => []
  | c :: cs => if c = '"' then '"' :: '"' :: double cs else c :: double cs

/-- A name between double quotes. -/
def encode (name : List Char) : List Char :=
  '"' :: double name ++ ['"']

/-- Reads a name up to the double quote that closes it; the result pairs the
name with the text behind that quote. -/
def scanBody : List Char → Option (List Char × List Char)
  | [] => none
  | ['"'] => some ([], [])
  | '"' :: c :: cs =>
    if c = '"' then (scanBody cs).map fun (name, rest) => ('"' :: name, rest)
    else some ([], c :: cs)
  | c :: cs => (scanBody cs).map fun (name, rest) => (c :: name, rest)

/-- Reads one quoted identifier from the front of a text. -/
def scan : List Char → Option (List Char × List Char)
  | '"' :: cs => scanBody cs
  | _ => none

/-- The quoted form of a name. -/
def quote (name : String) : String :=
  String.ofList (encode name.toList)

@[simp] theorem toList_quote (name : String) :
    (quote name).toList = encode name.toList := by
  simp [quote]

theorem scanBody_double_append (name rest : List Char)
    (h : rest.head? ≠ some '"') :
    scanBody (double name ++ '"' :: rest) = some (name, rest) := by
  induction name with
  | nil =>
      cases rest with
      | nil => simp [double, scanBody]
      | cons c cs =>
          have hc : c ≠ '"' := by simpa using h
          simp [double, scanBody, hc]
  | cons c cs ih =>
      by_cases hc : c = '"'
      · simp [double, scanBody, hc, ih]
      · simp [double, scanBody, hc, ih]

/-- The quoted form of a name reads back as the name, whatever text follows,
unless that text opens with a further double quote. -/
theorem scan_encode (name rest : List Char) (h : rest.head? ≠ some '"') :
    scan (encode name ++ rest) = some (name, rest) := by
  simpa [encode, scan] using scanBody_double_append name rest h

end FirebirdSchema.Text.Quoted
