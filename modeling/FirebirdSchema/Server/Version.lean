import FirebirdSchema.Text.Blank
import FirebirdSchema.Text.Named
import FirebirdSchema.Text.Numeral

/-!
# Server versions

The Firebird servers that a script can be written for, the manifest tokens that
name them, and the limits in which they differ.
-/

namespace FirebirdSchema

/-- A Firebird server, by the oldest version whose rules it follows. -/
inductive ServerVersion
  | firebird25
  | firebird3
  | firebird4
  deriving DecidableEq

instance : Text.Named ServerVersion where
  values := [.firebird25, .firebird3, .firebird4]
  name
    | .firebird25 => "Firebird25"
    | .firebird3 => "Firebird3"
    | .firebird4 => "Firebird4"
  find?_name v := by cases v <;> rfl

namespace ServerVersion

/-- The position of a server among the supported ones, oldest first. -/
def rank : ServerVersion → Nat
  | firebird25 => 0
  | firebird3 => 1
  | firebird4 => 2

instance : LE ServerVersion where
  le v w := v.rank ≤ w.rank

instance (v w : ServerVersion) : Decidable (v ≤ w) :=
  inferInstanceAs (Decidable (v.rank ≤ w.rank))

theorem le_iff_rank_le {v w : ServerVersion} : v ≤ w ↔ v.rank ≤ w.rank :=
  Iff.rfl

/-- The newest supported server that is not newer than a version number. -/
def ofNumbers? (major minor : Nat) : Option ServerVersion :=
  if major < 2 ∨ major = 2 ∧ minor < 5 then none
  else if major = 2 then some firebird25
  else if major = 3 then some firebird3
  else some firebird4

/-- The server that a manifest token names.  A token is a major number, followed
by a point and a minor number unless that is zero; a second point and what
follows it are ignored, and so are blank characters at both ends. -/
def ofToken? (token : String) : Option ServerVersion :=
  match (Text.trimBlank token.toList).splitOn '.' with
  | [] => none
  | [major] => do
    ofNumbers? (← Text.natOfNumeral32? major) 0
  | major :: minor :: _ => do
    ofNumbers? (← Text.natOfNumeral32? major) (← Text.natOfNumeral32? minor)

/-- The longest identifier that a server accepts, in the unit of
`nameLength`. -/
def identifierLimit : ServerVersion → Nat
  | firebird25 => 31
  | firebird3 => 31
  | firebird4 => 63

/-- The length of a name in the unit that a server counts: bytes of its UTF-8
form before version 4, characters from version 4 on. -/
def nameLength : ServerVersion → String → Nat
  | firebird25, name => name.utf8ByteSize
  | firebird3, name => name.utf8ByteSize
  | firebird4, name => name.length

theorem nameLength_eq (v : ServerVersion) (name : String) :
    v.nameLength name =
      if v = .firebird4 then name.length else name.utf8ByteSize := by
  cases v <;> rfl

/-- The greatest precision of a decimal column. -/
def decimalLimit : ServerVersion → UInt8
  | firebird25 => 18
  | firebird3 => 18
  | firebird4 => 38

end ServerVersion

end FirebirdSchema
