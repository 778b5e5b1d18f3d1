import FirebirdSchema.Proofs.Content
import FirebirdSchema.Proofs.Separable

/-!
# Quoted names

Which names a Firebird server quotes, and what can be read back from quoted
names.

The scanner of `Text.Quoted` is the inverse of quoting on every text: it accepts
exactly the quoted names that no further double quote follows
(`scan_eq_some_iff`).  A quoted name therefore marks its own end, and a list of
quoted names is determined by its text, whatever quotes and commas the names
contain.
-/

namespace FirebirdSchema

namespace Text.Quoted

/-- What the scanner reads is a name with its double quotes doubled, up to a
single double quote. -/
theorem eq_of_scanBody {cs name rest : List Char}
    (h : scanBody cs = some (name, rest)) :
    cs = double name ++ '"' :: rest ∧ rest.head? ≠ some '"' := by
  fun_induction scanBody cs generalizing name with
  | case1 => cases h
  | case2 =>
      obtain ⟨rfl, rfl⟩ := Prod.mk.inj (Option.some.inj h)
      exact ⟨rfl, by simp⟩
  | case3 cs ih =>
      obtain ⟨⟨tail, rest'⟩, hscan, hpair⟩ := Option.map_eq_some_iff.mp h
      obtain ⟨rfl, rfl⟩ := Prod.mk.inj hpair
      obtain ⟨rfl, hrest⟩ := ih hscan
      exact ⟨by simp [double], hrest⟩
  | case4 c cs hc =>
      obtain ⟨rfl, rfl⟩ := Prod.mk.inj (Option.some.inj h)
      exact ⟨rfl, by simpa using hc⟩
  | case5 c cs halone hfollowed ih =>
      have hplain : c ≠ '"' := by
        intro hc
        cases cs with
        | nil => exact halone hc rfl
        | cons d ds => exact hfollowed d ds hc rfl
      obtain ⟨⟨tail, rest'⟩, hscan, hpair⟩ := Option.map_eq_some_iff.mp h
      obtain ⟨rfl, rfl⟩ := Prod.mk.inj hpair
      obtain ⟨rfl, hrest⟩ := ih hscan
      exact ⟨by simp [double, hplain], hrest⟩

/-- The scanner reads a text as a name exactly when the text is the quoted name,
and then the rest with no double quote in front. -/
theorem scan_eq_some_iff {cs name rest : List Char} :
    scan cs = some (name, rest) ↔
      cs = encode name ++ rest ∧ rest.head? ≠ some '"' := by
  constructor
  · intro h
    by_cases hopens : cs.head? = some '"'
    · obtain ⟨body, rfl⟩ := List.head?_eq_some_iff.mp hopens
      obtain ⟨rfl, hrest⟩ := eq_of_scanBody h
      exact ⟨by simp [encode], hrest⟩
    · cases cs with
      | nil => cases h
      | cons c cs =>
          have hplain : c ≠ '"' := by simpa using hopens
          simp [scan, hplain] at h
  · rintro ⟨rfl, hrest⟩
    exact scan_encode name rest hrest

end Text.Quoted

/-! ## Names -/

namespace Firebird

variable {f : Firebird}

/-- The two reasons against a name: it has no characters, or it has too many in
the unit of the server. -/
theorem quote_eq_error_iff {name : String} {fault : Fault} :
    f.quote name = .error fault ↔
      name = "" ∧ fault = .emptyIdentifier ∨
      name ≠ "" ∧ f.identifierLimit < f.version.nameLength name ∧
        fault = .identifierTooLong name f.identifierLimit := by
  by_cases hempty : name = ""
  · simp [quote, hempty, eq_comm]
  by_cases hlong : f.identifierLimit < f.version.nameLength name
  · simp [quote, hempty, hlong, eq_comm]
  · simp [quote, hempty, hlong]

theorem quote_eq_emptyIdentifier_iff {name : String} :
    f.quote name = .error .emptyIdentifier ↔ name = "" := by
  simp [quote_eq_error_iff]

theorem quote_eq_identifierTooLong_iff {name long : String} {limit : Nat} :
    f.quote name = .error (.identifierTooLong long limit) ↔
      (long = name ∧ limit = f.identifierLimit) ∧
        name ≠ "" ∧ f.identifierLimit < f.version.nameLength name := by
  rw [quote_eq_error_iff]
  constructor
  · rintro (⟨-, hfault⟩ | ⟨hnonempty, hexceeds, hfault⟩)
    · exact absurd hfault (by simp)
    · exact ⟨by simpa using hfault, hnonempty, hexceeds⟩
  · rintro ⟨⟨rfl, rfl⟩, hnonempty, hexceeds⟩
    exact .inr ⟨hnonempty, hexceeds, rfl⟩

theorem scan_quote_append {name text : String} (h : f.quote name = .ok text)
    (rest : String) (hrest : rest.toList.head? ≠ some '"') :
    Text.Quoted.scan (text ++ rest).toList =
      some (name.toList, rest.toList) := by
  obtain ⟨-, -, rfl⟩ := quote_eq_ok_iff.mp h
  rw [String.toList_append, Text.Quoted.toList_quote]
  exact Text.Quoted.scan_eq_some_iff.mpr ⟨rfl, hrest⟩

/-! ## Lists of names -/

theorem toList_identifiers_of_mapM {names : List String} {is : List Identifier}
    (h : names.mapM f.dialect.identifier = .ok is) :
    (Layout.identifiers is).toList = quotedListChars names := by
  rw [← eq_map_quoted_of_mapM h, Layout.toList_identifiers]

/-- Two lists of names that open the same text, up to a closing bracket, are
equal. -/
theorem eq_of_identifiers_append {names names' : List String}
    {is is' : List Identifier} (h : names.mapM f.dialect.identifier = .ok is)
    (h' : names'.mapM f.dialect.identifier = .ok is') {rest rest' : String}
    (hrest : rest.toList.head? = some ')')
    (hrest' : rest'.toList.head? = some ')')
    (heq : Layout.identifiers is ++ rest = Layout.identifiers is' ++ rest') :
    names = names' ∧ rest = rest' := by
  have hchars : quotedListChars names ++ rest.toList =
      quotedListChars names' ++ rest'.toList := by
    rw [← toList_identifiers_of_mapM h, ← toList_identifiers_of_mapM h',
      ← String.toList_append, ← String.toList_append, heq]
  obtain ⟨hnames, hrests⟩ := separable_quotedListChars hrest hrest' hchars
  exact ⟨hnames, String.toList_inj.mp hrests⟩

/-- Quoting refuses exactly the empty name and the names over the limit, counted
without the quotes in characters from version 4 on and in bytes before; every
other name can be read back from its quoted form, whatever follows it without a
double quote in front; and the text of a list of names determines the list and
its own end. -/
theorem quote_lossless_and_bounded (f : Firebird) :
    (∀ name, f.dialect.quote name = .error .emptyIdentifier ↔ name = "") ∧
    (∀ name long limit,
      f.dialect.quote name = .error (.identifierTooLong long limit) ↔
      (long = name ∧ limit = f.identifierLimit) ∧ name ≠ "" ∧
        f.identifierLimit <
          if f.version = .firebird4 then name.length else name.utf8ByteSize) ∧
    (∀ name, name ≠ "" →
      (if f.version = .firebird4 then name.length else name.utf8ByteSize) ≤
        f.identifierLimit →
      ∃ text, f.dialect.quote name = .ok text ∧
        ∀ rest : String, rest.toList.head? ≠ some '"' →
          Text.Quoted.scan (text ++ rest).toList =
            some (name.toList, rest.toList)) ∧
    (∀ (names names' : List String) (is is' : List Identifier)
      (rest rest' : String),
      names.mapM f.dialect.identifier = .ok is →
      names'.mapM f.dialect.identifier = .ok is' →
      rest.toList.head? = some ')' → rest'.toList.head? = some ')' →
      Layout.identifiers is ++ rest = Layout.identifiers is' ++ rest' →
      names = names' ∧ rest = rest') := by
  refine ⟨fun name => quote_eq_emptyIdentifier_iff, ?_, ?_, ?_⟩
  · intro name long limit
    rw [← ServerVersion.nameLength_eq]
    exact quote_eq_identifierTooLong_iff
  · intro name hnonempty hshort
    rw [← ServerVersion.nameLength_eq] at hshort
    have hquoted : f.quote name = .ok (Text.Quoted.quote name) :=
      quote_eq_ok_iff.mpr ⟨hnonempty, hshort, rfl⟩
    exact ⟨_, hquoted, fun rest hrest => scan_quote_append hquoted rest hrest⟩
  · intro names names' is is' rest rest' h h' hrest hrest' heq
    exact eq_of_identifiers_append h h' hrest hrest' heq

/-- A single name that imitates the separator of a list is not taken for two
names, and its quotes do not end it early. -/
theorem quote_lossless_and_bounded_separatorName :
    Layout.identifiers [.quoted "A\", \"B"] ++ ")" ≠
        Layout.identifiers [.quoted "A", .quoted "B"] ++ ")" ∧
      ∃ text, (ofVersion .firebird3).dialect.quote "\"\", \"" = .ok text ∧
        Text.Quoted.scan (text ++ ", ").toList =
          some ("\"\", \"".toList, ", ".toList) := by
  obtain ⟨-, -, hscanned, hseparated⟩ :=
    quote_lossless_and_bounded (ofVersion .firebird3)
  constructor
  · intro hsame
    have hequal :=
      hseparated ["A\", \"B"] ["A", "B"] _ _ ")" ")" rfl rfl rfl rfl hsame
    exact absurd hequal.1 (by decide)
  · obtain ⟨text, hquoted, hscan⟩ := hscanned "\"\", \"" (by decide) (by decide)
    exact ⟨text, hquoted, hscan ", " (by decide)⟩

end Firebird

end FirebirdSchema
