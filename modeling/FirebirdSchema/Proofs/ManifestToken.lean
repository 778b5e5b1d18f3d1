import FirebirdSchema.Proofs.Numerals
import FirebirdSchema.Server.Version
import Mathlib.Data.Prod.Lex

/-!
# Manifest tokens

The grammar of manifest tokens, and what the server that a token names depends
on.

A token is read in three stages: the blank characters at its ends are removed,
the numbers before its first two points are read, and a server is chosen for
them.  `numbers?` is the second stage.  Its value depends on the first two
pieces of the text only, and on these only through the numbers that they write,
which is why padding and everything behind a second point do not count.
-/

namespace FirebirdSchema.ServerVersion

open Text

/-! ## The numbers of a token -/

/-- The major and the minor number of a trimmed token. -/
def numbers? (body : List Char) : Option (Nat × Nat) :=
  match body.splitOn '.' with
  | [] => none
  | [major] => (natOfNumeral32? major).map fun a => (a, 0)
  | major :: minor :: _ =>
    (natOfNumeral32? major).bind fun a => (natOfNumeral32? minor).map fun b =>
      (a, b)

theorem ofToken?_eq_bind_numbers? (token : String) :
    ofToken? token = (numbers? (trimBlank token.toList)).bind fun n =>
      ofNumbers? n.1 n.2 := by
  rw [ofToken?, numbers?]
  generalize (trimBlank token.toList).splitOn '.' = pieces
  match pieces with
  | [] => rfl
  | [major] =>
      simp only [Option.bind_eq_bind, Option.bind_map]
      rfl
  | major :: minor :: _ =>
      simp only [Option.bind_eq_bind, Option.bind_assoc, Option.bind_map]
      rfl

/-- Every text is a piece without a point, and then nothing or a point. -/
theorem exists_piece (cs : List Char) :
    ∃ piece tail, cs = piece ++ tail ∧ '.' ∉ piece ∧
      ∀ c ∈ tail.head?, c = '.' := by
  by_cases h : '.' ∈ cs
  · obtain ⟨piece, tail, rfl, hpiece⟩ := List.eq_append_cons_of_mem h
    exact ⟨piece, '.' :: tail, rfl, hpiece, by simp⟩
  · exact ⟨cs, [], by simp, h, by simp⟩

theorem numbers?_of_point_not_mem {major : List Char} (hmajor : '.' ∉ major) :
    numbers? major = (natOfNumeral32? major).map (·, 0) := by
  rw [numbers?, List.splitOn_eq_singleton hmajor]

theorem numbers?_append_point {major minor tail : List Char}
    (hmajor : '.' ∉ major) (hminor : '.' ∉ minor)
    (htail : ∀ c ∈ tail.head?, c = '.') :
    numbers? (major ++ '.' :: (minor ++ tail)) =
      (natOfNumeral32? major).bind fun a => (natOfNumeral32? minor).map fun b =>
        (a, b) := by
  have hpieces : ∃ rest, (minor ++ tail).splitOn '.' = minor :: rest := by
    cases tail with
    | nil => exact ⟨[],
        by rw [List.append_nil, List.splitOn_eq_singleton hminor]⟩
    | cons c tail =>
        obtain rfl : c = '.' := htail c (by simp)
        exact ⟨_, List.splitOn_append_cons_self_of_not_mem hminor tail⟩
  obtain ⟨rest, hrest⟩ := hpieces
  rw [numbers?, List.splitOn_append_cons_self_of_not_mem hmajor, hrest]

/-- The first piece counts through its number only; what is made of the number
depends on the text behind the piece. -/
theorem exists_numbers?_append_eq {tail : List Char}
    (htail : ∀ c ∈ tail.head?, c = '.') :
    ∃ complete : Nat → Option (Nat × Nat), ∀ major, '.' ∉ major →
      numbers? (major ++ tail) = (natOfNumeral32? major).bind complete := by
  cases tail with
  | nil =>
      refine ⟨fun a => some (a, 0), fun major hmajor => ?_⟩
      rw [List.append_nil, numbers?_of_point_not_mem hmajor, Option.map_eq_bind]
      rfl
  | cons c tail =>
      obtain rfl : c = '.' := htail c (by simp)
      obtain ⟨minor, rest, rfl, hminor, hrest⟩ := exists_piece tail
      exact ⟨_, fun major hmajor => numbers?_append_point hmajor hminor hrest⟩

theorem numbers?_congr_major {major major' tail : List Char}
    (hmajor : '.' ∉ major) (hmajor' : '.' ∉ major')
    (htail : ∀ c ∈ tail.head?, c = '.')
    (h : natOfNumeral32? major = natOfNumeral32? major') :
    numbers? (major ++ tail) = numbers? (major' ++ tail) := by
  obtain ⟨complete, hcomplete⟩ := exists_numbers?_append_eq htail
  rw [hcomplete major hmajor, hcomplete major' hmajor', h]

theorem numbers?_eq_none_of_major {major tail : List Char}
    (hmajor : '.' ∉ major) (htail : ∀ c ∈ tail.head?, c = '.')
    (h : natOfNumeral32? major = none) :
    numbers? (major ++ tail) = none := by
  obtain ⟨complete, hcomplete⟩ := exists_numbers?_append_eq htail
  rw [hcomplete major hmajor, h, Option.bind_none]

/-- Whatever follows a second point does not count. -/
theorem numbers?_congr_rest {front : List Char} (hfront : '.' ∈ front)
    (rest rest' : List Char) :
    numbers? (front ++ '.' :: rest) = numbers? (front ++ '.' :: rest') := by
  obtain ⟨major, behind, rfl, hmajor⟩ := List.eq_append_cons_of_mem hfront
  obtain ⟨minor, tail, rfl, hminor, htail⟩ := exists_piece behind
  have hpoint : ∀ rest, ∀ c ∈ (tail ++ '.' :: rest).head?, c = '.' := by
    intro rest c hc
    cases tail with
    | nil => simpa using hc.symm
    | cons d tail => exact htail c (by simpa using hc)
  simp only [List.append_assoc, List.cons_append]
  rw [numbers?_append_point hmajor hminor (hpoint rest),
    numbers?_append_point hmajor hminor (hpoint rest')]

/-- The numbers depend on a later piece through its number only. -/
theorem numbers?_congr_minor {minor minor' tail : List Char}
    (hminor : '.' ∉ minor) (hminor' : '.' ∉ minor')
    (htail : ∀ c ∈ tail.head?, c = '.')
    (h : natOfNumeral32? minor = natOfNumeral32? minor') (front : List Char) :
    numbers? (front ++ '.' :: (minor ++ tail)) =
      numbers? (front ++ '.' :: (minor' ++ tail)) := by
  by_cases hfront : '.' ∈ front
  · exact numbers?_congr_rest hfront _ _
  · rw [numbers?_append_point hfront hminor htail,
      numbers?_append_point hfront hminor' htail, h]

/-- A number that starts with a digit, padded or not, ends at the first point
behind it. -/
theorem exists_padded_piece {pad : List Char} (hpad : IsPadding pad) {d : Char}
    (hd : d.isDigit = true) (cs : List Char) :
    ∃ piece tail, cs = piece ++ tail ∧ '.' ∉ d :: piece ∧
      '.' ∉ pad ++ d :: piece ∧
      ∀ c ∈ tail.head?, c = '.' := by
  obtain ⟨piece, tail, rfl, hpiece, htail⟩ := exists_piece cs
  have hplain : '.' ∉ d :: piece := by
    rw [List.mem_cons, not_or]
    refine ⟨?_, hpiece⟩
    rintro rfl
    exact absurd hd (by decide)
  refine ⟨piece, tail, rfl, hplain, ?_, htail⟩
  rw [List.mem_append, not_or]
  refine ⟨fun h => ?_, hplain⟩
  exact absurd (hpad.eq_or_eq '.' h) (by decide)

theorem numbers?_padded_major {pad : List Char} (hpad : IsPadding pad)
    {d : Char} (hd : d.isDigit = true) (cs : List Char) :
    numbers? (pad ++ d :: cs) = numbers? (d :: cs) := by
  obtain ⟨piece, tail, rfl, hplain, hpadded, htail⟩ :=
    exists_padded_piece hpad hd cs
  simpa using numbers?_congr_major hpadded hplain htail
    (natOfNumeral32?_padded hpad hd piece)

theorem numbers?_padded_minor {pad : List Char} (hpad : IsPadding pad)
    {d : Char} (hd : d.isDigit = true) (front cs : List Char) :
    numbers? (front ++ '.' :: (pad ++ d :: cs)) =
      numbers? (front ++ '.' :: d :: cs) := by
  obtain ⟨piece, tail, rfl, hplain, hpadded, htail⟩ :=
    exists_padded_piece hpad hd cs
  simpa using numbers?_congr_minor hpadded hplain htail
    (natOfNumeral32?_padded hpad hd piece) front

/-! ## The grammar -/

/-- The texts of a version: one number, or two numbers with a point between
them, or these with a second point and anything behind it. -/
inductive IsVersion : List Char → Nat → Nat → Prop
  | major {cs : List Char} {a : Nat} (ha : IsNumeral cs a) : IsVersion cs a 0
  | minor {cs ds : List Char} {a b : Nat} (ha : IsNumeral cs a)
    (hb : IsNumeral ds b) :
    IsVersion (cs ++ '.' :: ds) a b
  | rest {cs ds : List Char} {a b : Nat} (ha : IsNumeral cs a)
    (hb : IsNumeral ds b)
    (rest : List Char) : IsVersion (cs ++ '.' :: (ds ++ '.' :: rest)) a b

theorem numbers?_of_isVersion {body : List Char} {a b : Nat}
    (h : IsVersion body a b) (ha : a < 2 ^ 32) (hb : b < 2 ^ 32) :
    numbers? body = some (a, b) := by
  have hread : ∀ {cs : List Char} {n : Nat}, IsNumeral cs n → n < 2 ^ 32 →
      natOfNumeral32? cs = some n :=
    fun hcs hn => natOfNumeral32?_eq_some_iff_isNumeral.mpr ⟨hcs, hn⟩
  rcases h with hcs | @⟨cs, ds, _, _, hcs, hds⟩ | ⟨hcs, hds, rest⟩
  · rw [numbers?_of_point_not_mem hcs.point_not_mem, hread hcs ha]
    rfl
  · rw [← List.append_nil ds,
      numbers?_append_point hcs.point_not_mem hds.point_not_mem (by simp),
      hread hcs ha, hread hds hb]
    rfl
  · rw [numbers?_append_point hcs.point_not_mem hds.point_not_mem (by simp),
      hread hcs ha, hread hds hb]
    rfl

theorem numbers?_eq_some_iff {body : List Char} {a b : Nat} :
    numbers? body = some (a, b) ↔
      IsVersion body a b ∧ a < 2 ^ 32 ∧ b < 2 ^ 32 := by
  constructor
  · intro h
    obtain ⟨major, tail, rfl, hmajor, htail⟩ := exists_piece body
    rcases tail with - | ⟨c, tail⟩
    · rw [List.append_nil, numbers?_of_point_not_mem hmajor,
        Option.map_eq_some_iff] at h
      obtain ⟨n, hn, hpair⟩ := h
      obtain ⟨rfl, rfl⟩ := Prod.mk.inj hpair
      obtain ⟨hmajor, hlt⟩ := natOfNumeral32?_eq_some_iff_isNumeral.mp hn
      rw [List.append_nil]
      exact ⟨.major hmajor, hlt, by decide⟩
    · obtain rfl : c = '.' := htail c (by simp)
      obtain ⟨minor, rest, rfl, hminor, hrest⟩ := exists_piece tail
      rw [numbers?_append_point hmajor hminor hrest,
        Option.bind_eq_some_iff] at h
      obtain ⟨n, hn, hpair⟩ := h
      obtain ⟨m, hm, hpair⟩ := Option.map_eq_some_iff.mp hpair
      obtain ⟨rfl, rfl⟩ := Prod.mk.inj hpair
      obtain ⟨hmajor, hn⟩ := natOfNumeral32?_eq_some_iff_isNumeral.mp hn
      obtain ⟨hminor, hm⟩ := natOfNumeral32?_eq_some_iff_isNumeral.mp hm
      refine ⟨?_, hn, hm⟩
      rcases rest with - | ⟨c, rest⟩
      · rw [List.append_nil]
        exact .minor hmajor hminor
      · obtain rfl : c = '.' := hrest c (by simp)
        exact .rest hmajor hminor rest
  · rintro ⟨h, ha, hb⟩
    exact numbers?_of_isVersion h ha hb

/-- The version that a token denotes: the token is the text of that version
between blank characters. -/
def Denotes (token : String) (major minor : Nat) : Prop :=
  ∃ body, IsTrimmed token.toList body ∧ IsVersion body major minor

theorem numbers?_trimBlank_eq_some_iff {token : String} {major minor : Nat} :
    numbers? (trimBlank token.toList) = some (major, minor) ↔
      Denotes token major minor ∧ major < 2 ^ 32 ∧ minor < 2 ^ 32 := by
  simp [numbers?_eq_some_iff, Denotes, isTrimmed_iff]

/-- The major versions that a server stands for. -/
def Serves : ServerVersion → Nat → Prop
  | firebird25, major => major = 2
  | firebird3, major => major = 3
  | firebird4, major => 4 ≤ major

theorem ofNumbers?_eq_some_iff {major minor : Nat} {v : ServerVersion} :
    ofNumbers? major minor = some v ↔
      toLex (2, 5) ≤ toLex (major, minor) ∧ v.Serves major := by
  rw [Prod.Lex.toLex_le_toLex, ofNumbers?]
  cases v <;> simp only [Serves] <;> grind

theorem ofToken?_eq_some_iff {token : String} {v : ServerVersion} :
    ofToken? token = some v ↔
      ∃ major minor, Denotes token major minor ∧ major < 2 ^ 32 ∧
        minor < 2 ^ 32 ∧
        toLex (2, 5) ≤ toLex (major, minor) ∧ v.Serves major := by
  rw [ofToken?_eq_bind_numbers?, Option.bind_eq_some_iff]
  constructor
  · rintro ⟨⟨major, minor⟩, hnumbers, hserver⟩
    obtain ⟨hdenotes, hmajor, hminor⟩ :=
      numbers?_trimBlank_eq_some_iff.mp hnumbers
    exact ⟨major, minor, hdenotes, hmajor, hminor,
      ofNumbers?_eq_some_iff.mp hserver⟩
  · rintro ⟨major, minor, hdenotes, hmajor, hminor, hserver⟩
    exact ⟨(major, minor),
      numbers?_trimBlank_eq_some_iff.mpr ⟨hdenotes, hmajor, hminor⟩,
      ofNumbers?_eq_some_iff.mpr hserver⟩

/-! ## What does not count -/

theorem ofToken?_congr {token token' : String}
    (h : numbers? (trimBlank token.toList) =
      numbers? (trimBlank token'.toList)) :
    ofToken? token = ofToken? token' := by
  rw [ofToken?_eq_bind_numbers?, ofToken?_eq_bind_numbers?, h]

theorem ofToken?_blank {lead trail : String}
    (hlead : ∀ c ∈ lead.toList, isBlank c = true)
    (htrail : ∀ c ∈ trail.toList, isBlank c = true) (token : String) :
    ofToken? (lead ++ token ++ trail) = ofToken? token := by
  refine ofToken?_congr ?_
  rw [String.toList_append, String.toList_append,
    trimBlank_append_append hlead htrail]

theorem ofToken?_padded_major {pad number : String}
    (hpad : IsPadding pad.toList)
    (hnumber : ∃ d ∈ number.toList.head?, d.isDigit = true) :
    ofToken? (pad ++ number) = ofToken? number := by
  obtain ⟨d, hd, hdigit⟩ := hnumber
  obtain ⟨cs, hcs⟩ := List.head?_eq_some_iff.mp hd
  refine ofToken?_congr ?_
  have hplain := trimBlank_append_cons (isBlank_of_isDigit hdigit) [] cs
  rw [List.nil_append, List.dropWhile_nil, List.nil_append] at hplain
  rw [String.toList_append, hcs,
    trimBlank_append_cons (isBlank_of_isDigit hdigit), hpad.dropWhile_isBlank,
    hplain, numbers?_padded_major hpad hdigit]

theorem ofToken?_padded_minor {pad number : String}
    (hpad : IsPadding pad.toList)
    (hnumber : ∃ d ∈ number.toList.head?, d.isDigit = true) (front : String) :
    ofToken? (front ++ "." ++ pad ++ number) =
      ofToken? (front ++ "." ++ number) := by
  obtain ⟨d, hd, hdigit⟩ := hnumber
  obtain ⟨cs, hcs⟩ := List.head?_eq_some_iff.mp hd
  refine ofToken?_congr ?_
  have htrimmed : ∀ pad : List Char,
      trimBlank (front.toList ++ '.' :: (pad ++ d :: cs)) =
        front.toList.dropWhile isBlank ++
          '.' :: (pad ++ d :: cs.rdropWhile isBlank) := by
    intro pad
    have hdigits :=
      trimBlank_append_cons (isBlank_of_isDigit hdigit)
        (front.toList ++ '.' :: pad) cs
    rw [dropWhile_append_cons isBlank_point] at hdigits
    simpa using hdigits
  have hpadded := htrimmed pad.toList
  have hplain := htrimmed []
  simp only [List.nil_append] at hplain
  simp [hcs, hpadded, hplain, numbers?_padded_minor hpad hdigit]

theorem ofToken?_rest (major minor rest rest' : String) :
    ofToken? (major ++ "." ++ minor ++ "." ++ rest) =
      ofToken? (major ++ "." ++ minor ++ "." ++ rest') := by
  refine ofToken?_congr ?_
  have htrimmed : ∀ rest : String,
      trimBlank (major ++ "." ++ minor ++ "." ++ rest).toList =
        (major.toList.dropWhile isBlank ++ '.' :: minor.toList) ++
          '.' :: rest.toList.rdropWhile isBlank := by
    intro rest
    rw [← dropWhile_append_cons isBlank_point,
      ← trimBlank_append_cons isBlank_point]
    simp
  rw [htrimmed, htrimmed]
  exact numbers?_congr_rest (by simp) _ _

/-! ## Numbers that are too large, and the order of servers -/

/-- A number of `2 ^ 32` or more, in front of a point or of the end, is refused
in both places. -/
theorem ofToken?_eq_none_of_le {token : String} {number tail : List Char}
    {n : Nat} (hnumber : IsNumeral number n) (hn : 2 ^ 32 ≤ n)
    (htail : ∀ c ∈ tail.head?, c = '.')
    (hplace : IsTrimmed token.toList (number ++ tail) ∨ ∃ major, '.' ∉ major ∧
      IsTrimmed token.toList (major ++ '.' :: (number ++ tail))) :
    ofToken? token = none := by
  have hrefused : natOfNumeral32? number = none :=
    hnumber.natOfNumeral32?_eq_none hn
  have hnumbers : numbers? (trimBlank token.toList) = none := by
    rcases hplace with htrimmed | ⟨major, hmajor, htrimmed⟩
    · rw [isTrimmed_iff.mp htrimmed]
      exact numbers?_eq_none_of_major hnumber.point_not_mem htail hrefused
    · rw [isTrimmed_iff.mp htrimmed,
        numbers?_append_point hmajor hnumber.point_not_mem htail, hrefused]
      exact Option.bind_fun_none _
  rw [ofToken?_eq_bind_numbers?, hnumbers, Option.bind_none]

theorem exists_serves {major : Nat} (h : 2 ≤ major) :
    ∃ v : ServerVersion, v.Serves major := by
  by_cases htwo : major = 2
  · exact ⟨firebird25, htwo⟩
  by_cases hthree : major = 3
  · exact ⟨firebird3, hthree⟩
  have hnewer : 4 ≤ major := by omega
  exact ⟨firebird4, hnewer⟩

theorem Serves.le {v v' : ServerVersion} {major major' : Nat}
    (h : v.Serves major) (h' : v'.Serves major') (hle : major ≤ major') :
    v ≤ v' := by
  rw [le_iff_rank_le]
  cases v <;> cases v' <;> simp only [Serves, rank] at h h' ⊢ <;> omega

theorem ofNumbers?_mono {major minor major' minor' : Nat}
    (hle : toLex (major, minor) ≤ toLex (major', minor')) {v : ServerVersion}
    (h : ofNumbers? major minor = some v) :
    ∃ v', ofNumbers? major' minor' = some v' ∧ v ≤ v' := by
  obtain ⟨hsupported, hserves⟩ := ofNumbers?_eq_some_iff.mp h
  have hsupported' := hsupported.trans hle
  have hmajor : major ≤ major' := by
    rcases Prod.Lex.toLex_le_toLex.mp hle with hlt | ⟨heq, -⟩
    · exact hlt.le
    · exact heq.le
  have htwo : 2 ≤ major' := by
    rcases Prod.Lex.toLex_le_toLex.mp hsupported' with hlt | ⟨heq, -⟩
    · exact hlt.le
    · exact heq.le
  obtain ⟨v', hserves'⟩ := exists_serves htwo
  exact ⟨v', ofNumbers?_eq_some_iff.mpr ⟨hsupported', hserves'⟩,
    hserves.le hserves' hmajor⟩

theorem ofToken?_mono {token token' : String} {major minor major' minor' : Nat}
    (hdenotes : Denotes token major minor) (hmajor : major < 2 ^ 32)
    (hminor : minor < 2 ^ 32) (hdenotes' : Denotes token' major' minor')
    (hmajor' : major' < 2 ^ 32) (hminor' : minor' < 2 ^ 32)
    (hle : toLex (major, minor) ≤ toLex (major', minor')) {v : ServerVersion}
    (h : ofToken? token = some v) :
    ∃ v', ofToken? token' = some v' ∧ v ≤ v' := by
  have hnumbers := numbers?_trimBlank_eq_some_iff.mpr ⟨hdenotes, hmajor, hminor⟩
  have hnumbers' :=
    numbers?_trimBlank_eq_some_iff.mpr ⟨hdenotes', hmajor', hminor'⟩
  rw [ofToken?_eq_bind_numbers?, hnumbers, Option.bind_some] at h
  rw [ofToken?_eq_bind_numbers?, hnumbers', Option.bind_some]
  exact ofNumbers?_mono hle h

/-- A manifest token names a server exactly when it is the text of a version
from 2.5 on with both numbers below `2 ^ 32`, and the server is then the one of
the major version.  Blank characters around a token, padding in front of either
number and the text behind a second point do not change the answer; a number
that is too large is never taken for another one; and a newer version never gets
an older server. -/
theorem ofToken?_exact_and_monotone :
    (∀ token v, ofToken? token = some v ↔
      ∃ major minor, Denotes token major minor ∧ major < 2 ^ 32 ∧
        minor < 2 ^ 32 ∧
        toLex (2, 5) ≤ toLex (major, minor) ∧ v.Serves major) ∧
    (∀ lead token trail : String,
      (∀ c ∈ lead.toList, isBlank c = true) →
      (∀ c ∈ trail.toList, isBlank c = true) →
      ofToken? (lead ++ token ++ trail) = ofToken? token) ∧
    (∀ pad number : String,
      IsPadding pad.toList → (∃ d ∈ number.toList.head?, d.isDigit = true) →
      ofToken? (pad ++ number) = ofToken? number ∧
        ∀ front, ofToken? (front ++ "." ++ pad ++ number) =
          ofToken? (front ++ "." ++ number)) ∧
    (∀ major minor rest rest' : String,
      ofToken? (major ++ "." ++ minor ++ "." ++ rest) =
        ofToken? (major ++ "." ++ minor ++ "." ++ rest')) ∧
    (∀ (token : String) (number tail : List Char) (n : Nat),
      IsNumeral number n → 2 ^ 32 ≤ n → (∀ c ∈ tail.head?, c = '.') →
      (IsTrimmed token.toList (number ++ tail) ∨
        ∃ major, '.' ∉ major ∧
          IsTrimmed token.toList (major ++ '.' :: (number ++ tail))) →
      ofToken? token = none) ∧
    (∀ (token token' : String) (major minor major' minor' : Nat),
      Denotes token major minor → major < 2 ^ 32 → minor < 2 ^ 32 →
      Denotes token' major' minor' → major' < 2 ^ 32 → minor' < 2 ^ 32 →
      toLex (major, minor) ≤ toLex (major', minor') →
      ∀ v, ofToken? token = some v → ∃ v', ofToken? token' = some v' ∧
        v ≤ v') := by
  refine ⟨fun token v => ofToken?_eq_some_iff, ?_, ?_, ofToken?_rest, ?_, ?_⟩
  · intro lead token trail hlead htrail
    exact ofToken?_blank hlead htrail token
  · intro pad number hpad hnumber
    exact ⟨ofToken?_padded_major hpad hnumber,
      ofToken?_padded_minor hpad hnumber⟩
  · intro token number tail n hnumber hn htail hplace
    exact ofToken?_eq_none_of_le hnumber hn htail hplace
  · intro token token' major minor major' minor' hdenotes hmajor hminor
      hdenotes' hmajor' hminor'
      hle v h
    exact ofToken?_mono hdenotes hmajor hminor hdenotes' hmajor' hminor' hle h

/-- Two tokens in the order of their versions, and a token whose major number is
2 modulo `2 ^ 32`. -/
theorem ofToken?_exact_and_monotone_sample :
    Denotes " 2.5" 2 5 ∧ Denotes "+4" 4 0 ∧
      (∀ v, ofToken? " 2.5" = some v → ∃ v', ofToken? "+4" = some v' ∧ v ≤ v') ∧
      IsNumeral "4294967298".toList 4294967298 ∧
      ofToken? "4294967298.5" = none := by
  have hold := numbers?_trimBlank_eq_some_iff.mp
    (show numbers? (trimBlank " 2.5".toList) = some (2, 5) by decide)
  have hnew := numbers?_trimBlank_eq_some_iff.mp
    (show numbers? (trimBlank "+4".toList) = some (4, 0) by decide)
  have hlarge : IsNumeral "4294967298".toList 4294967298 :=
    isNumeral_iff.mpr (by decide)
  have horder : toLex (2, 5) ≤ toLex (4, 0) := by decide
  obtain ⟨-, -, -, -, hrefused, hmonotone⟩ := ofToken?_exact_and_monotone
  refine ⟨hold.1, hnew.1, ?_, hlarge, ?_⟩
  · exact hmonotone " 2.5" "+4" 2 5 4 0 hold.1 hold.2.1 hold.2.2 hnew.1 hnew.2.1
      hnew.2.2 horder
  · refine hrefused "4294967298.5" _ ['.', '5'] _ hlarge (by decide) (by simp)
      (.inl ?_)
    exact isTrimmed_iff.mpr (by decide)

example : ofToken? "\t+03.00.x " = some firebird3 := by decide

example : ofToken? "4." = none := by decide

end FirebirdSchema.ServerVersion
