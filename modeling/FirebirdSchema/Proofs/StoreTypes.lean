import FirebirdSchema.Proofs.ColumnTypeText
import FirebirdSchema.Proofs.Traversal
import FirebirdSchema.Server.Firebird

/-!
# Store types

A store type is a primitive type with facets.  A column type stands for few
store types (`ColumnType.StandsFor`): from its text one can tell the primitive
type and every facet that counts for it, except that four primitive types share
the small integer and that a unique identifier is stored like any other sixteen
bytes.
-/

namespace FirebirdSchema

open Traversal

/-! ## Store types that are stored alike -/

/-- A primitive type that is stored as a small integer. -/
def PrimitiveKind.IsSmall (kind : PrimitiveKind) : Prop :=
  kind ∈ [PrimitiveKind.boolean, .byte, .sbyte, .int16]

namespace Facets

/-- The length is bounded by `n`, which is small enough for a column inside the
row. -/
def IsBoundedBy (facets : Facets) (n : UInt32) : Prop :=
  facets.length = some (.bounded n) ∧ n.toNat ≤ 32765

/-- Facets that agree on the length: either the same bound and a fixed length in
both or in neither, or no bound that is small enough in both. -/
def SameLength (facets facets' : Facets) : Prop :=
  (∃ n, facets.IsBoundedBy n ∧ facets'.IsBoundedBy n ∧
      facets.fixedLength.getD false = facets'.fixedLength.getD false) ∨
    (¬∃ n, facets.IsBoundedBy n) ∧ ¬∃ n, facets'.IsBoundedBy n

/-- The length is fixed and bounded by sixteen. -/
def IsSixteen (facets : Facets) : Prop :=
  facets.length = some (.bounded 16) ∧ facets.fixedLength = some true

end Facets

/-- Facets that agree where they count for a primitive type. -/
def PrimitiveKind.SameFacets (kind : PrimitiveKind) (facets facets' : Facets) :
    Prop :=
  match kind with
  | .decimal =>
      facets.precision.getD 18 = facets'.precision.getD 18 ∧
        facets.scale.getD 2 = facets'.scale.getD 2
  | .string =>
      facets.unicode.getD false = facets'.unicode.getD false ∧
        facets.SameLength facets'
  | .binary => facets.SameLength facets'
  | _ => True

/-- Two store types that have one column type. -/
inductive StoredAlike : PrimitiveKind → Facets → PrimitiveKind → Facets → Prop
  /-- Small integers. -/
  | small {kind kind' : PrimitiveKind} {facets facets' : Facets}
      (h : kind.IsSmall) (h' : kind'.IsSmall) :
      StoredAlike kind facets kind' facets'
  /-- One primitive type with the same facets. -/
  | sameFacets {kind : PrimitiveKind} {facets facets' : Facets}
      (h : kind.SameFacets facets facets') :
      StoredAlike kind facets kind facets'
  /-- A unique identifier and sixteen bytes. -/
  | guidBytes {facets facets' : Facets} (h : facets'.IsSixteen) :
      StoredAlike .guid facets .binary facets'
  /-- Sixteen bytes and a unique identifier. -/
  | bytesGuid {facets facets' : Facets} (h : facets.IsSixteen) :
      StoredAlike .binary facets .guid facets'

/-! ## The two looks at a length -/

namespace Facets

variable {facets facets' : Facets} {n : UInt32}

theorem le_inlineLimit_iff : n ≤ ColumnType.inlineLimit ↔ n.toNat ≤ 32765 :=
  UInt32.le_iff_toNat_le

theorem inlineLength?_eq_some_iff :
    facets.inlineLength? = some n ↔ facets.IsBoundedBy n := by
  rw [inlineLength?, IsBoundedBy]
  cases facets.length with
  | none => simp
  | some bound =>
      cases bound with
      | max => simp
      | bounded m =>
          constructor
          · intro h
            obtain ⟨hle, hsame⟩ := Option.ite_none_right_eq_some.mp h
            cases hsame
            exact ⟨rfl, le_inlineLimit_iff.mp hle⟩
          · rintro ⟨hsame, hle⟩
            cases hsame
            exact if_pos (le_inlineLimit_iff.mpr hle)

theorem inlineLength?_eq_none_iff :
    facets.inlineLength? = none ↔ ¬∃ n, facets.IsBoundedBy n := by
  simp [← inlineLength?_eq_some_iff, Option.eq_none_iff_forall_ne_some]

/-- Looking whether there is a length inside the row, and looking for that
length, come to the same. -/
theorem hasInlineLength_eq_isSome :
    facets.hasInlineLength = facets.inlineLength?.isSome := by
  unfold hasInlineLength inlineLength?
  split
  · split <;> simp_all
  · rfl

theorem hasInlineLength_iff :
    facets.hasInlineLength ↔ ∃ n, facets.IsBoundedBy n := by
  rw [hasInlineLength_eq_isSome, Option.isSome_iff_exists]
  simp only [inlineLength?_eq_some_iff]

theorem charset?_eq_iff :
    facets.charset? = facets'.charset? ↔
      facets.unicode.getD false = facets'.unicode.getD false := by
  unfold charset?
  cases facets.unicode.getD false <;> cases facets'.unicode.getD false <;> simp

theorem charset?_ne_octets : facets.charset? ≠ some .octets := by
  unfold charset?
  split <;> simp

/-- Facets bounded by the same length agree on the length when both or neither
fix it. -/
theorem IsBoundedBy.sameLength (h : facets.IsBoundedBy n)
    (h' : facets'.IsBoundedBy n)
    (hfixed : facets.fixedLength.getD false = facets'.fixedLength.getD false) :
    facets.SameLength facets' :=
  .inl ⟨n, h, h', hfixed⟩

theorem isSixteen_iff :
    facets.IsSixteen ↔
      facets.IsBoundedBy 16 ∧ facets.fixedLength.getD false = true := by
  have hfixed : facets.fixedLength = some true ↔
      facets.fixedLength.getD false = true := by
    cases facets.fixedLength <;> simp
  rw [IsSixteen, IsBoundedBy, hfixed]
  simp

end Facets

/-! ## Types of characters -/

namespace Firebird

variable {f : Firebird} {facets facets' : Facets} {n : UInt32}
  {charset : Option CharacterSet}
  {content : BlobContent} {kind kind' : PrimitiveKind} {type type' : ColumnType}

theorem inlineType_congr
    (h : facets.fixedLength.getD false = facets'.fixedLength.getD false) :
    inlineType facets n charset = inlineType facets' n charset := by
  rw [inlineType, inlineType, h]

theorem characterType_of_isBoundedBy (h : facets.IsBoundedBy n) :
    characterType facets charset content = inlineType facets n charset := by
  rw [characterType, Facets.inlineLength?_eq_some_iff.mpr h]

theorem characterType_of_not_isBoundedBy (h : ¬∃ n, facets.IsBoundedBy n) :
    characterType facets charset content = .blob content charset := by
  rw [characterType, Facets.inlineLength?_eq_none_iff.mpr h]

theorem binaryType_of_isBoundedBy (h : facets.IsBoundedBy n) :
    binaryType facets = inlineType facets n (some .octets) := by
  rw [binaryType, if_pos (Facets.hasInlineLength_iff.mpr ⟨n, h⟩),
    characterType_of_isBoundedBy h]

/-- A large object of bytes has no character set: the length is looked at before
the character type, and that would find the same. -/
theorem binaryType_of_not_isBoundedBy (h : ¬∃ n, facets.IsBoundedBy n) :
    binaryType facets = .blob .binary none :=
  if_neg (mt Facets.hasInlineLength_iff.mp h)

theorem characterType_congr (h : facets.SameLength facets') :
    characterType facets charset content =
      characterType facets' charset content := by
  obtain ⟨n, hn, hn', hfixed⟩ | ⟨hnone, hnone'⟩ := h
  · rw [characterType_of_isBoundedBy hn, characterType_of_isBoundedBy hn',
      inlineType_congr hfixed]
  · rw [characterType_of_not_isBoundedBy hnone,
      characterType_of_not_isBoundedBy hnone']

theorem binaryType_congr (h : facets.SameLength facets') :
    binaryType facets = binaryType facets' := by
  obtain ⟨n, hn, hn', hfixed⟩ | ⟨hnone, hnone'⟩ := h
  · rw [binaryType_of_isBoundedBy hn, binaryType_of_isBoundedBy hn',
      inlineType_congr hfixed]
  · rw [binaryType_of_not_isBoundedBy hnone,
      binaryType_of_not_isBoundedBy hnone']

/-! ## Store types that are stored alike have one column type -/

theorem columnType_congr (h : kind.SameFacets facets facets') :
    f.columnType kind facets = f.columnType kind facets' := by
  cases kind with
  | decimal =>
      obtain ⟨hprecision, hscale⟩ := h
      simp only [columnType, decimalType, hprecision, hscale]
  | string =>
      obtain ⟨hunicode, hlength⟩ := h
      rw [columnType, columnType, textType, textType,
        Facets.charset?_eq_iff.mpr hunicode, characterType_congr hlength]
  | binary => exact congrArg Except.ok (binaryType_congr h)
  | _ => rfl

theorem columnType_of_isSmall (h : kind.IsSmall) :
    f.columnType kind facets = .ok .smallint := by
  simp only [PrimitiveKind.IsSmall, List.mem_cons, List.not_mem_nil,
    or_false] at h
  obtain rfl | rfl | rfl | rfl := h
  all_goals rfl

theorem columnType_binary_of_isSixteen (h : facets.IsSixteen) :
    f.columnType .binary facets = .ok (.char 16 (some .octets)) := by
  obtain ⟨hbound, hfixed⟩ := Facets.isSixteen_iff.mp h
  rw [columnType, binaryType_of_isBoundedBy hbound, inlineType, if_pos hfixed]

theorem columnType_eq_of_storedAlike
    (h : StoredAlike kind facets kind' facets') :
    f.columnType kind facets = f.columnType kind' facets' := by
  cases h with
  | small h h' => rw [columnType_of_isSmall h, columnType_of_isSmall h']
  | sameFacets h => exact columnType_congr h
  | guidBytes h => exact (columnType_binary_of_isSixteen h).symm
  | bytesGuid h => exact columnType_binary_of_isSixteen h

end Firebird

/-! ## What a column type stands for -/

/-- Text or bytes, as characters of a character set. -/
def PrimitiveKind.HasCharacters (kind : PrimitiveKind) (facets : Facets)
    (charset : Option CharacterSet) : Prop :=
  kind = .string ∧ charset = facets.charset? ∨
    kind = .binary ∧ charset = some .octets

/-- The store types that a column type stands for. -/
def ColumnType.StandsFor (type : ColumnType) (kind : PrimitiveKind)
    (facets : Facets) : Prop :=
  match type with
  | .smallint => kind.IsSmall
  | .int => kind = .int32
  | .bigint => kind = .int64
  | .float => kind = .single
  | .doublePrecision => kind = .double
  | .decimal precision scale =>
      kind = .decimal ∧ facets.precision.getD 18 = precision ∧
        facets.scale.getD 2 = scale
  | .timestamp => kind = .dateTime
  | .timestampWithTimeZone => kind = .dateTimeOffset
  | .time => kind = .time
  | .char length charset =>
      (kind = .guid ∧ length = 16 ∧ charset = some .octets) ∨
        facets.IsBoundedBy length ∧ facets.fixedLength.getD false = true ∧
          kind.HasCharacters facets charset
  | .varchar length charset =>
      facets.IsBoundedBy length ∧ facets.fixedLength.getD false = false ∧
        kind.HasCharacters facets charset
  | .blob content charset =>
      (¬∃ n, facets.IsBoundedBy n) ∧
        (kind = .string ∧ content = .text ∧ charset = facets.charset? ∨
          kind = .binary ∧ content = .binary ∧ charset = none)

namespace Firebird

variable {f : Firebird} {facets facets' : Facets} {n : UInt32}
  {charset : Option CharacterSet}
  {kind kind' : PrimitiveKind} {type type' : ColumnType}

theorem standsFor_inlineType (hbound : facets.IsBoundedBy n)
    (hcharacters : kind.HasCharacters facets charset) :
    (inlineType facets n charset).StandsFor kind facets := by
  unfold inlineType
  split
  · rename_i hfixed
    exact .inr ⟨hbound, hfixed, hcharacters⟩
  · rename_i hvarying
    exact ⟨hbound, by simpa using hvarying, hcharacters⟩

theorem standsFor_textType (facets : Facets) :
    (textType facets).StandsFor .string facets := by
  by_cases h : ∃ n, facets.IsBoundedBy n
  · obtain ⟨n, hn⟩ := h
    rw [textType, characterType_of_isBoundedBy hn]
    exact standsFor_inlineType hn (.inl ⟨rfl, rfl⟩)
  · rw [textType, characterType_of_not_isBoundedBy h]
    exact ⟨h, .inl ⟨rfl, rfl, rfl⟩⟩

theorem standsFor_binaryType (facets : Facets) :
    (binaryType facets).StandsFor .binary facets := by
  by_cases h : ∃ n, facets.IsBoundedBy n
  · obtain ⟨n, hn⟩ := h
    rw [binaryType_of_isBoundedBy hn]
    exact standsFor_inlineType hn (.inr ⟨rfl, rfl⟩)
  · rw [binaryType_of_not_isBoundedBy h]
    exact ⟨h, .inr ⟨rfl, rfl, rfl⟩⟩

theorem standsFor_decimalType (h : f.decimalType facets = .ok type) :
    type.StandsFor .decimal facets := by
  simp only [decimalType] at h
  split at h
  · cases h
  · split at h
    · cases h
    · cases h
      exact ⟨rfl, rfl, rfl⟩

theorem standsFor_of_columnType (h : f.columnType kind facets = .ok type) :
    type.StandsFor kind facets := by
  cases kind with
  | decimal => exact standsFor_decimalType h
  | dateTimeOffset =>
      simp only [columnType] at h
      split at h
      · cases h
        rfl
      · cases h
  | string =>
      cases h
      exact standsFor_textType facets
  | binary =>
      cases h
      exact standsFor_binaryType facets
  | guid =>
      cases h
      exact .inl ⟨rfl, rfl, rfl⟩
  | boolean | byte | sbyte | int16 =>
      cases h
      simp [ColumnType.StandsFor, PrimitiveKind.IsSmall]
  | _ =>
      cases h
      rfl

/-- Only bytes are characters of octets, so the character set tells text from
bytes. -/
theorem eq_binary_of_hasCharacters
    (h : kind.HasCharacters facets (some .octets)) :
    kind = .binary := by
  obtain ⟨-, hcharset⟩ | ⟨rfl, -⟩ := h
  · exact absurd hcharset.symm Facets.charset?_ne_octets
  · rfl

theorem storedAlike_of_hasCharacters (h : kind.HasCharacters facets charset)
    (h' : kind'.HasCharacters facets' charset)
    (hlength : facets.SameLength facets') :
    StoredAlike kind facets kind' facets' := by
  obtain ⟨rfl, rfl⟩ | ⟨rfl, rfl⟩ := h
  · obtain ⟨rfl, hcharset⟩ | ⟨-, hcharset⟩ := h'
    · exact .sameFacets ⟨Facets.charset?_eq_iff.mp hcharset, hlength⟩
    · exact absurd hcharset Facets.charset?_ne_octets
  · obtain rfl := eq_binary_of_hasCharacters h'
    exact .sameFacets hlength

/-- The store types of one column type are stored alike. -/
theorem storedAlike_of_standsFor (h : type.StandsFor kind facets)
    (h' : type.StandsFor kind' facets') :
    StoredAlike kind facets kind' facets' := by
  cases type with
  | smallint => exact .small h h'
  | decimal precision scale =>
      obtain ⟨rfl, rfl, rfl⟩ := h
      obtain ⟨rfl, hprecision, hscale⟩ := h'
      exact .sameFacets ⟨hprecision.symm, hscale.symm⟩
  | char length charset =>
      obtain ⟨rfl, rfl, rfl⟩ | ⟨hbound, hfixed, hcharacters⟩ := h
      · obtain ⟨rfl, -, -⟩ | ⟨hbound', hfixed', hcharacters'⟩ := h'
        · exact .sameFacets trivial
        · obtain rfl := eq_binary_of_hasCharacters hcharacters'
          exact .guidBytes (Facets.isSixteen_iff.mpr ⟨hbound', hfixed'⟩)
      · obtain ⟨rfl, rfl, rfl⟩ | ⟨hbound', hfixed', hcharacters'⟩ := h'
        · obtain rfl := eq_binary_of_hasCharacters hcharacters
          exact .bytesGuid (Facets.isSixteen_iff.mpr ⟨hbound, hfixed⟩)
        · exact storedAlike_of_hasCharacters hcharacters hcharacters'
            (hbound.sameLength hbound' (hfixed.trans hfixed'.symm))
  | varchar length charset =>
      obtain ⟨hbound, hfixed, hcharacters⟩ := h
      obtain ⟨hbound', hfixed', hcharacters'⟩ := h'
      exact storedAlike_of_hasCharacters hcharacters hcharacters'
        (hbound.sameLength hbound' (hfixed.trans hfixed'.symm))
  | blob content charset =>
      obtain ⟨hnone, ⟨rfl, rfl, rfl⟩ | ⟨rfl, rfl, rfl⟩⟩ := h
      · obtain ⟨hnone', ⟨rfl, -, hcharset⟩ | ⟨-, hcontent, -⟩⟩ := h'
        · exact .sameFacets ⟨Facets.charset?_eq_iff.mp hcharset,
            .inr ⟨hnone, hnone'⟩⟩
        · cases hcontent
      · obtain ⟨hnone', ⟨-, hcontent, -⟩ | ⟨rfl, -, -⟩⟩ := h'
        · cases hcontent
        · exact .sameFacets (.inr ⟨hnone, hnone'⟩)
  | _ =>
      cases h
      cases h'
      exact .sameFacets trivial

/-! ## Texts of store types -/

theorem text_eq_iff {text text' : String}
    (h : f.dialect.columnType kind facets = .ok text)
    (h' : f.dialect.columnType kind' facets' = .ok text') :
    text = text' ↔ StoredAlike kind facets kind' facets' := by
  obtain ⟨type, htype, rfl⟩ := map_eq_ok_iff.mp h
  obtain ⟨type', htype', rfl⟩ := map_eq_ok_iff.mp h'
  constructor
  · intro heq
    obtain rfl := ColumnType.sql_injective heq
    exact storedAlike_of_standsFor (standsFor_of_columnType htype)
      (standsFor_of_columnType htype')
  · intro halike
    rw [columnType_eq_of_storedAlike halike, htype'] at htype
    rw [Except.ok.inj htype]

theorem blob_prefix_binaryType_iff :
    "BLOB".toList <+: (binaryType facets).sql.toList ↔
      ¬∃ n, facets.IsBoundedBy n := by
  by_cases h : ∃ n, facets.IsBoundedBy n
  · obtain ⟨n, hn⟩ := h
    have hinline : ¬"BLOB".toList <+:
        (inlineType facets n (some .octets)).sql.toList := by
      unfold inlineType
      split <;> simp [ColumnType.sql]
    rw [binaryType_of_isBoundedBy hn]
    exact iff_of_false hinline (not_not.mpr ⟨n, hn⟩)
  · rw [binaryType_of_not_isBoundedBy h]
    exact iff_of_true (by decide) h

/-- A large object of bytes names no character set: its text has no letter H. -/
theorem not_charset_isInfix_binaryType (h : ¬∃ n, facets.IsBoundedBy n) :
    ¬"CHARACTER SET".toList <:+: (binaryType facets).sql.toList := by
  have hletter : 'H' ∉ (ColumnType.blob .binary none).sql.toList := by decide
  rw [binaryType_of_not_isBoundedBy h]
  intro hpart
  exact hletter (hpart.subset (by decide))

/-- Two store types with a text each have the same text exactly when they are
stored alike.  Bytes always have a text; it is that of a large object exactly
when the length does not allow a place inside the row, and then it names no
character set. -/
theorem columnType_text_eq_iff (f : Firebird) :
    (∀ kind kind' facets facets' text text',
      f.dialect.columnType kind facets = .ok text →
      f.dialect.columnType kind' facets' = .ok text' →
      (text = text' ↔ StoredAlike kind facets kind' facets')) ∧
    ∀ facets, ∃ text, f.dialect.columnType .binary facets = .ok text ∧
      ("BLOB".toList <+: text.toList ↔ ¬∃ n, facets.IsBoundedBy n) ∧
      ("BLOB".toList <+: text.toList →
        ¬"CHARACTER SET".toList <:+: text.toList) := by
  constructor
  · intro kind kind' facets facets' text text' h h'
    exact text_eq_iff h h'
  · intro facets
    have htext : f.dialect.columnType .binary facets =
        .ok (binaryType facets).sql := rfl
    refine ⟨(binaryType facets).sql, htext, blob_prefix_binaryType_iff, ?_⟩
    intro hblob
    exact not_charset_isInfix_binaryType (blob_prefix_binaryType_iff.mp hblob)

/-- A unique identifier has the text of sixteen bytes of fixed length, but not
that of at most sixteen bytes; and text that is one character longer than what
fits inside the row is stored otherwise. -/
theorem columnType_text_eq_iff_sixteenBytes :
    let server := ofVersion .firebird4
    let fixed : Facets :=
      { length := some (.bounded 16), fixedLength := some true }
    let varying : Facets := { length := some (.bounded 16) }
    let inside : Facets := { length := some (.bounded 32765) }
    let outside : Facets := { length := some (.bounded 32766) }
    server.dialect.columnType .guid {} = .ok "CHAR(16) CHARACTER SET OCTETS" ∧
      server.dialect.columnType .binary fixed =
        .ok "CHAR(16) CHARACTER SET OCTETS" ∧
      server.dialect.columnType .binary varying =
        .ok "VARCHAR(16) CHARACTER SET OCTETS" ∧
      server.dialect.columnType .string inside = .ok "VARCHAR(32765)" ∧
      server.dialect.columnType .string outside = .ok "BLOB SUB_TYPE TEXT" ∧
      StoredAlike .guid {} .binary fixed ∧
      ¬StoredAlike .guid {} .binary varying ∧
      ¬StoredAlike .string inside .string outside := by
  intro server fixed varying inside outside
  have hguid : server.dialect.columnType .guid {} =
      .ok "CHAR(16) CHARACTER SET OCTETS" := by
    decide
  have hfixed : server.dialect.columnType .binary fixed =
      .ok "CHAR(16) CHARACTER SET OCTETS" := by
    decide
  have hvarying :
      server.dialect.columnType .binary varying =
        .ok "VARCHAR(16) CHARACTER SET OCTETS" := by
    decide
  have hinside : server.dialect.columnType .string inside =
      .ok "VARCHAR(32765)" := by decide
  have houtside : server.dialect.columnType .string outside =
      .ok "BLOB SUB_TYPE TEXT" := by decide
  obtain ⟨halike, -⟩ := columnType_text_eq_iff server
  exact ⟨hguid, hfixed, hvarying, hinside, houtside,
    (halike _ _ _ _ _ _ hguid hfixed).mp rfl,
    mt (halike _ _ _ _ _ _ hguid hvarying).mpr (by decide),
    mt (halike _ _ _ _ _ _ hinside houtside).mpr (by decide)⟩

end Firebird

end FirebirdSchema
