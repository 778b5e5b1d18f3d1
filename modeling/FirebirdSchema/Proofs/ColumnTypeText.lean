import FirebirdSchema.Proofs.Separable

/-!
# The text of column types

A column type is followed by a check, by `NOT NULL` or by the comma that ends
the column.  None of these can be taken for a part of the type, so the text
behind the name of a column determines the type of the column and the clauses
behind it.
-/

namespace FirebirdSchema

/-- The texts that may stand behind a column type: a check, a prohibition of
nulls, or a comma. -/
def IsColumnEnd (rest : List Char) : Prop :=
  ∃ tail, rest = ",".toList ++ tail ∨ rest = " CHECK (".toList ++ tail ∨
    rest = " NOT NULL".toList ++ tail

theorem not_isColumnEnd_stamp (cs : List Char) : ¬IsColumnEnd ('S' :: cs) := by
  intro h
  obtain ⟨tail, h | h | h⟩ := h
  all_goals simp at h

theorem not_isColumnEnd_with (cs : List Char) :
    ¬IsColumnEnd (' ' :: 'W' :: cs) := by
  intro h
  obtain ⟨tail, h | h | h⟩ := h
  all_goals simp at h

/-- The clause of a character set begins like a check, but only for three
characters. -/
theorem not_isColumnEnd_charset (charset : CharacterSet) (cs : List Char) :
    ¬IsColumnEnd ((ColumnType.charsetClause (some charset)).toList ++ cs) := by
  intro h
  obtain ⟨tail, h | h | h⟩ := h
  all_goals simp [ColumnType.charsetClause] at h

theorem separable_charsetClause :
    Separable (fun charset => (ColumnType.charsetClause charset).toList)
      IsColumnEnd := by
  intro charset charset' rest rest' hrest hrest' heq
  cases charset with
  | none =>
      cases charset' with
      | none => exact ⟨rfl, heq⟩
      | some charset' =>
          have hclause : (ColumnType.charsetClause (some charset')).toList ++
              rest' = rest :=
            heq.symm
          exact absurd (hclause ▸ hrest)
            (not_isColumnEnd_charset charset' rest')
  | some charset =>
      cases charset' with
      | none =>
          have hclause : (ColumnType.charsetClause (some charset)).toList ++
              rest = rest' :=
            heq
          exact absurd (hclause ▸ hrest') (not_isColumnEnd_charset charset rest)
      | some charset' =>
          cases charset <;> cases charset' <;>
            simp [ColumnType.charsetClause, CharacterSet.sql] at heq
          · exact ⟨rfl, heq⟩
          · exact ⟨rfl, heq⟩

theorem separable_lengthClause :
    Separable (fun p : UInt32 × Option CharacterSet =>
      Nat.toDigits 10 p.1.toNat ++ ')' :: (ColumnType.charsetClause p.2).toList)
      IsColumnEnd := by
  rintro ⟨length, charset⟩ ⟨length', charset'⟩ rest rest' hrest hrest' heq
  simp only [List.append_assoc, List.cons_append] at heq
  obtain ⟨hlength, hclause⟩ := separable_toDigits (by simp) (by simp) heq
  obtain ⟨hcharset, hrests⟩ :=
    separable_charsetClause hrest hrest' (List.cons.inj hclause).2
  exact ⟨by rw [UInt32.toNat_inj.mp hlength, hcharset], hrests⟩

theorem separable_precisionClause :
    Separable (fun p : UInt8 × UInt8 =>
      Nat.toDigits 10 p.1.toNat ++ ',' :: (Nat.toDigits 10 p.2.toNat ++ [')']))
      fun _ => True := by
  rintro ⟨precision, scale⟩ ⟨precision', scale'⟩ rest rest' - - heq
  simp only [List.append_assoc, List.cons_append, List.nil_append] at heq
  obtain ⟨hprecision, hscales⟩ := separable_toDigits (by simp) (by simp) heq
  obtain ⟨hscale, hrests⟩ :=
    separable_toDigits (by simp) (by simp) (List.cons.inj hscales).2
  exact ⟨by rw [UInt8.toNat_inj.mp hprecision, UInt8.toNat_inj.mp hscale],
    (List.cons.inj hrests).2⟩

theorem separable_contentClause :
    Separable (fun p : BlobContent × Option CharacterSet =>
      p.1.sql.toList ++ (ColumnType.charsetClause p.2).toList) IsColumnEnd := by
  rintro ⟨content, charset⟩ ⟨content', charset'⟩ rest rest' hrest hrest' heq
  simp only [List.append_assoc] at heq
  cases content <;> cases content' <;> simp [BlobContent.sql] at heq
  all_goals
    obtain ⟨hcharset, hrests⟩ := separable_charsetClause hrest hrest' heq
    exact ⟨by rw [hcharset], hrests⟩

/-- Types with different first letters differ at once; what is left are pairs of
one family. -/
theorem separable_sql :
    Separable (fun t : ColumnType => t.sql.toList) IsColumnEnd := by
  intro t t' rest rest' hrest hrest' heq
  cases t <;> cases t' <;> simp [ColumnType.sql] at heq
  case decimal.decimal precision scale precision' scale' =>
    obtain ⟨hpairs, hrests⟩ := @separable_precisionClause (precision, scale)
      (precision', scale') rest rest' trivial trivial (by simpa using heq)
    obtain ⟨rfl, rfl⟩ := Prod.mk.inj hpairs
    exact ⟨rfl, hrests⟩
  case char.char length charset length' charset' =>
    obtain ⟨hpairs, hrests⟩ := @separable_lengthClause (length, charset)
      (length', charset') rest rest' hrest hrest' (by simpa using heq)
    obtain ⟨rfl, rfl⟩ := Prod.mk.inj hpairs
    exact ⟨rfl, hrests⟩
  case varchar.varchar length charset length' charset' =>
    obtain ⟨hpairs, hrests⟩ := @separable_lengthClause (length, charset)
      (length', charset') rest rest' hrest hrest' (by simpa using heq)
    obtain ⟨rfl, rfl⟩ := Prod.mk.inj hpairs
    exact ⟨rfl, hrests⟩
  case blob.blob content charset content' charset' =>
    obtain ⟨hpairs, hrests⟩ := @separable_contentClause (content, charset)
      (content', charset') rest rest' hrest hrest' (by simpa using heq)
    obtain ⟨rfl, rfl⟩ := Prod.mk.inj hpairs
    exact ⟨rfl, hrests⟩
  case timestamp.timestampWithTimeZone =>
    exact absurd (heq ▸ hrest) (not_isColumnEnd_with _)
  case timestampWithTimeZone.timestamp =>
    exact absurd (heq ▸ hrest') (not_isColumnEnd_with _)
  case timestamp.time => exact absurd (heq ▸ hrest') (not_isColumnEnd_stamp _)
  case timestampWithTimeZone.time =>
    exact absurd (heq ▸ hrest') (not_isColumnEnd_stamp _)
  case time.timestamp => exact absurd (heq ▸ hrest) (not_isColumnEnd_stamp _)
  case time.timestampWithTimeZone =>
    exact absurd (heq ▸ hrest) (not_isColumnEnd_stamp _)
  all_goals exact ⟨rfl, heq⟩

/-- Different column types have different texts: a comma behind both shows where
they end. -/
theorem ColumnType.sql_injective : Function.Injective ColumnType.sql := by
  have hcomma : IsColumnEnd [','] := ⟨[], .inl rfl⟩
  intro type type' heq
  exact (separable_sql hcomma hcomma (by simp only [heq])).1

end FirebirdSchema
