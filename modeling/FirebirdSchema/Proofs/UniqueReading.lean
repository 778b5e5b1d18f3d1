import FirebirdSchema.Proofs.ColumnTypeText
import FirebirdSchema.Sample

/-!
# Unique reading of scripts

A script can be read in one way only.  Reading from left to right, every quoted
name ends at its closing quote, every column type before the next clause, every
list of columns, comments, tables and foreign keys before a line that cannot be
a further member.  Hence a script that is the beginning of another script is
that script, and the two schemas have the same content.
-/

namespace FirebirdSchema

/-! ## Columns -/

namespace ColumnContent

theorem separable_nullChars :
    Separable nullChars fun rest => rest.head? = some ',' := by
  intro a b rest rest' hrest hrest' heq
  cases a with
  | true =>
      cases b with
      | true => exact ⟨rfl, heq⟩
      | false =>
          have hclause : rest = " NOT NULL".toList ++ rest' := heq
          rw [hclause] at hrest
          simp at hrest
  | false =>
      cases b with
      | true =>
          have hclause : " NOT NULL".toList ++ rest = rest' := heq
          rw [← hclause] at hrest'
          simp at hrest'
      | false => exact ⟨rfl, List.append_cancel_left heq⟩

/-- A check names its own column, so only its presence has to be read. -/
theorem separable_checkChars (name : String) :
    Separable (checkChars name) fun rest =>
      ∀ tail, rest ≠ " CHECK (".toList ++ tail := by
  intro a b rest rest' hrest hrest' heq
  cases a with
  | true =>
      cases b with
      | true => exact ⟨rfl, List.append_cancel_left heq⟩
      | false =>
          unfold checkChars at heq
          rw [List.append_assoc] at heq
          exact absurd heq.symm (hrest' _)
  | false =>
      cases b with
      | true =>
          unfold checkChars at heq
          rw [List.append_assoc] at heq
          exact absurd heq (hrest _)
      | false => exact ⟨rfl, heq⟩

theorem ne_check_append (nullable : Bool) (rest tail : List Char) :
    nullChars nullable ++ (",".toList ++ rest) ≠ " CHECK (".toList ++ tail := by
  unfold nullChars
  intro h
  cases nullable <;> simp at h

theorem isColumnEnd_checkChars (c : ColumnContent) (rest : List Char) :
    IsColumnEnd (checkChars c.name c.isTruthValue ++
      (nullChars c.nullable ++ (",".toList ++ rest))) := by
  cases c.isTruthValue with
  | true =>
      refine ⟨(quotedChars c.name ++ " IN (1,0))".toList) ++
        (nullChars c.nullable ++ (",".toList ++ rest)), Or.inr (Or.inl ?_)⟩
      unfold checkChars
      exact List.append_assoc _ _ _
  | false =>
      cases c.nullable with
      | true => exact ⟨rest, Or.inl rfl⟩
      | false => exact ⟨",".toList ++ rest, Or.inr (Or.inr rfl)⟩

theorem separable_chars (layout : Layout) :
    Separable (chars layout) fun _ => True := by
  intro c c' rest rest' _ _ heq
  unfold chars at heq
  simp only [List.append_assoc, List.append_cancel_left_eq] at heq
  obtain ⟨hname, htypes⟩ := separable_quotedChars (by simp) (by simp) heq
  obtain ⟨htype, hchecks⟩ := separable_sql (isColumnEnd_checkChars c _)
    (isColumnEnd_checkChars c' _) (List.append_cancel_left htypes)
  rw [hname] at hchecks
  obtain ⟨htruth, hnulls⟩ :=
    separable_checkChars c'.name (ne_check_append _ _)
      (ne_check_append _ _) hchecks
  obtain ⟨hnullable, hrests⟩ := separable_nullChars (by simp) (by simp) hnulls
  refine ⟨?_, List.append_cancel_left (List.append_cancel_left hrests)⟩
  cases c
  cases c'
  rw [mk.injEq]
  exact ⟨hname, htype, htruth, hnullable⟩

/-- A line that defines a column begins with a blank or with a quote. -/
theorem head?_chars_ne {layout : Layout} (hblank : layout.HasBlankIndent)
    (c : ColumnContent) (rest : List Char) :
    (c.chars layout ++ rest).head? ≠ some 'C' := by
  unfold chars
  unfold Layout.HasBlankIndent at hblank
  generalize layout.indent.toList = indent at hblank ⊢
  cases indent with
  | nil =>
      rw [List.nil_append, List.append_assoc]
      intro h
      cases h
  | cons first indent =>
      have hfirst := hblank first List.mem_cons_self
      intro h
      obtain rfl : first = 'C' := Option.some.inj h
      rcases hfirst with h | h
      · cases h
      · cases h

theorem separable_flatMap_chars {layout : Layout}
    (hblank : layout.HasBlankIndent) :
    Separable (List.flatMap (chars layout)) fun rest => rest.head? =
      some 'C' := by
  apply (separable_chars layout).flatMap
  · intro c rest
    trivial
  · intro rest hrest
    trivial
  · exact head?_chars_ne hblank

end ColumnContent

/-! ## Tables -/

theorem Marker.separable_text :
    Separable (fun m : Marker => m.text.toList) fun rest => rest.head? =
      some '\'' := by
  intro m m' rest rest' _ _ heq
  cases m <;> cases m' <;> simp [Marker.text] at heq
  all_goals exact ⟨rfl, heq⟩

namespace TableContent

theorem separable_commentChars (layout : Layout) (table : String) :
    Separable (commentChars layout table) fun _ => True := by
  intro entry entry' rest rest' _ _ heq
  unfold commentChars at heq
  simp only [List.append_assoc, List.append_cancel_left_eq] at heq
  obtain ⟨hname, hmarkers⟩ := separable_quotedChars (by simp) (by simp) heq
  obtain ⟨hmarker, hrests⟩ := Marker.separable_text (by simp) (by simp)
    (List.append_cancel_left hmarkers)
  exact ⟨Prod.ext hname hmarker,
    List.append_cancel_left (List.append_cancel_left hrests)⟩

theorem head?_commentChars (layout : Layout) (table : String)
    (entry : String × Marker) (rest : List Char) :
    (commentChars layout table entry ++ rest).head? = some 'C' := by
  unfold commentChars
  simp

theorem separable_flatMap_commentChars (layout : Layout) (table : String) :
    Separable (List.flatMap (commentChars layout table)) fun rest =>
      rest.head? ≠ some 'C' := by
  apply (separable_commentChars layout table).flatMap
  · intro entry rest
    trivial
  · intro rest hrest
    trivial
  · intro entry rest hstop
    exact hstop (head?_commentChars layout table entry rest)

/-- The name of the table determines the name of its key, so the latter needs no
reading. -/
theorem separable_chars {layout : Layout} (hblank : layout.HasBlankIndent) :
    Separable (chars layout) fun rest => rest.head? ≠ some 'C' := by
  intro t t' rest rest' hrest hrest' heq
  unfold chars at heq
  simp only [List.append_assoc, List.append_cancel_left_eq] at heq
  obtain ⟨hname, hcolumns⟩ := separable_quotedChars (by simp) (by simp) heq
  obtain ⟨hcolumns, hkey⟩ :=
    ColumnContent.separable_flatMap_chars hblank (by simp) (by simp)
    (List.append_cancel_left (List.append_cancel_left hcolumns))
  rw [hname] at hkey
  simp only [List.append_cancel_left_eq] at hkey
  obtain ⟨hkeyMembers, hcomments⟩ :=
    separable_quotedListChars (by simp) (by simp) hkey
  simp only [List.append_cancel_left_eq] at hcomments
  obtain ⟨hcomments, hrests⟩ :=
    separable_flatMap_commentChars layout t'.name hrest hrest' hcomments
  refine ⟨?_, hrests⟩
  cases t
  cases t'
  rw [mk.injEq]
  exact ⟨hname, hcolumns, hkeyMembers, hcomments⟩

end TableContent

/-! ## Foreign keys -/

theorem DeleteRule.separable_sql :
    Separable (fun rule : DeleteRule => rule.sql.toList) fun rest =>
      rest.head? = some ';' := by
  intro rule rule' rest rest' _ _ heq
  cases rule <;> cases rule' <;> simp [DeleteRule.sql] at heq
  all_goals exact ⟨rfl, heq⟩

theorem ForeignKeyContent.separable_chars (layout : Layout) :
    Separable (chars layout) fun _ => True := by
  intro k k' rest rest' _ _ heq
  unfold chars at heq
  simp only [List.append_assoc, List.append_cancel_left_eq] at heq
  obtain ⟨htable, hnames⟩ := separable_quotedChars (by simp) (by simp) heq
  obtain ⟨hname, hcolumns⟩ := separable_quotedChars (by simp) (by simp)
    (List.append_cancel_left hnames)
  obtain ⟨hcolumns, hprincipals⟩ :=
    separable_quotedListChars (by simp) (by simp)
    (List.append_cancel_left hcolumns)
  simp only [List.append_cancel_left_eq] at hprincipals
  obtain ⟨hprincipal, hprincipalColumns⟩ :=
    separable_quotedChars (by simp) (by simp) hprincipals
  obtain ⟨hprincipalColumns, hrules⟩ :=
    separable_quotedListChars (by simp) (by simp)
    (List.append_cancel_left hprincipalColumns)
  simp only [List.append_cancel_left_eq] at hrules
  obtain ⟨hrule, hrests⟩ := DeleteRule.separable_sql (by simp) (by simp) hrules
  refine ⟨?_, List.append_cancel_left hrests⟩
  cases k
  cases k'
  rw [mk.injEq]
  exact ⟨(String.append_right_inj _).mp hname, htable, hcolumns, hprincipal,
    hprincipalColumns, hrule⟩

/-! ## Scripts -/

theorem Layout.head?_newline_append (layout : Layout) {c : Char}
    (hc : c.isAlpha = true) (rest : List Char) :
    (layout.newline ++ rest).head? ≠ some c := by
  intro h
  rcases layout.newline_eq with hline | hline
  · rw [hline] at h
    obtain rfl : '\n' = c := Option.some.inj h
    exact absurd hc (by decide)
  · rw [hline] at h
    obtain rfl : '\r' = c := Option.some.inj h
    exact absurd hc (by decide)

/-- Codes that open with one letter, separated by line endings, up to a line
that opens with something else. -/
theorem Separable.separated_newline {α : Type} {code : α → List Char}
    {follow : List Char → Prop} (h : Separable code follow) {layout : Layout}
    {first : Char} (hletter : first.isAlpha = true)
    (hfirst : ∀ a rest, (code a ++ rest).head? = some first)
    (hfollow : ∀ rest, follow (layout.newline ++ rest)) :
    Separable (FirebirdSchema.separated layout.newline code) fun rest =>
      ∃ line, rest = layout.newline ++ line ∧ line.head? ≠ some first := by
  apply h.separated
  · intro a rest
    rw [List.append_assoc]
    exact hfollow _
  · intro rest hrest
    obtain ⟨line, rfl, -⟩ := hrest
    exact hfollow line
  · intro a rest hstop
    obtain ⟨line, hline, -⟩ := hstop
    have hopens := hfirst a rest
    rw [hline] at hopens
    exact layout.head?_newline_append hletter line hopens
  · intro a rest hstop
    obtain ⟨line, hline, hne⟩ := hstop
    rw [List.append_assoc, List.append_cancel_left_eq] at hline
    rw [← hline] at hne
    exact hne (hfirst a rest)

namespace SchemaContent

theorem separable_chars {layout : Layout} (hblank : layout.HasBlankIndent) :
    Separable (chars layout) fun _ => True := by
  have htables : Separable
    (separated layout.newline (TableContent.chars layout)) fun rest =>
      ∃ line, rest = layout.newline ++ line ∧ line.head? ≠ some 'R' := by
    apply (TableContent.separable_chars hblank).separated_newline
    · decide
    · intro t rest
      unfold TableContent.chars
      simp
    · exact layout.head?_newline_append (by decide)
  have hforeignKeys : Separable
    (separated layout.newline (ForeignKeyContent.chars layout))
      fun rest => ∃ line, rest = layout.newline ++ line ∧
        line.head? ≠ some 'A' := by
    apply (ForeignKeyContent.separable_chars layout).separated_newline
    · decide
    · intro k rest
      unfold ForeignKeyContent.chars
      simp
    · intro rest
      trivial
  intro c c' rest rest' _ _ heq
  unfold chars at heq
  simp only [List.append_assoc, List.append_cancel_left_eq] at heq
  obtain ⟨htables, hkeys⟩ :=
    htables ⟨_, rfl, by simp⟩ ⟨_, rfl, by simp⟩ heq
  simp only [List.append_cancel_left_eq] at hkeys
  have hline : ∀ rest : List Char,
      (layout.newline ++ ("-- EOF".toList ++ rest)).head? ≠ some 'A' :=
    fun rest => layout.head?_newline_append (by decide) _
  obtain ⟨hkeys, hrests⟩ :=
    hforeignKeys ⟨_, rfl, hline rest⟩ ⟨_, rfl, hline rest'⟩ hkeys
  refine ⟨?_, by simpa only [List.append_cancel_left_eq] using hrests⟩
  cases c
  cases c'
  rw [mk.injEq]
  exact ⟨htables, hkeys⟩

theorem eq_of_script_prefix {layout : Layout} (hblank : layout.HasBlankIndent)
    {c c' : SchemaContent}
    (h : (layout.script c.script).toList <+: (layout.script c'.script).toList) :
    c = c' := by
  obtain ⟨rest, hrest⟩ := h
  rw [toList_script, toList_script,
    ← List.append_nil (chars layout c')] at hrest
  exact (separable_chars hblank trivial trivial hrest).1

/-- The script of a schema and the text for an absent schema differ in their
fourth character. -/
theorem not_script_prefix_noInput (layout : Layout) (c : SchemaContent) :
    ¬(layout.script c.script).toList <+: Generator.noInput.toList := by
  intro h
  obtain ⟨rest, hrest⟩ := h
  rw [toList_script] at hrest
  unfold chars Generator.noInput at hrest
  simp at hrest

theorem not_noInput_prefix_script (layout : Layout) (c : SchemaContent) :
    ¬Generator.noInput.toList <+: (layout.script c.script).toList := by
  intro h
  obtain ⟨rest, hrest⟩ := h
  rw [toList_script] at hrest
  unfold chars Generator.noInput at hrest
  simp at hrest

end SchemaContent

/-! ## Generators -/

/-- Two schemas of which a script for a server says the same. -/
def StoreSchema.SameContent (f : Firebird) (s₁ s₂ : StoreSchema) : Prop :=
  ∃ c, s₁.content f = .ok c ∧ s₂.content f = .ok c

namespace Generator

/-- A script that is the beginning of another script is that script, and
whatever it says about one schema it says about the other. -/
theorem sameContent_of_prefix_scriptText {f : Firebird} {config : Config}
    (hblank : config.HasBlankIndent) {m₁ m₂ : Option StoreSchema}
    {text₁ text₂ : String} (h₁ : scriptText ⟨config, f.dialect⟩ m₁ = .ok text₁)
    (h₂ : scriptText ⟨config, f.dialect⟩ m₂ = .ok text₂)
    (hbegins : text₁.toList <+: text₂.toList) :
    text₁ = text₂ ∧ Option.Rel (StoreSchema.SameContent f) m₁ m₂ := by
  cases m₁ with
  | none =>
      obtain rfl : noInput = text₁ := Except.ok.inj h₁
      cases m₂ with
      | none =>
          obtain rfl : noInput = text₂ := Except.ok.inj h₂
          exact ⟨rfl, Option.Rel.none⟩
      | some s₂ =>
          obtain ⟨c₂, -, -, rfl⟩ := exists_content_of_scriptText h₂
          exact absurd hbegins
            (SchemaContent.not_noInput_prefix_script config.toLayout c₂)
  | some s₁ =>
      obtain ⟨c₁, hc₁, -, rfl⟩ := exists_content_of_scriptText h₁
      cases m₂ with
      | none =>
          obtain rfl : noInput = text₂ := Except.ok.inj h₂
          exact absurd hbegins
            (SchemaContent.not_script_prefix_noInput config.toLayout c₁)
      | some s₂ =>
          obtain ⟨c₂, hc₂, -, rfl⟩ := exists_content_of_scriptText h₂
          obtain rfl : c₁ = c₂ :=
            SchemaContent.eq_of_script_prefix hblank hbegins
          exact ⟨rfl, Option.Rel.some ⟨c₁, hc₁, hc₂⟩⟩

/-- A set of a hostile name says the same as a set of a plain name with a table
of the hostile name. -/
theorem sameContent_of_prefix_scriptText_hostileName :
    Option.Rel (StoreSchema.SameContent (.ofVersion .firebird3))
      (some (Sample.tableOf (.named Sample.hostileName)))
      (some
        (Sample.tableOf
          ((EntitySet.named "A").withTable Sample.hostileName))) := by
  have hblank : ({} : Config).HasBlankIndent := by decide
  exact (sameContent_of_prefix_scriptText hblank rfl rfl List.prefix_rfl).2

end Generator

end FirebirdSchema
