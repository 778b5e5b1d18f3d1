import FirebirdSchema.Proofs.Tokens
import FirebirdSchema.Sample

/-!
# Names stay within their quotes

What a tokenizer finds in a script besides keywords: three comments, the names
of the schema in the order in which they are written, the markers as the only
strings, and one semicolon for every statement.  All of it depends on the schema
and the server only, not on the layout.
-/

namespace FirebirdSchema

open Sql Sql.Token

/-! ## Views of tokens -/

namespace Sql.Token

/-- The text of a comment. -/
def comment? : Token → Option String
  | comment text => some text
  | _ => none

/-- The name of an identifier. -/
def identifier? : Token → Option String
  | identifier name => some name
  | _ => none

/-- A token of a column or a key: no comment, no string and no end of a
statement. -/
def IsPlain : Token → Prop
  | comment _ | string _ => False
  | symbol c => c ≠ ';'
  | word _ | number _ | identifier _ => True

instance : DecidablePred IsPlain
  | comment _ | string _ => inferInstanceAs (Decidable False)
  | symbol c => inferInstanceAs (Decidable (c ≠ ';'))
  | word _ | number _ | identifier _ => inferInstanceAs (Decidable True)

theorem filterMap_comment?_of_isPlain {tokens : List Token}
    (h : ∀ t ∈ tokens, t.IsPlain) :
    tokens.filterMap comment? = [] := by
  rw [List.filterMap_eq_nil_iff]
  intro t ht
  have hplain := h t ht
  cases t with
  | comment text => exact absurd hplain id
  | _ => rfl

theorem count_semicolon_of_isPlain {tokens : List Token}
    (h : ∀ t ∈ tokens, t.IsPlain) :
    tokens.count (symbol ';') = 0 := by
  rw [List.count_eq_zero]
  intro hmem
  exact h _ hmem rfl

end Sql.Token

/-! ## Names -/

/-- The names in the definition of a column. -/
def ColumnContent.identifiers (c : ColumnContent) : List String :=
  if c.isTruthValue then [c.name, c.name] else [c.name]

/-- The names in a table block. -/
def TableContent.identifiers (t : TableContent) : List String :=
  [t.name] ++ t.columns.flatMap ColumnContent.identifiers ++
    ["PK_" ++ t.name] ++
    t.keyMembers ++ t.comments.flatMap fun entry => [t.name, entry.1]

/-- The names in a foreign key. -/
def ForeignKeyContent.identifiers (k : ForeignKeyContent) : List String :=
  [k.table] ++ ["FK_" ++ k.name] ++ k.columns ++ [k.principal] ++
    k.principalColumns

/-- The names in a script. -/
def SchemaContent.identifiers (c : SchemaContent) : List String :=
  c.tables.flatMap TableContent.identifiers ++
    c.foreignKeys.flatMap ForeignKeyContent.identifiers

theorem mem_nameTokens {names : List String} {t : Token}
    (h : t ∈ nameTokens names) :
    t = symbol ',' ∨ ∃ name, t = identifier name := by
  cases names with
  | nil => cases h
  | cons name names =>
      simp [nameTokens, separated] at h
      rcases h with h | ⟨name', -, h | h⟩
      · exact Or.inr ⟨name, h⟩
      · exact Or.inl h
      · exact Or.inr ⟨name', h⟩

theorem filterMap_identifier?_nameTokens (names : List String) :
    (nameTokens names).filterMap identifier? = names := by
  cases names with
  | nil => rfl
  | cons name names =>
      simp [nameTokens, separated, List.filterMap_flatMap, List.filterMap_cons,
        identifier?]

theorem isPlain_nameTokens (names : List String) :
    ∀ t ∈ nameTokens names, t.IsPlain := by
  intro t ht
  rcases mem_nameTokens ht with rfl | ⟨name, rfl⟩
  · exact (by decide : ',' ≠ ';')
  · trivial

/-! ## Columns -/

namespace ColumnType

theorem isPlain_charsetTokens (charset : Option CharacterSet) :
    ∀ t ∈ charsetTokens charset, t.IsPlain := by
  cases charset <;> simp [charsetTokens, IsPlain]

theorem isPlain_tokens (type : ColumnType) : ∀ t ∈ type.tokens, t.IsPlain := by
  cases type with
  | char length charset | varchar length charset | blob content charset =>
      simpa [tokens, IsPlain, or_imp,
        forall_and] using isPlain_charsetTokens charset
  | _ => simp [tokens, IsPlain]

theorem filterMap_identifier?_tokens (type : ColumnType) :
    type.tokens.filterMap identifier? = [] := by
  have hcharset : ∀ charset,
      (charsetTokens charset).filterMap identifier? = [] := by
    intro charset
    cases charset <;> rfl
  cases type with
  | char length charset | varchar length charset | blob content charset =>
      exact hcharset charset
  | _ => rfl

end ColumnType

namespace ColumnContent

theorem isPlain_tokens (c : ColumnContent) : ∀ t ∈ c.tokens, t.IsPlain := by
  have htype := c.type.isPlain_tokens
  unfold tokens
  cases c.isTruthValue <;> cases c.nullable <;>
    simp [checkTokens, nullTokens, IsPlain, or_imp, forall_and] <;> exact htype

theorem filterMap_identifier?_tokens (c : ColumnContent) :
    c.tokens.filterMap identifier? = c.identifiers := by
  have htype := c.type.filterMap_identifier?_tokens
  unfold tokens identifiers
  cases c.isTruthValue <;> cases c.nullable <;>
    simp [checkTokens, nullTokens, identifier?, List.filterMap_cons, htype]

end ColumnContent

/-! ## Tables and foreign keys -/

namespace TableContent

theorem filterMap_identifier?_tokens (t : TableContent) :
    t.tokens.filterMap identifier? = t.identifiers := by
  simp [tokens, identifiers, commentTokens, identifier?, List.filterMap_cons,
    List.filterMap_flatMap, ColumnContent.filterMap_identifier?_tokens,
    filterMap_identifier?_nameTokens]

theorem isPlain_columnTokens (t : TableContent) :
    ∀ token ∈ t.columns.flatMap ColumnContent.tokens, token.IsPlain := by
  intro token htoken
  obtain ⟨c, -, hc⟩ := List.mem_flatMap.mp htoken
  exact c.isPlain_tokens token hc

theorem filterMap_comment?_tokens (t : TableContent) :
    t.tokens.filterMap comment? = [] := by
  have hcolumns := filterMap_comment?_of_isPlain t.isPlain_columnTokens
  have hkeys := filterMap_comment?_of_isPlain (isPlain_nameTokens t.keyMembers)
  have hcomments : (t.comments.flatMap (commentTokens t.name)).filterMap
      comment? = [] := by
    rw [List.filterMap_flatMap, List.flatMap_eq_nil_iff]
    intro entry _
    rfl
  simp [tokens, comment?, List.filterMap_cons, hcolumns, hkeys, hcomments]

theorem count_semicolon_tokens (t : TableContent) :
    t.tokens.count (symbol ';') = 1 + t.comments.length := by
  have hcolumns := count_semicolon_of_isPlain t.isPlain_columnTokens
  have hkeys := count_semicolon_of_isPlain (isPlain_nameTokens t.keyMembers)
  have hcomment : ∀ entry,
      (commentTokens t.name entry).count (symbol ';') = 1 := by
    intro entry
    simp [commentTokens]
  have hcomments : (t.comments.flatMap (commentTokens t.name)).count
    (symbol ';') =
      t.comments.length := by
    simp [List.count_flatMap, Function.comp_def, hcomment]
  simp [tokens, hcolumns, hkeys, hcomments, Nat.add_comm]

theorem exists_marker_of_string_mem {t : TableContent} {tag : String}
    (h : string tag ∈ t.tokens) : ∃ m : Marker, m.text = tag := by
  have hcolumns : string tag ∉ t.columns.flatMap ColumnContent.tokens :=
    t.isPlain_columnTokens (string tag)
  have hkeys : string tag ∉ nameTokens t.keyMembers :=
    isPlain_nameTokens t.keyMembers (string tag)
  simp only [tokens, List.mem_append, hcolumns, hkeys, List.mem_flatMap] at h
  simp [commentTokens] at h
  obtain ⟨_, marker, -, hmarker⟩ := h
  exact ⟨marker, hmarker.symm⟩

end TableContent

namespace ForeignKeyContent

theorem isPlain_ruleTokens (rule : DeleteRule) :
    ∀ t ∈ rule.tokens, t.IsPlain := by
  cases rule <;> simp [DeleteRule.tokens, IsPlain]

theorem filterMap_identifier?_tokens (k : ForeignKeyContent) :
    k.tokens.filterMap identifier? = k.identifiers := by
  have hrule : k.deleteRule.tokens.filterMap identifier? = [] := by
    cases k.deleteRule <;> rfl
  simp [tokens, identifiers, identifier?, List.filterMap_cons,
    filterMap_identifier?_nameTokens, hrule]

/-- A foreign key is one statement. -/
theorem exists_isPlain_tokens (k : ForeignKeyContent) :
    ∃ body, (∀ t ∈ body, t.IsPlain) ∧ k.tokens = body ++ [symbol ';'] := by
  refine ⟨_, ?_, rfl⟩
  have hcolumns := isPlain_nameTokens k.columns
  have hprincipals := isPlain_nameTokens k.principalColumns
  have hrule := isPlain_ruleTokens k.deleteRule
  simp only [List.forall_mem_append]
  simp [IsPlain]
  exact ⟨⟨hcolumns, hprincipals⟩, hrule⟩

theorem filterMap_comment?_tokens (k : ForeignKeyContent) :
    k.tokens.filterMap comment? = [] := by
  obtain ⟨body, hbody, htokens⟩ := k.exists_isPlain_tokens
  rw [htokens, List.filterMap_append, filterMap_comment?_of_isPlain hbody]
  rfl

theorem count_semicolon_tokens (k : ForeignKeyContent) :
    k.tokens.count (symbol ';') = 1 := by
  obtain ⟨body, hbody, htokens⟩ := k.exists_isPlain_tokens
  rw [htokens, List.count_append, count_semicolon_of_isPlain hbody]
  rfl

theorem string_not_mem_tokens (k : ForeignKeyContent) (tag : String) :
    string tag ∉ k.tokens := by
  obtain ⟨body, hbody, htokens⟩ := k.exists_isPlain_tokens
  rw [htokens, List.mem_append, List.mem_singleton]
  intro h
  rcases h with h | h
  · exact hbody _ h
  · cases h

end ForeignKeyContent

/-! ## Scripts -/

namespace SchemaContent

theorem filterMap_comment?_tokens (c : SchemaContent) :
    c.tokens.filterMap comment? = ["-- Tables", "-- Foreign Key Constraints",
      "-- EOF"] := by
  have htables : (c.tables.flatMap TableContent.tokens).filterMap comment? =
      [] := by
    rw [List.filterMap_flatMap, List.flatMap_eq_nil_iff]
    intro t _
    exact t.filterMap_comment?_tokens
  have hkeys : (c.foreignKeys.flatMap ForeignKeyContent.tokens).filterMap
      comment? = [] := by
    rw [List.filterMap_flatMap, List.flatMap_eq_nil_iff]
    intro k _
    exact k.filterMap_comment?_tokens
  simp [tokens, comment?, htables, hkeys]

theorem filterMap_identifier?_tokens (c : SchemaContent) :
    c.tokens.filterMap identifier? = c.identifiers := by
  simp [tokens, identifiers, identifier?, List.filterMap_cons,
    List.filterMap_flatMap, TableContent.filterMap_identifier?_tokens,
    ForeignKeyContent.filterMap_identifier?_tokens]

theorem mem_tags_of_string_mem {c : SchemaContent} {tag : String}
    (h : string tag ∈ c.tokens) :
    tag ∈ ["#BOOL#", "#GUID#", "#PK_GEN#"] := by
  have hmarker : ∃ m : Marker, m.text = tag := by
    simp only [tokens, List.mem_append, List.mem_flatMap] at h
    simp [ForeignKeyContent.string_not_mem_tokens] at h
    obtain ⟨t, -, ht⟩ := h
    exact TableContent.exists_marker_of_string_mem ht
  obtain ⟨m, rfl⟩ := hmarker
  cases m <;> simp [Marker.text]

theorem count_semicolon_tokens (c : SchemaContent) :
    c.tokens.count (symbol ';') =
      c.tables.length + (c.tables.flatMap TableContent.comments).length +
        c.foreignKeys.length := by
  have htables : (c.tables.flatMap TableContent.tokens).count (symbol ';') =
      c.tables.length + (c.tables.flatMap TableContent.comments).length := by
    induction c.tables with
    | nil => rfl
    | cons t ts ih =>
        simp only [List.flatMap_cons, List.count_append,
          t.count_semicolon_tokens, ih, List.length_cons, List.length_append]
        omega
  have hkeys : (c.foreignKeys.flatMap ForeignKeyContent.tokens).count
    (symbol ';') =
      c.foreignKeys.length := by
    induction c.foreignKeys with
    | nil => rfl
    | cons k ks ih =>
        rw [List.flatMap_cons, List.count_append, k.count_semicolon_tokens, ih,
          List.length_cons, Nat.add_comm]
  simp [tokens, htables, hkeys]

end SchemaContent

/-! ## Generators -/

namespace Generator

/-- The tokens of a script are those of the content of its schema: three
comments, the names in their places, markers as strings, and one semicolon for
every statement.  The layout of the script does not matter. -/
theorem tokens_of_scriptText {f : Firebird} {config : Config}
    (hblank : config.HasBlankIndent) {s : StoreSchema} {text : String}
    (h : scriptText ⟨config, f.dialect⟩ (some s) = .ok text) :
    ∃ c, s.content f = .ok c ∧ tokens? text = some c.tokens ∧
      c.tokens.filterMap comment? = ["-- Tables", "-- Foreign Key Constraints",
        "-- EOF"] ∧
      c.tokens.filterMap identifier? = c.identifiers ∧
      (∀ tag, string tag ∈ c.tokens → tag ∈ ["#BOOL#", "#GUID#", "#PK_GEN#"]) ∧
      c.tokens.count (symbol ';') =
        s.entitySets.length + (c.tables.flatMap TableContent.comments).length +
          s.relationships.length ∧
      ∀ config' : Config, config'.HasBlankIndent →
        ∃ text', scriptText ⟨config', f.dialect⟩ (some s) = .ok text' ∧
          tokens? text' = some c.tokens := by
  obtain ⟨c, hc, hscript, rfl⟩ := exists_content_of_scriptText h
  obtain ⟨htables, hforeignKeys⟩ := StoreSchema.length_content hc
  have htokens : tokens? (config.script c.script) = some c.tokens :=
    SchemaContent.tokens?_script hblank c
  have hsemicolons := c.count_semicolon_tokens
  rw [htables, hforeignKeys] at hsemicolons
  have hlayouts : ∀ config' : Config, config'.HasBlankIndent →
      ∃ text', scriptText ⟨config', f.dialect⟩ (some s) = .ok text' ∧
        tokens? text' = some c.tokens := by
    intro config' hblank'
    have htext' : scriptText ⟨config', f.dialect⟩ (some s) =
        .ok (config'.script c.script) :=
      Traversal.map_eq_ok_iff.mpr ⟨c.script, hscript, rfl⟩
    exact ⟨_, htext', SchemaContent.tokens?_script hblank' c⟩
  exact ⟨c, hc, htokens, c.filterMap_comment?_tokens,
    c.filterMap_identifier?_tokens,
    fun _ => SchemaContent.mem_tags_of_string_mem, hsemicolons, hlayouts⟩

/-- The names in the script of a table with a hostile name. -/
theorem tokens_of_scriptText_hostileName :
    ∃ text, standard.scriptText
      (some (Sample.tableOf (.named Sample.hostileName))) = .ok text ∧
      (tokens? text).map (List.filterMap identifier?) =
        some [Sample.hostileName, "ID", "PK_" ++ Sample.hostileName, "ID"] := by
  have hblank : ({} : Config).HasBlankIndent := by decide
  have htext : ∃ text,
      standard.scriptText (some (Sample.tableOf (.named Sample.hostileName))) =
        .ok text :=
    ⟨_, rfl⟩
  obtain ⟨text, htext⟩ := htext
  obtain ⟨c, hc, htokens, -, hidentifiers, -⟩ :=
    tokens_of_scriptText hblank htext
  obtain rfl := Except.ok.inj hc
  refine ⟨text, htext, ?_⟩
  rw [htokens, Option.map_some, hidentifiers]
  rfl

end Generator

end FirebirdSchema
