import FirebirdSchema.Proofs.Quotation

/-!
# Line endings

A layout writes its line ending wherever a line of a script ends, and nothing
else that it writes holds a line feed, as long as no name and no indentation
brings one along.  So the script with carriage returns and line feeds is the
script with line feeds, where a carriage return is put before every line feed.
Whether there is a script does not depend on the layout at all.
-/

namespace FirebirdSchema

open Traversal

/-! ## Carriage returns -/

namespace Text

/-- A text with a carriage return put before every line feed. -/
def crlf (cs : List Char) : List Char :=
  cs.flatMap fun c => if c = '\n' then ['\r', '\n'] else [c]

/-- A text with a carriage return put before every line feed. -/
def withCarriageReturns (text : String) : String :=
  String.ofList (crlf text.toList)

/-- A name without line feeds. -/
def IsSingleLine (name : String) : Prop :=
  '\n' ∉ name.toList

instance (name : String) : Decidable (IsSingleLine name) :=
  inferInstanceAs (Decidable ('\n' ∉ name.toList))

theorem crlf_append (cs ds : List Char) :
    crlf (cs ++ ds) = crlf cs ++ crlf ds :=
  List.flatMap_append

theorem crlf_flatMap {α : Type} (code : α → List Char) (xs : List α) :
    crlf (xs.flatMap code) = xs.flatMap fun x => crlf (code x) :=
  List.flatMap_assoc

theorem crlf_separated {α : Type} (separator : List Char) (code : α → List Char)
    (xs : List α) :
    crlf (separated separator code xs) =
      separated (crlf separator) (fun x => crlf (code x)) xs := by
  cases xs with
  | nil => rfl
  | cons x xs => simp only [separated, crlf_append, crlf_flatMap]

theorem separated_congr {α β : Type} {separator : List β}
    {code code' : α → List β} {xs : List α} (h : ∀ x ∈ xs, code x = code' x) :
    separated separator code xs = separated separator code' xs := by
  cases xs with
  | nil => rfl
  | cons x xs =>
      obtain ⟨hx, hxs⟩ := List.forall_mem_cons.mp h
      have htail : (xs.flatMap fun y => separator ++ code y) =
          xs.flatMap fun y => separator ++ code' y := by
        apply List.flatMap_congr
        intro y hy
        rw [hxs y hy]
      rw [separated, separated, hx, htail]

theorem crlf_eq_self {cs : List Char} (h : '\n' ∉ cs) : crlf cs = cs := by
  have hchar : ∀ c ∈ cs, (if c = '\n' then ['\r', '\n'] else [c]) = [c] := by
    intro c hc
    have hother : c ≠ '\n' := ne_of_mem_of_not_mem hc h
    rw [if_neg hother]
  rw [crlf, List.flatMap_congr hchar, List.flatMap_singleton']

/-- Behind the replacement, a carriage return stands before every line feed. -/
theorem exists_carriageReturn_of_crlf {cs before after : List Char}
    (h : crlf cs = before ++ '\n' :: after) :
    ∃ start, before = start ++ ['\r'] := by
  induction cs generalizing before with
  | nil => simp [crlf] at h
  | cons c cs ih =>
      by_cases hc : c = '\n'
      · have hpair : crlf (c :: cs) = '\r' :: '\n' :: crlf cs := by
          simp [crlf, hc]
        rw [hpair] at h
        match before with
        | [] => simp at h
        | [d] =>
            obtain ⟨rfl, -⟩ := List.cons.inj h
            exact ⟨[], rfl⟩
        | d :: d' :: before =>
            obtain ⟨-, htail⟩ := List.cons.inj h
            obtain ⟨start, rfl⟩ := ih (List.cons.inj htail).2
            exact ⟨d :: d' :: start, rfl⟩
      · have hsame : crlf (c :: cs) = c :: crlf cs := by simp [crlf, hc]
        rw [hsame] at h
        match before with
        | [] => exact absurd (List.cons.inj h).1 hc
        | d :: before =>
            obtain ⟨start, rfl⟩ := ih (List.cons.inj h).2
            exact ⟨d :: start, rfl⟩

end Text

open Text

/-! ## Pieces without line feeds -/

theorem not_mem_quotedChars {name : String} (h : IsSingleLine name) :
    '\n' ∉ quotedChars name := by
  have hdouble : ∀ cs : List Char, '\n' ∉ cs → '\n' ∉ Quoted.double cs := by
    intro cs hcs
    induction cs with
    | nil => exact hcs
    | cons c cs ih =>
        obtain ⟨hc, hrest⟩ := List.ne_and_not_mem_of_not_mem_cons hcs
        have htail := ih hrest
        by_cases hquote : c = '"'
        · simp [Quoted.double, hquote, htail]
        · simp [Quoted.double, hquote, hc, htail]
  simpa [quotedChars, Quoted.encode] using hdouble name.toList h

theorem not_mem_toDigits (n : Nat) : '\n' ∉ Nat.toDigits 10 n := by
  intro h
  have hdigit := Nat.isDigit_of_mem_toDigits (by decide) (by decide) h
  exact absurd hdigit (by decide)

theorem crlf_quotedChars {name : String} (h : IsSingleLine name) :
    crlf (quotedChars name) = quotedChars name :=
  crlf_eq_self (not_mem_quotedChars h)

theorem crlf_quotedListChars {names : List String}
    (h : ∀ name ∈ names, IsSingleLine name) :
    crlf (quotedListChars names) = quotedListChars names := by
  have hseparator : crlf ", ".toList = ", ".toList := crlf_eq_self (by decide)
  rw [quotedListChars, crlf_separated, hseparator]
  exact separated_congr fun name hname => crlf_quotedChars (h name hname)

theorem ColumnType.crlf_sql (type : ColumnType) :
    crlf type.sql.toList = type.sql.toList := by
  have hclause : ∀ charset, '\n' ∉ (charsetClause charset).toList := by
    intro charset
    cases charset with
    | none => decide
    | some charset => cases charset <;> decide
  apply crlf_eq_self
  cases type with
  | decimal precision scale => simp [toList_sql_decimal, not_mem_toDigits]
  | char length charset => simp [toList_sql_char, not_mem_toDigits, hclause]
  | varchar length charset => simp [toList_sql_varchar,
      not_mem_toDigits, hclause]
  | blob content charset =>
      have hcontent : '\n' ∉ content.sql.toList := by cases content <;> decide
      simp [toList_sql_blob, hcontent, hclause]
  | _ => decide

/-! ## Statements -/

/-- The layout that ends its lines with line feeds. -/
def Layout.lf (layout : Layout) : Layout :=
  { layout with lineEnding := .lf }

/-- The layout that ends its lines with carriage returns and line feeds. -/
def Layout.crlf (layout : Layout) : Layout :=
  { layout with lineEnding := .crlf }

theorem Layout.crlf_newline (layout : Layout) :
    Text.crlf layout.lf.newline = layout.crlf.newline := by
  have hlf : layout.lf.newline = ['\n'] := by
    simp [newline, lf, LineEnding.text]
  have hcrlf : layout.crlf.newline = ['\r', '\n'] := by
    simp [newline, crlf, LineEnding.text]
  rw [hlf, hcrlf]
  rfl

variable {layout : Layout}

namespace ColumnContent

variable {c : ColumnContent}

theorem mem_identifiers {name : String} :
    name ∈ c.identifiers ↔ name = c.name := by
  unfold identifiers
  cases c.isTruthValue <;> simp

theorem not_mem_checkChars {name : String} (h : IsSingleLine name)
    (isTruthValue : Bool) :
    '\n' ∉ checkChars name isTruthValue := by
  cases isTruthValue with
  | true =>
      have hcheck : checkChars name true =
          " CHECK (".toList ++ (quotedChars name ++ " IN (1,0))".toList) := rfl
      simp [hcheck, not_mem_quotedChars h]
  | false => exact List.not_mem_nil

theorem not_mem_nullChars (nullable : Bool) : '\n' ∉ nullChars nullable := by
  cases nullable <;> decide

theorem crlf_chars (hindent : IsSingleLine layout.indent)
    (h : IsSingleLine c.name) :
    crlf (c.chars layout.lf) = c.chars layout.crlf := by
  have hindent : crlf layout.lf.indent.toList = layout.crlf.indent.toList :=
    crlf_eq_self hindent
  have hcheck := crlf_eq_self (not_mem_checkChars h c.isTruthValue)
  have hnull := crlf_eq_self (not_mem_nullChars c.nullable)
  unfold chars
  simp (disch := decide) only [crlf_append, hindent, crlf_quotedChars h,
    c.type.crlf_sql, hcheck, hnull, layout.crlf_newline, crlf_eq_self]

end ColumnContent

namespace TableContent

variable {t : TableContent}

theorem crlf_commentChars {table : String} {entry : String × Marker}
    (htable : IsSingleLine table) (hentry : IsSingleLine entry.1) :
    crlf (commentChars layout.lf table entry) =
      commentChars layout.crlf table entry := by
  have hmarker : crlf entry.2.text.toList = entry.2.text.toList := by
    apply crlf_eq_self
    cases entry.2 <;> decide
  unfold commentChars
  simp (disch := decide) only [crlf_append, crlf_quotedChars htable,
    crlf_quotedChars hentry, hmarker, layout.crlf_newline, crlf_eq_self]

theorem crlf_chars (hindent : IsSingleLine layout.indent)
    (h : ∀ name ∈ t.identifiers, IsSingleLine name) :
    crlf (t.chars layout.lf) = t.chars layout.crlf := by
  simp only [identifiers, List.forall_mem_append, List.forall_mem_singleton,
    List.forall_mem_flatMap] at h
  obtain ⟨⟨⟨⟨hname, hcolumns⟩, hkeyName⟩, hkeyMembers⟩, hcomments⟩ := h
  have hcolumnChars : (t.columns.flatMap fun c => crlf (c.chars layout.lf)) =
      t.columns.flatMap (ColumnContent.chars layout.crlf) := by
    apply List.flatMap_congr
    intro c hc
    exact c.crlf_chars hindent
      (hcolumns c hc c.name (ColumnContent.mem_identifiers.mpr rfl))
  have hcommentChars :
      (t.comments.flatMap fun entry =>
          crlf (commentChars layout.lf t.name entry)) =
        t.comments.flatMap (commentChars layout.crlf t.name) := by
    apply List.flatMap_congr
    intro entry hentry
    exact crlf_commentChars hname (hcomments entry hentry entry.1 (by simp))
  unfold chars
  simp (disch := decide) only [crlf_append, crlf_flatMap, hcolumnChars,
    hcommentChars, crlf_quotedChars hname, crlf_quotedChars hkeyName,
    crlf_quotedListChars hkeyMembers, layout.crlf_newline, crlf_eq_self]

end TableContent

theorem ForeignKeyContent.crlf_chars {k : ForeignKeyContent}
    (h : ∀ name ∈ k.identifiers, IsSingleLine name) :
    crlf (k.chars layout.lf) = k.chars layout.crlf := by
  simp only [identifiers, List.forall_mem_append,
    List.forall_mem_singleton] at h
  obtain ⟨⟨⟨⟨htable, hname⟩, hcolumns⟩, hprincipal⟩, hprincipalColumns⟩ := h
  have hrule : crlf k.deleteRule.sql.toList = k.deleteRule.sql.toList := by
    apply crlf_eq_self
    cases k.deleteRule <;> decide
  unfold chars
  simp (disch := decide) only [crlf_append, crlf_quotedChars htable,
    crlf_quotedChars hname, crlf_quotedListChars hcolumns,
    crlf_quotedChars hprincipal, crlf_quotedListChars hprincipalColumns, hrule,
    layout.crlf_newline, crlf_eq_self]

theorem SchemaContent.crlf_chars (hindent : IsSingleLine layout.indent)
    {c : SchemaContent} (h : ∀ name ∈ c.identifiers, IsSingleLine name) :
    crlf (c.chars layout.lf) = c.chars layout.crlf := by
  simp only [identifiers, List.forall_mem_append, List.forall_mem_flatMap] at h
  obtain ⟨htables, hforeignKeys⟩ := h
  have htableChars :
      separated layout.crlf.newline (fun t => crlf (t.chars layout.lf))
          c.tables =
        separated layout.crlf.newline (TableContent.chars layout.crlf)
          c.tables :=
    separated_congr fun t ht => t.crlf_chars hindent (htables t ht)
  have hkeyChars :
      separated layout.crlf.newline (fun k => crlf (k.chars layout.lf))
          c.foreignKeys =
        separated layout.crlf.newline (ForeignKeyContent.chars layout.crlf)
          c.foreignKeys :=
    separated_congr fun k hk => k.crlf_chars (hforeignKeys k hk)
  unfold chars
  simp (disch := decide) only [crlf_append, crlf_separated, htableChars,
    hkeyChars, layout.crlf_newline, crlf_eq_self]

/-! ## Schemas without line feeds in names -/

/-- An entity set whose table and columns have names without line feeds. -/
structure EntitySet.HasSingleLineNames (e : EntitySet) : Prop where
  table : IsSingleLine e.tableName
  properties : ∀ p ∈ e.properties, IsSingleLine p.name

/-- A relationship set that has a name without line feeds and pairs columns with
such names. -/
structure Relationship.HasSingleLineNames (r : Relationship) : Prop where
  name : IsSingleLine r.name
  columns : ∀ c ∈ r.constraints, ∀ column ∈ c.principalColumns ++
    c.dependentColumns,
    IsSingleLine column

/-- A schema with names without line feeds, as far as they are written in its
script. -/
structure StoreSchema.HasSingleLineNames (s : StoreSchema) : Prop where
  entitySets : ∀ e ∈ s.entitySets, e.HasSingleLineNames
  relationships : ∀ r ∈ s.relationships, r.HasSingleLineNames

theorem Text.IsSingleLine.append {lead name : String}
    (hlead : IsSingleLine lead) (hname : IsSingleLine name) :
    IsSingleLine (lead ++ name) := by
  unfold IsSingleLine
  rw [String.toList_append, List.mem_append, not_or]
  exact ⟨hlead, hname⟩

variable {f : Firebird}

theorem EntitySet.HasSingleLineNames.of_mem_identifiers {e : EntitySet}
    {t : TableContent} (h : e.HasSingleLineNames) (ht : e.content f = .ok t) :
    ∀ name ∈ t.identifiers, IsSingleLine name := by
  obtain ⟨keys, hkeys, hrest⟩ := bind_eq_ok_iff.mp ht
  obtain ⟨columns, hcolumns, hcontent⟩ := bind_eq_ok_iff.mp hrest
  obtain rfl := Except.ok.inj hcontent
  have hdeclared : ∀ {name}, (∃ p ∈ e.properties, p.name = name) →
      IsSingleLine name := by
    rintro name ⟨p, hp, rfl⟩
    exact h.properties p hp
  obtain ⟨-, hmembers⟩ := EntitySet.exists_keyProperties_iff.mp ⟨keys, hkeys⟩
  have hmarked : ∀ entry ∈ (Markers.ofProperties e.properties keys).entries,
      ∃ p ∈ e.properties, p.name = entry.1 := by
    intro entry hentry
    exact Markers.exists_property_of_mem_ofProperties
      (EntitySet.mem_properties_of_keyProperties hkeys)
        (List.mem_map_of_mem hentry)
  simp only [TableContent.identifiers, List.forall_mem_append,
    List.forall_mem_singleton, List.forall_mem_flatMap]
  refine ⟨⟨⟨⟨h.table, ?_⟩, IsSingleLine.append (by decide) h.table⟩, ?_⟩, ?_⟩
  · intro c hc name hname
    obtain ⟨p, hp, hpc⟩ := exists_argument_mem hcolumns hc
    obtain ⟨type, -, hcolumn⟩ := bind_eq_ok_iff.mp hpc
    obtain rfl := Except.ok.inj hcolumn
    rw [ColumnContent.mem_identifiers.mp hname]
    exact h.properties p hp
  · intro member hmember
    exact hdeclared (hmembers member hmember)
  · intro entry hentry name hname
    rcases List.mem_pair.mp hname with rfl | rfl
    · exact h.table
    · exact hdeclared (hmarked entry hentry)

theorem Relationship.HasSingleLineNames.of_mem_identifiers {s : StoreSchema}
    {r : Relationship} {k : ForeignKeyContent}
    (hsets : ∀ e ∈ s.entitySets, e.HasSingleLineNames)
    (h : r.HasSingleLineNames) (hk : s.relationshipContent r = .ok k) :
    ∀ name ∈ k.identifiers, IsSingleLine name := by
  obtain ⟨b, hb, hrest⟩ := bind_eq_ok_iff.mp hk
  obtain ⟨principalSet, hprincipalSet, hrest⟩ := bind_eq_ok_iff.mp hrest
  obtain ⟨dependentSet, hdependentSet, hcontent⟩ := bind_eq_ok_iff.mp hrest
  obtain rfl := Except.ok.inj hcontent
  obtain ⟨hconstraint, -⟩ := Relationship.binding_eq_ok_iff.mp hb
  have hcolumns :=
    h.columns b.constraint
      (by rw [hconstraint]; exact List.mem_singleton_self _)
  have htable : ∀ {relationshipEnd e},
    s.boundEntitySet relationshipEnd = .ok e →
      IsSingleLine e.tableName := by
    intro relationshipEnd e he
    have hfound := StoreSchema.boundEntitySet_eq_ok_iff.mp he
    exact (hsets e (StoreSchema.mem_entitySets_of_entitySet? hfound)).table
  rw [List.forall_mem_append] at hcolumns
  simp only [ForeignKeyContent.identifiers, List.forall_mem_append,
    List.forall_mem_singleton]
  exact ⟨⟨⟨⟨htable hdependentSet, IsSingleLine.append (by decide) h.name⟩,
    hcolumns.2⟩, htable hprincipalSet⟩, hcolumns.1⟩

theorem StoreSchema.HasSingleLineNames.of_mem_identifiers {s : StoreSchema}
    {c : SchemaContent} (h : s.HasSingleLineNames) (hc : s.content f = .ok c) :
    ∀ name ∈ c.identifiers, IsSingleLine name := by
  obtain ⟨tables, htables, hrest⟩ := bind_eq_ok_iff.mp hc
  obtain ⟨foreignKeys, hforeignKeys, hcontent⟩ := bind_eq_ok_iff.mp hrest
  obtain rfl := Except.ok.inj hcontent
  simp only [SchemaContent.identifiers, List.forall_mem_append,
    List.forall_mem_flatMap]
  constructor
  · intro t ht
    obtain ⟨e, he, het⟩ := exists_argument_mem htables ht
    exact (h.entitySets e he).of_mem_identifiers het
  · intro k hk
    obtain ⟨r, hr, hrk⟩ := exists_argument_mem hforeignKeys hk
    exact (h.relationships r hr).of_mem_identifiers h.entitySets hrk

/-! ## Scripts -/

namespace Generator

theorem scriptText_eq_error_iff {g : Generator} {s : StoreSchema}
    {fault : Fault} :
    g.scriptText (some s) = .error fault ↔
      Script.ofSchema g.dialect s = .error fault :=
  map_eq_error_iff

theorem scriptText_crlf {config : Config} {s : StoreSchema} {text : String}
    (hindent : IsSingleLine config.indent) (hs : s.HasSingleLineNames)
    (h : scriptText ⟨{ config with lineEnding := .lf }, f.dialect⟩ (some s) =
      .ok text) :
    scriptText ⟨{ config with lineEnding := .crlf }, f.dialect⟩ (some s) =
      .ok (withCarriageReturns text) := by
  obtain ⟨c, hc, hscript, rfl⟩ := exists_content_of_scriptText h
  refine map_eq_ok_iff.mpr ⟨c.script, hscript, ?_⟩
  apply String.toList_inj.mp
  rw [withCarriageReturns, String.toList_ofList]
  calc
    (config.toLayout.crlf.script c.script).toList =
        c.chars config.toLayout.crlf :=
      c.toList_script _
    _ = Text.crlf (c.chars config.toLayout.lf) :=
      (c.crlf_chars hindent (hs.of_mem_identifiers hc)).symm
    _ = Text.crlf (config.toLayout.lf.script c.script).toList := by
      rw [c.toList_script]

/-- Two layouts that differ in the line ending give a schema the same fault, if
it has one.  When neither the names in the script nor the indentation hold a
line feed, the script with carriage returns is the other one with a carriage
return put before every line feed, and so none of its line feeds stands
alone. -/
theorem scriptText_of_line_ending (config : Config) (f : Firebird)
    (s : Option StoreSchema) :
    (∀ fault,
        scriptText ⟨{ config with lineEnding := .lf }, f.dialect⟩ s =
            .error fault ↔
          scriptText ⟨{ config with lineEnding := .crlf }, f.dialect⟩ s =
            .error fault) ∧
      ((∀ schema ∈ s, schema.HasSingleLineNames) → IsSingleLine config.indent →
        ∀ text,
          scriptText ⟨{ config with lineEnding := .lf }, f.dialect⟩ s =
              .ok text →
            scriptText ⟨{ config with lineEnding := .crlf }, f.dialect⟩ s =
                .ok (withCarriageReturns text) ∧
              ∀ before after,
                (withCarriageReturns text).toList = before ++ '\n' :: after →
                  ∃ start, before = start ++ ['\r']) := by
  constructor
  · intro fault
    cases s with
    | none => exact Iff.rfl
    | some s => rw [scriptText_eq_error_iff, scriptText_eq_error_iff]
  · intro hs hindent text h
    constructor
    · cases s with
      | none =>
          obtain rfl := Except.ok.inj h
          rfl
      | some s => exact scriptText_crlf hindent (hs s rfl) h
    · intro before after hsplit
      rw [withCarriageReturns, String.toList_ofList] at hsplit
      exact exists_carriageReturn_of_crlf hsplit

/-- The name of a table may hold a carriage return of its own. -/
theorem scriptText_of_line_ending_carriageReturnName :
    ∃ text,
      scriptText ⟨{ lineEnding := .lf },
        (Firebird.ofVersion .firebird3).dialect⟩
          (some (Sample.tableOf (.named "A\r"))) = .ok text ∧
        scriptText ⟨{ lineEnding := .crlf },
          (Firebird.ofVersion .firebird3).dialect⟩
          (some (Sample.tableOf (.named "A\r"))) =
            .ok (withCarriageReturns text) := by
  have hset : ((EntitySet.named "A\r").withKey
      (.ofKind "ID" .int32)).HasSingleLineNames :=
    ⟨by decide, List.forall_mem_singleton.mpr (by decide)⟩
  have hnames : (Sample.tableOf (.named "A\r")).HasSingleLineNames :=
    ⟨List.forall_mem_singleton.mpr hset, fun _ hr => absurd hr List.not_mem_nil⟩
  have htext : ∃ text,
      scriptText ⟨{ lineEnding := .lf },
        (Firebird.ofVersion .firebird3).dialect⟩
      (some (Sample.tableOf (.named "A\r"))) = .ok text :=
    ⟨_, rfl⟩
  obtain ⟨text, h⟩ := htext
  obtain ⟨-, hcrlf⟩ :=
    scriptText_of_line_ending {} (Firebird.ofVersion .firebird3)
    (some (Sample.tableOf (.named "A\r")))
  have hall : ∀ schema ∈ some (Sample.tableOf (.named "A\r")),
      schema.HasSingleLineNames := by
    rintro schema ⟨⟩
    exact hnames
  exact ⟨text, h, (hcrlf hall (by decide) text h).1⟩

end Generator

end FirebirdSchema
