import FirebirdSchema.Proofs.SelfContained
import Mathlib.Data.List.Induction

/-!
# The comments of a table

A column is commented when its type asks for a marker, or when it is a key whose
values the server generates.  Names of properties and key members may repeat.  A
column then has one comment, in the place where it is first asked for: the
marker of a generated key goes before the markers of types, and among the types
the last property of the name decides.
-/

namespace FirebirdSchema

open Traversal

/-! ## What is commented, and how -/

/-- The marker that the type of a property asks for. -/
def Property.typeMarker? (p : Property) : Option Marker :=
  match p.kind with
  | .boolean => some .boolean
  | .guid => some .guid
  | _ => none

namespace EntitySet

/-- The properties whose types ask for a marker, in declaration order. -/
def markedProperties (e : EntitySet) : List Property :=
  e.properties.filter fun p => p.typeMarker?.isSome

/-- The key members that stand for properties with server-assigned values, in
key order. -/
def generatedKeys (e : EntitySet) : List String :=
  e.keyMembers.filter fun member => (e.property? member).any Property.isIdentity

/-- The commented columns: those that ask for a marker by their type, in the
order of their first occurrences, then the other generated keys in theirs. -/
def commentedColumns (e : EntitySet) : List String :=
  let typed := e.markedProperties.map Property.name
  typed.eraseDups ++ (e.generatedKeys.filter (· ∉ typed)).eraseDups

/-- The marker in the comment of a column. -/
def commentMarker? (e : EntitySet) (column : String) : Option Marker :=
  if column ∈ e.generatedKeys then some .generatedKey
  else (e.markedProperties.filter (·.name = column)).getLast?.bind
    Property.typeMarker?

end EntitySet

/-! ## Markings of an entity set -/

theorem Property.entries_markers (p : Property) :
    p.markers.entries =
      (p.typeMarker?.map fun marker => (p.name, marker)).toList := by
  unfold Property.markers Property.typeMarker?
  split <;> simp_all [markColumn]

theorem Property.isSome_typeMarker?_iff {p : Property} :
    p.typeMarker?.isSome ↔ p.kind = .boolean ∨ p.kind = .guid := by
  unfold Property.typeMarker?
  split <;> simp_all

theorem Property.map_text_typeMarker?_eq_some_iff {p : Property}
    {tag : String} :
    p.typeMarker?.map Marker.text = some tag ↔
      p.kind = .boolean ∧ tag = "#BOOL#" ∨ p.kind = .guid ∧ tag = "#GUID#" := by
  unfold Property.typeMarker?
  cases p.kind <;> simp [Marker.text, eq_comm]

namespace EntitySet

variable {e : EntitySet}

theorem mem_markedProperties {p : Property} :
    p ∈ e.markedProperties ↔
      p ∈ e.properties ∧ (p.kind = .boolean ∨ p.kind = .guid) := by
  rw [markedProperties, List.mem_filter, Property.isSome_typeMarker?_iff]

theorem mem_generatedKeys {member : String} :
    member ∈ e.generatedKeys ↔
      member ∈ e.keyMembers ∧
        ∃ p, IsFirst (fun p => p.name = member) e.properties p ∧
          p.generation = .identity := by
  simp only [← find?_eq_some_iff_isFirst]
  simp [generatedKeys, property?, Property.isIdentity, Option.any_eq_true]

theorem mem_commentedColumns {column : String} :
    column ∈ e.commentedColumns ↔
      (∃ p ∈ e.properties, (p.kind = .boolean ∨ p.kind = .guid) ∧
        p.name = column) ∨
        column ∈ e.generatedKeys := by
  simp only [commentedColumns, List.mem_append, List.mem_eraseDups,
    List.mem_filter, List.mem_map, mem_markedProperties, decide_eq_true_eq,
    and_assoc]
  constructor
  · intro h
    rcases h with h | ⟨h, -⟩
    · exact .inl h
    · exact .inr h
  · intro h
    by_cases htyped : ∃ p ∈ e.properties, (p.kind = .boolean ∨ p.kind = .guid) ∧
      p.name = column
    · exact .inl htyped
    · exact .inr ⟨h.resolve_left htyped, htyped⟩

/-- The markings of an entity set in the order in which they are made. -/
def markings (e : EntitySet) : List (String × Marker) :=
  e.properties.flatMap (fun p => p.markers.entries) ++
    e.generatedKeys.map fun member => (member, .generatedKey)

theorem map_name_filter_keyProperties {keys : List Property}
    (h : e.keyProperties = .ok keys) :
    (keys.filter Property.isIdentity).map Property.name = e.generatedKeys := by
  obtain ⟨-, hmembers⟩ := keyProperties_eq_ok_iff.mp h
  rw [generatedKeys]
  clear h
  generalize e.keyMembers = members at hmembers
  induction hmembers with
  | nil => simp
  | @cons member k members keys hmember _ ih =>
      have hname := name_of_property? hmember
      by_cases hidentity : k.isIdentity
      · simp [hmember, hidentity, ih, hname]
      · simp [hmember, hidentity, ih]

theorem ofProperties_eq_assign {keys : List Property}
    (h : e.keyProperties = .ok keys) :
    Markers.ofProperties e.properties keys =
      Markers.empty.assign e.markings := by
  rw [Markers.ofProperties_eq_assign, markings,
    ← map_name_filter_keyProperties h, List.map_map, Function.comp_def]

theorem map_fst_markings :
    e.markings.map Prod.fst =
      e.markedProperties.map Property.name ++ e.generatedKeys := by
  have htyped : (e.properties.flatMap fun p => p.markers.entries).map Prod.fst =
      e.markedProperties.map Property.name := by
    rw [markedProperties]
    induction e.properties with
    | nil => simp
    | cons p properties ih =>
        rw [List.flatMap_cons, List.map_append, ih, Property.entries_markers]
        cases hmarker : p.typeMarker? with
        | none => simp [hmarker]
        | some marker => simp [hmarker]
  rw [markings, List.map_append, htyped, List.map_map, Function.comp_def,
    List.map_id']

/-- The last marking of a name by a type comes from the last property of that
name whose type asks for a marker.  The induction takes properties from the end
of the list. -/
theorem lookup_reverse_typeMarkings (properties : List Property)
    (column : String) :
    (properties.flatMap fun p => p.markers.entries).reverse.lookup column =
      ((properties.filter fun p => p.typeMarker?.isSome).filter
        (·.name = column)).getLast?.bind Property.typeMarker? := by
  induction properties using List.reverseRecOn with
  | nil => simp
  | append_singleton properties p ih =>
      rw [List.flatMap_append, List.reverse_append, List.lookup_append, ih,
        List.flatMap_singleton, Property.entries_markers, List.filter_append,
        List.filter_append]
      cases hmarker : p.typeMarker? with
      | none => simp [hmarker]
      | some marker =>
          by_cases hname : p.name = column
          · simp [hmarker, hname]
          · have hdiffer : (column == p.name) = false := by
              simpa using Ne.symm hname
            simp [hmarker, hname, List.lookup_cons, hdiffer]

theorem lookup_reverse_keyMarkings (members : List String) (column : String) :
    (members.map fun member => (member, Marker.generatedKey)).reverse.lookup
        column =
      if column ∈ members then some .generatedKey else none := by
  split
  · rename_i hmem
    rw [← List.map_reverse]
    exact List.lookup_graph (fun _ => Marker.generatedKey)
      (List.mem_reverse.mpr hmem)
  · rename_i hnotMem
    rw [List.lookup_eq_none_iff]
    intro entry hentry
    rw [List.mem_reverse, List.mem_map] at hentry
    obtain ⟨member, hmember, rfl⟩ := hentry
    have hother : column ≠ member := fun hsame => hnotMem (hsame ▸ hmember)
    simpa using hother

/-- The columns are commented in the order in which they are first marked. -/
theorem columns_assign_markings :
    (Markers.empty.assign e.markings).columns = e.commentedColumns := by
  simp only [Markers.columns_assign, map_fst_markings, commentedColumns,
    Markers.columns_empty, List.not_mem_nil, not_false_eq_true, decide_true,
    List.filter_true, List.nil_append, List.eraseDups_append, List.removeAll,
    List.elem_eq_mem, decide_not]

/-- Keys are marked behind the types, so the marker of a generated key is the
last one. -/
theorem get?_assign_markings (column : String) :
    (Markers.empty.assign e.markings).get? column =
      e.commentMarker? column := by
  rw [Markers.get?_assign, Markers.get?_empty, Option.or_none, markings,
    List.reverse_append, List.lookup_append, lookup_reverse_keyMarkings,
    lookup_reverse_typeMarkings, commentMarker?, markedProperties]
  by_cases hgenerated : column ∈ e.generatedKeys
  · simp [hgenerated]
  · simp [hgenerated]

/-- The tag of a column, by what decides its marker. -/
theorem map_text_commentMarker?_eq_some_iff {column tag : String} :
    (e.commentMarker? column).map Marker.text = some tag ↔
      column ∈ e.generatedKeys ∧ tag = "#PK_GEN#" ∨
      column ∉ e.generatedKeys ∧
        ∃ p, (e.markedProperties.filter (·.name = column)).getLast? = some p ∧
          (p.kind = .boolean ∧ tag = "#BOOL#" ∨
            p.kind = .guid ∧ tag = "#GUID#") := by
  rw [commentMarker?]
  split
  · rename_i hgenerated
    simp [hgenerated, Marker.text, eq_comm]
  · rename_i hgenerated
    simp only [hgenerated, not_false_eq_true, true_and, false_and, false_or,
      Option.map_bind, Option.bind_eq_some_iff, Function.comp_apply,
      Property.map_text_typeMarker?_eq_some_iff]

end EntitySet

/-! ## The comments of a block -/

theorem TableBlock.comments_of_ofEntitySet {d : Dialect} {e : EntitySet}
    {block : TableBlock} (h : TableBlock.ofEntitySet d e = .ok block) :
    List.Forall₂ (fun column comment =>
        d.identifier column = .ok comment.1 ∧
          e.commentMarker? column = some comment.2)
      e.commentedColumns block.comments := by
  obtain ⟨keys, -, hkeys, -, -, -, hcomments⟩ := ofEntitySet_eq_ok_iff.mp h
  rw [EntitySet.ofProperties_eq_assign hkeys, mapM_eq_ok_iff] at hcomments
  rw [← EntitySet.columns_assign_markings, Markers.columns,
    List.forall₂_map_left_iff]
  have hentries :=
    (List.forall₂_and_left _ _).mpr ⟨fun _ hentry => hentry, hcomments⟩
  refine hentries.imp ?_
  intro entry comment hentry
  obtain ⟨hmem, hcomment⟩ := hentry
  obtain ⟨hidentifier, hmarker⟩ := Dialect.commentedColumn_eq_ok_iff.mp hcomment
  rw [hmarker, ← EntitySet.get?_assign_markings]
  exact ⟨hidentifier, Markers.get?_eq_some_of_mem hmem⟩

theorem TableBlock.map_name_comments {d : Dialect} {e : EntitySet}
    {block : TableBlock} (h : TableBlock.ofEntitySet d e = .ok block) :
    block.comments.map (fun comment => comment.1.name) =
      e.commentedColumns := by
  have hnames : List.Forall₂ (fun column comment => column = comment.1.name)
      e.commentedColumns block.comments := by
    refine (comments_of_ofEntitySet h).imp ?_
    intro column comment hcomment
    obtain ⟨hidentifier, -⟩ := hcomment
    exact (Dialect.identifier_eq_ok_iff.mp hidentifier).1.symm
  rw [← List.forall₂_map_right_iff, List.forall₂_eq_eq_eq] at hnames
  exact hnames.symm

/-- An entity set with repeated names and repeated key members. -/
def Sample.overlapping : EntitySet :=
  { name := "Overlapping"
    properties := [
      (Property.ofKind "A" .boolean).identity, .ofKind "B" .boolean,
      .ofKind "B" .guid, .ofKind "B" .int32,
      (Property.ofKind "C" .int32).identity,
      (Property.ofKind "D" .int32).withGeneration .computed,
      (Property.ofKind "E" .int32).identity,
      .ofKind "F" .boolean, (Property.ofKind "F" .guid).identity]
    keyMembers := ["E", "A", "E", "D", "F"] }

namespace Generator

/-- Behind the creation of a table stand its comments: one for every commented
column, in their order, and none for any other column.  The tag of a comment is
that of a generated key, or else that of the last property of the name whose
type asks for a marker. -/
theorem comments_of_tableText {g : Generator} {e : EntitySet} {text : String}
    (h : g.tableText e = .ok text) :
    let eol := if g.config.lineEnding = .crlf then "\r\n" else "\n"
    ∃ (block : TableBlock) (comments : List (String × String)),
      TableBlock.ofEntitySet g.dialect e = .ok block ∧
      text =
        "RECREATE TABLE " ++ block.name.text ++ " (" ++ eol ++
          String.join (block.columns.map fun column =>
            g.config.indent ++ column.name.text ++ " " ++ column.type ++
              (if column.isTruthValue
                then " CHECK (" ++ column.name.text ++ " IN (1,0))" else "") ++
              (if column.nullable then "" else " NOT NULL") ++ "," ++ eol) ++
          "CONSTRAINT " ++ block.keyName.text ++ " PRIMARY KEY (" ++
          ", ".intercalate (block.keyColumns.map Identifier.text) ++ ")" ++
          eol ++ ");" ++ eol ++
          String.join (comments.map fun comment =>
            "COMMENT ON COLUMN " ++ block.name.text ++ "." ++ comment.1 ++
              " IS '" ++ comment.2 ++ "';" ++ eol) ∧
      g.dialect.quote (e.table.getD e.name) = .ok block.name.text ∧
      List.Forall₂ (fun column comment =>
          g.dialect.quote column = .ok comment.1 ∧
          (column ∈ e.generatedKeys ∧ comment.2 = "#PK_GEN#" ∨
            column ∉ e.generatedKeys ∧
              ∃ p, (e.markedProperties.filter (·.name = column)).getLast? =
                  some p ∧
                (p.kind = .boolean ∧ comment.2 = "#BOOL#" ∨
                  p.kind = .guid ∧ comment.2 = "#GUID#")))
        e.commentedColumns comments ∧
      e.commentedColumns.Nodup ∧
      (∀ column, column ∈ e.commentedColumns ↔
        (∃ p ∈ e.properties,
          (p.kind = .boolean ∨ p.kind = .guid) ∧ p.name = column) ∨
        column ∈ e.generatedKeys) ∧
      ∀ member, member ∈ e.generatedKeys ↔
        member ∈ e.keyMembers ∧
          ∃ p, IsFirst (fun p => p.name = member) e.properties p ∧
            p.generation = .identity := by
  intro eol
  have heol : g.config.lineEnding.text = eol := LineEnding.text_eq _
  obtain ⟨block, htable, htext⟩ := map_eq_ok_iff.mp h
  have hblock := mapError_eq_ok_iff.mp htable
  obtain ⟨keys, hname, -⟩ := TableBlock.ofEntitySet_eq_ok_iff.mp hblock
  refine ⟨block, block.comments.map fun comment =>
      (comment.1.text, comment.2.text), hblock, ?_,
    (Dialect.identifier_eq_ok_iff.mp hname).2, ?_, ?_,
    fun column => EntitySet.mem_commentedColumns,
    fun member => EntitySet.mem_generatedKeys⟩
  · rw [← htext, Layout.tableBlock_eq, heol, List.map_map]
    rfl
  · rw [List.forall₂_map_right_iff]
    refine (TableBlock.comments_of_ofEntitySet hblock).imp ?_
    intro column comment hcomment
    obtain ⟨hidentifier, hmarker⟩ := hcomment
    exact ⟨(Dialect.identifier_eq_ok_iff.mp hidentifier).2,
      EntitySet.map_text_commentMarker?_eq_some_iff.mp (by rw [hmarker]; rfl)⟩
  · rw [← TableBlock.map_name_comments hblock]
    exact (TableBlock.isCoherent_of_ofEntitySet hblock).comments_nodup

/-- A truth value that is a generated key keeps its place among the truth
values.  Of the properties `B` the last one whose type asks for a marker is a
unique identifier.  Neither the identity `C`, which is no key member, nor the
computed key `D` is commented. -/
theorem comments_of_tableText_overlapping :
    ∃ text creation, standard.tableText Sample.overlapping = .ok text ∧
      text = creation ++
        ("COMMENT ON COLUMN \"Overlapping\".\"A\" IS '#PK_GEN#';\n" ++
          "COMMENT ON COLUMN \"Overlapping\".\"B\" IS '#GUID#';\n" ++
          "COMMENT ON COLUMN \"Overlapping\".\"F\" IS '#GUID#';\n" ++
          "COMMENT ON COLUMN \"Overlapping\".\"E\" IS '#PK_GEN#';\n") := by
  obtain ⟨text, h⟩ : ∃ text, standard.tableText Sample.overlapping = .ok text :=
    ⟨_, rfl⟩
  obtain ⟨block, comments, -, htext, hname, hcomments, -⟩ :=
    comments_of_tableText h
  have hcolumns : Sample.overlapping.commentedColumns =
      ["A", "B", "F", "E"] := by
    decide
  have hentries : List.Forall₂
      (fun column comment =>
        ((standard.dialect.quote column).toOption.getD "",
          ((Sample.overlapping.commentMarker? column).map
            Marker.text).getD "") = comment)
      ["A", "B", "F", "E"] comments := by
    rw [← hcolumns]
    refine hcomments.imp ?_
    intro column comment hcomment
    obtain ⟨hquote, htag⟩ := hcomment
    rw [hquote, EntitySet.map_text_commentMarker?_eq_some_iff.mpr htag]
    rfl
  rw [← List.forall₂_map_left_iff, List.forall₂_eq_eq_eq] at hentries
  have hlist : comments = [("\"A\"", "#PK_GEN#"), ("\"B\"", "#GUID#"),
      ("\"F\"", "#GUID#"), ("\"E\"", "#PK_GEN#")] :=
    hentries.symm.trans (by decide)
  have htable : block.name.text = "\"Overlapping\"" :=
    (Except.ok.inj hname).symm.trans (by decide)
  have hlines : String.join (([("\"A\"", "#PK_GEN#"), ("\"B\"", "#GUID#"),
        ("\"F\"", "#GUID#"), ("\"E\"", "#PK_GEN#")]).map fun comment =>
      "COMMENT ON COLUMN " ++ "\"Overlapping\"" ++ "." ++ comment.1 ++
        " IS '" ++ comment.2 ++ "';" ++
        if standard.config.lineEnding = .crlf then "\r\n" else "\n") =
      "COMMENT ON COLUMN \"Overlapping\".\"A\" IS '#PK_GEN#';\n" ++
        "COMMENT ON COLUMN \"Overlapping\".\"B\" IS '#GUID#';\n" ++
        "COMMENT ON COLUMN \"Overlapping\".\"F\" IS '#GUID#';\n" ++
        "COMMENT ON COLUMN \"Overlapping\".\"E\" IS '#PK_GEN#';\n" := by
    decide +kernel
  rw [htable, hlist, hlines] at htext
  exact ⟨text, _, h, htext⟩

end Generator

end FirebirdSchema
