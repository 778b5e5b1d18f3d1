import FirebirdSchema.Proofs.Validity
import FirebirdSchema.Sample
import Mathlib.Data.String.Basic

/-!
# Scripts survive a newer server

A dialect extends another one when it gives every answer that the other one
gives, in the same words.  A script then stays what it is, because it is built
from such answers alone.  A newer Firebird server extends an older one as long
as its limit on identifiers is not lower, although the two count different
units: a name has at most as many characters as it has bytes.
-/

namespace FirebirdSchema

open Traversal

/-! ## Dialects that extend one another -/

/-- Every identifier and every column type that `d` writes, `d'` writes in the
same way. -/
structure Dialect.Extends (d' d : Dialect) : Prop where
  quote : ∀ name text, d.quote name = .ok text → d'.quote name = .ok text
  columnType : ∀ kind facets type, d.columnType kind facets = .ok type →
    d'.columnType kind facets = .ok type

namespace Dialect.Extends

variable {d d' : Dialect}

theorem identifier (h : d'.Extends d) {name : String} {i : Identifier}
    (hi : d.identifier name = .ok i) : d'.identifier name = .ok i := by
  obtain ⟨hname, htext⟩ := Dialect.identifier_eq_ok_iff.mp hi
  exact Dialect.identifier_eq_ok_iff.mpr ⟨hname, h.quote name i.text htext⟩

theorem ofProperty (h : d'.Extends d) {p : Property} {column : Column}
    (hcolumn : Column.ofProperty d p = .ok column) :
    Column.ofProperty d' p = .ok column := by
  obtain ⟨hname, htype, hrest⟩ := Column.ofProperty_eq_ok_iff.mp hcolumn
  exact Column.ofProperty_eq_ok_iff.mpr
    ⟨h.identifier hname, h.columnType p.kind p.facets column.type htype, hrest⟩

theorem commentedColumn (h : d'.Extends d) {entry : String × Marker}
    {comment : Identifier × Marker}
    (hcomment : d.commentedColumn entry = .ok comment) :
    d'.commentedColumn entry = .ok comment := by
  obtain ⟨hi, hmarker⟩ := Dialect.commentedColumn_eq_ok_iff.mp hcomment
  exact Dialect.commentedColumn_eq_ok_iff.mpr ⟨h.identifier hi, hmarker⟩

theorem ofEntitySet (h : d'.Extends d) {e : EntitySet} {block : TableBlock}
    (hblock : TableBlock.ofEntitySet d e = .ok block) :
    TableBlock.ofEntitySet d' e = .ok block := by
  obtain ⟨keys, hname, hkeys, hcolumns, hkeyName, hkeyColumns, hcomments⟩ :=
    TableBlock.ofEntitySet_eq_ok_iff.mp hblock
  exact TableBlock.ofEntitySet_eq_ok_iff.mpr ⟨keys, h.identifier hname, hkeys,
    mapM_eq_ok_of_imp (fun _ _ => h.ofProperty) hcolumns, h.identifier hkeyName,
    mapM_eq_ok_of_imp (fun _ _ => h.identifier) hkeyColumns,
    mapM_eq_ok_of_imp (fun _ _ => h.commentedColumn) hcomments⟩

theorem ofRelationship (h : d'.Extends d) {s : StoreSchema} {r : Relationship}
    {key : ForeignKey} (hkey : ForeignKey.ofRelationship d s r = .ok key) :
    ForeignKey.ofRelationship d' s r = .ok key := by
  obtain ⟨b, principalSet, dependentSet, hb, hprincipalSet, hdependentSet,
    htable, hname, hcolumns, hprincipal, hprincipalColumns, hrule⟩ :=
    ForeignKey.ofRelationship_eq_ok_iff.mp hkey
  exact ForeignKey.ofRelationship_eq_ok_iff.mpr ⟨b, principalSet, dependentSet,
    hb, hprincipalSet, hdependentSet, h.identifier htable, h.identifier hname,
    mapM_eq_ok_of_imp (fun _ _ => h.identifier) hcolumns,
    h.identifier hprincipal,
    mapM_eq_ok_of_imp (fun _ _ => h.identifier) hprincipalColumns, hrule⟩

theorem ofSchema (h : d'.Extends d) {s : StoreSchema} {script : Script}
    (hscript : Script.ofSchema d s = .ok script) :
    Script.ofSchema d' s = .ok script := by
  obtain ⟨htables, hforeignKeys⟩ := Script.ofSchema_eq_ok_iff.mp hscript
  exact Script.ofSchema_eq_ok_iff.mpr
    ⟨mapM_eq_ok_of_imp (fun _ _ => h.ofEntitySet) htables,
      mapM_eq_ok_of_imp (fun _ _ => h.ofRelationship) hforeignKeys⟩

end Dialect.Extends

/-- A script depends on the answers of its dialect and not on the version that
the dialect reports. -/
theorem Script.ofSchema_congr {d d' : Dialect} (hquote : d.quote = d'.quote)
    (htype : d.columnType = d'.columnType) (s : StoreSchema) :
    Script.ofSchema d s = Script.ofSchema d' s := by
  obtain ⟨version, quote, columnType⟩ := d
  obtain ⟨version', quote', columnType'⟩ := d'
  obtain rfl : quote = quote' := hquote
  obtain rfl : columnType = columnType' := htype
  rfl

/-! ## Newer servers -/

theorem Text.length_le_utf8ByteSize (name : String) :
    name.length ≤ name.utf8ByteSize := by
  have hchars : ∀ cs : List Char, cs.length ≤ String.utf8Len cs := by
    intro cs
    induction cs with
    | nil => exact Nat.le_refl 0
    | cons c cs ih =>
        have hc := c.utf8Size_pos
        rw [List.length_cons, String.utf8Len_cons]
        omega
  calc
    name.length = name.toList.length := String.length_toList.symm
    _ ≤ String.utf8Len name.toList := hchars name.toList
    _ = name.utf8ByteSize := by
      rw [← String.utf8ByteSize_ofList, String.ofList_toList]

namespace ServerVersion

variable {v v' : ServerVersion}

/-- A newer server does not find a name longer. -/
theorem nameLength_le_of_le (h : v ≤ v') (name : String) :
    v'.nameLength name ≤ v.nameLength name := by
  cases v with
  | firebird4 =>
      cases v' with
      | firebird4 => exact Nat.le_refl _
      | _ => exact absurd h (by decide)
  | _ =>
      cases v' with
      | firebird4 => exact Text.length_le_utf8ByteSize name
      | _ => exact Nat.le_refl _

theorem decimalLimit_le_of_le (h : v ≤ v') :
    v.decimalLimit.toNat ≤ v'.decimalLimit.toNat := by
  cases v <;> cases v' <;> revert h <;> decide

theorem identifierLimit_le_of_le (h : v ≤ v') :
    v.identifierLimit ≤ v'.identifierLimit := by
  cases v <;> cases v' <;> revert h <;> decide

theorem eq_firebird4_of_le (h : v ≤ v') (hv : v = .firebird4) :
    v' = .firebird4 := by
  subst hv
  cases v' with
  | firebird4 => rfl
  | _ => exact absurd h (by decide)

end ServerVersion

namespace Firebird

variable {f f' : Firebird}

theorem decimalType_eq_decimal {facets : Facets} {type : ColumnType}
    (h : f.decimalType facets = .ok type) :
    type = .decimal (facets.precision.getD 18) (facets.scale.getD 2) := by
  simp only [decimalType] at h
  split at h
  · cases h
  · split at h
    · cases h
    · exact (Except.ok.inj h).symm

theorem SupportsDecimal.of_le (hversion : f.version ≤ f'.version)
    {facets : Facets} (h : f.SupportsDecimal facets) :
    f'.SupportsDecimal facets := by
  obtain ⟨hpos, hprecision, hscale⟩ := h
  have hlimit := ServerVersion.decimalLimit_le_of_le hversion
  rw [ServerVersion.toNat_decimalLimit,
    ServerVersion.toNat_decimalLimit] at hlimit
  exact ⟨hpos, hprecision.trans hlimit, hscale⟩

theorem decimalType_of_le (hversion : f.version ≤ f'.version) {facets : Facets}
    {type : ColumnType} (h : f.decimalType facets = .ok type) :
    f'.decimalType facets = .ok type := by
  have hsupported := exists_decimalType_iff.mp ⟨type, h⟩
  obtain ⟨type', h'⟩ := exists_decimalType_iff.mpr (hsupported.of_le hversion)
  rw [h', decimalType_eq_decimal h', decimalType_eq_decimal h]

theorem columnType_of_le (hversion : f.version ≤ f'.version)
    {kind : PrimitiveKind} {facets : Facets} {type : ColumnType}
    (h : f.columnType kind facets = .ok type) :
    f'.columnType kind facets = .ok type := by
  cases kind with
  | decimal => exact decimalType_of_le hversion h
  | dateTimeOffset =>
      simp only [columnType] at h ⊢
      by_cases hv : f.version = .firebird4
      · rw [if_pos hv] at h
        rw [if_pos (ServerVersion.eq_firebird4_of_le hversion hv)]
        exact h
      · rw [if_neg hv] at h
        cases h
  | _ => exact h

theorem quote_of_le (hversion : f.version ≤ f'.version)
    (hlimit : f.identifierLimit ≤ f'.identifierLimit) {name text : String}
    (h : f.quote name = .ok text) : f'.quote name = .ok text := by
  obtain ⟨hempty, hlength, htext⟩ := quote_eq_ok_iff.mp h
  refine quote_eq_ok_iff.mpr ⟨hempty, ?_, htext⟩
  calc
    f'.version.nameLength name ≤ f.version.nameLength name :=
      ServerVersion.nameLength_le_of_le hversion name
    _ ≤ f.identifierLimit := hlength
    _ ≤ f'.identifierLimit := hlimit

/-- A newer server whose limit is not lower extends an older one. -/
theorem extends_of_le (hversion : f.version ≤ f'.version)
    (hlimit : f.identifierLimit ≤ f'.identifierLimit) :
    f'.dialect.Extends f.dialect := by
  constructor
  · intro name text h
    exact quote_of_le hversion hlimit h
  · intro kind facets text h
    obtain ⟨type, htype, hsql⟩ := map_eq_ok_iff.mp h
    exact map_eq_ok_iff.mpr ⟨type, columnType_of_le hversion htype, hsql⟩

/-- Versions 2.5 and 3 differ in name only. -/
theorem ofSchema_firebird25_eq_firebird3 (limit : Nat) (s : StoreSchema) :
    Script.ofSchema ((ofVersion .firebird25).withIdentifierLimit limit).dialect
        s =
      Script.ofSchema ((ofVersion .firebird3).withIdentifierLimit limit).dialect
        s := by
  apply Script.ofSchema_congr
  · rfl
  · funext kind facets
    cases kind <;> rfl

end Firebird

/-! ## Scripts -/

namespace Generator

theorem scriptText_of_le {config config' : Config} {f f' : Firebird}
    {s : Option StoreSchema} {text : String}
    (hlayout : config.toLayout = config'.toLayout)
    (hversion : f.version ≤ f'.version)
    (hlimit : f.identifierLimit ≤ f'.identifierLimit)
    (h : scriptText ⟨config, f.dialect⟩ s = .ok text) :
    scriptText ⟨config', f'.dialect⟩ s = .ok text := by
  cases s with
  | none => exact h
  | some s =>
      obtain ⟨script, hscript, htext⟩ := map_eq_ok_iff.mp h
      refine map_eq_ok_iff.mpr ⟨script, ?_, ?_⟩
      · exact (Firebird.extends_of_le hversion hlimit).ofSchema hscript
      · rw [← htext, hlayout]

/-- A script for a server is the script for a newer one too, when the limit on
identifiers is not lowered.  Versions 2.5 and 3 agree on faults as well, and the
limits that come with the versions rise from them to version 4. -/
theorem scriptText_of_newer_server {config config' : Config}
    (hlayout : config.toLayout = config'.toLayout) (s : Option StoreSchema) :
    (∀ limit,
      scriptText
          ⟨config, ((Firebird.ofVersion .firebird25).withIdentifierLimit
            limit).dialect⟩ s =
        scriptText
          ⟨config', ((Firebird.ofVersion .firebird3).withIdentifierLimit
            limit).dialect⟩ s) ∧
      (∀ f f' : Firebird, f.version ≤ f'.version →
        f.identifierLimit ≤ f'.identifierLimit →
        ∀ text, scriptText ⟨config, f.dialect⟩ s = .ok text →
          scriptText ⟨config', f'.dialect⟩ s = .ok text) ∧
      ∀ version version', version ≤ version' → ∀ text,
        (ofConfig { config with version }).scriptText s = .ok text →
          (ofConfig { config' with version := version' }).scriptText s =
            .ok text := by
  refine ⟨?_, fun f f' hversion hlimit text =>
    scriptText_of_le hlayout hversion hlimit, ?_⟩
  · intro limit
    cases s with
    | none => rfl
    | some s =>
        simp only [scriptText, schemaText, hlayout]
        rw [Firebird.ofSchema_firebird25_eq_firebird3]
  · intro version version' hversion text h
    have hlayouts : { config with version }.toLayout =
        { config' with version := version' }.toLayout := hlayout
    exact scriptText_of_le hlayouts hversion
      (ServerVersion.identifierLimit_le_of_le hversion) h

/-- A table name of 14 characters in 28 bytes is at the limit of version 2.5,
because the name of its key has three more of both; for version 4 the same limit
would leave room for 14 more. -/
theorem scriptText_of_newer_server_cyrillicName :
    ∃ text,
      scriptText ⟨{},
        ((Firebird.ofVersion .firebird25).withIdentifierLimit 31).dialect⟩
          (some (Sample.tableOf (.named "ЖЖЖЖЖЖЖЖЖЖЖЖЖЖ"))) = .ok text ∧
        scriptText ⟨{},
          ((Firebird.ofVersion .firebird4).withIdentifierLimit 31).dialect⟩
          (some (Sample.tableOf (.named "ЖЖЖЖЖЖЖЖЖЖЖЖЖЖ"))) = .ok text := by
  obtain ⟨text, h⟩ : ∃ text,
      scriptText ⟨{},
        ((Firebird.ofVersion .firebird25).withIdentifierLimit 31).dialect⟩
        (some (Sample.tableOf (.named "ЖЖЖЖЖЖЖЖЖЖЖЖЖЖ"))) = .ok text := ⟨_, rfl⟩
  have hlayout : ({} : Config).toLayout = ({} : Config).toLayout := rfl
  obtain ⟨-, hupgrade, -⟩ := scriptText_of_newer_server hlayout
    (some (Sample.tableOf (.named "ЖЖЖЖЖЖЖЖЖЖЖЖЖЖ")))
  exact ⟨text, h, hupgrade _ _ (by decide) (by decide) text h⟩

end Generator

end FirebirdSchema
