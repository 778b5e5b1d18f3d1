import FirebirdSchema.Proofs.ForeignKey
import FirebirdSchema.Proofs.Wording
import FirebirdSchema.Sample

/-!
# The ends that shape a foreign key

A relationship set may have any number of ends, but its foreign key depends on
three facts about them only: the entity sets that are bound to the two roles of
its constraint, and the delete rule of the principal.  The delete rule decides
the last clause of the text and nothing else.  Exchanging the roles of the
constraint together with its columns exchanges the two tables.
-/

namespace FirebirdSchema

open Traversal

/-! ## What a foreign key looks up -/

/-- Gives the first end that plays a role another delete rule. -/
def setDeleteRule (role : String) (rule : DeleteRule) :
    List RelationshipEnd → List RelationshipEnd
  | [] => []
  | e :: ends =>
    if e.role = role then { e with deleteRule := rule } :: ends
    else e :: setDeleteRule role rule ends

namespace Relationship

/-- The name of the entity set that is bound to a role. -/
def boundName? (r : Relationship) (role : String) : Option String :=
  (r.end? role).map RelationshipEnd.entitySet

/-- The delete rule of a role; deletions are refused when no end plays it. -/
def deleteRule (r : Relationship) (role : String) : DeleteRule :=
  ((r.end? role).map RelationshipEnd.deleteRule).getD .none

theorem boundName?_eq_some_iff {r : Relationship} {role name : String} :
    r.boundName? role = some name ↔
      ∃ e : RelationshipEnd, e.Plays role r.ends ∧ e.entitySet = name := by
  simp [boundName?, end?_eq_some_iff]

/-- Changes the delete rule of the end that a role stands for. -/
def withDeleteRule (r : Relationship) (role : String) (rule : DeleteRule) :
    Relationship :=
  { r with ends := setDeleteRule role rule r.ends }

theorem end?_withDeleteRule (r : Relationship) (role other : String)
    (rule : DeleteRule) :
    (r.withDeleteRule role rule).end? other =
      if other = role then (r.end? role).map fun e =>
        { e with deleteRule := rule }
      else r.end? other := by
  simp only [end?, withDeleteRule]
  induction r.ends with
  | nil => simp [setDeleteRule]
  | cons e ends ih =>
      by_cases hrole : e.role = role
      · by_cases hother : other = role
        · simp [setDeleteRule, hrole, hother]
        · simp [setDeleteRule, hrole, hother, Ne.symm hother]
      · by_cases hother : e.role = other
        · subst hother
          simp [setDeleteRule, hrole]
        · simp only [setDeleteRule, if_neg hrole, List.find?_cons,
            decide_eq_false hother, decide_eq_false hrole, ih]

theorem boundName?_withDeleteRule (r : Relationship) (role other : String)
    (rule : DeleteRule) :
    (r.withDeleteRule role rule).boundName? other = r.boundName? other := by
  simp only [boundName?, end?_withDeleteRule]
  by_cases hother : other = role
  · rw [if_pos hother, hother, Option.map_map]
    rfl
  · rw [if_neg hother]

/-- A relationship set with one constraint is bound by looking up the two
roles. -/
theorem binding_of_constraints {r : Relationship} {c : ReferentialConstraint}
    (h : r.constraints = [c]) :
    r.binding =
      if c.principalColumns.length ≠ c.dependentColumns.length then
        .error
          (.constraintArity c.principalColumns.length c.dependentColumns.length)
      else r.endOf c.principalRole >>= fun principal =>
        r.endOf c.dependentRole >>= fun dependent =>
          .ok { name := r.name, principal, dependent, constraint := c } := by
  rw [binding, constraint_eq_ok_iff.mpr h, ok_bind]
  split
  · rfl
  · rfl

theorem map_entitySet_endOf_congr {r r' : Relationship} {role : String}
    (h : r'.boundName? role = r.boundName? role) :
    (r'.endOf role).map RelationshipEnd.entitySet =
      (r.endOf role).map RelationshipEnd.entitySet := by
  have hendOf : ∀ q : Relationship,
    (q.endOf role).map RelationshipEnd.entitySet =
      (q.boundName? role).elim (.error (.unknownRole role)) .ok := by
    intro q
    unfold endOf boundName?
    cases q.end? role <;> rfl
  rw [hendOf, hendOf, h]

end Relationship

/-! ## The delete rule of a foreign key -/

theorem StoreSchema.boundTable_congr (s : StoreSchema) {e e' : RelationshipEnd}
    (h : e.entitySet = e'.entitySet) : s.boundTable e = s.boundTable e' := by
  rw [boundTable, boundTable, h]

namespace ForeignKey

/-- A foreign key with another delete rule. -/
def withDeleteRule (rule : DeleteRule) (key : ForeignKey) : ForeignKey :=
  { key with deleteRule := rule }

/-- The ends of a binding count for its delete rule only. -/
theorem map_withDeleteRule_ofBinding {b b' : Binding} (hname : b.name = b'.name)
    (hconstraint : b.constraint = b'.constraint) (d : Dialect)
    (table table' : String) (rule : DeleteRule) :
    (ofBinding d b table table').map (withDeleteRule rule) =
      (ofBinding d b' table table').map (withDeleteRule rule) := by
  simp only [ofBinding, map_of_bind, hname, hconstraint]
  rfl

theorem map_withDeleteRule_ofRelationship {r r' : Relationship}
    {c : ReferentialConstraint} (hc : r.constraints = [c])
    (hc' : r'.constraints = [c])
    (hprincipal : r'.boundName? c.principalRole = r.boundName? c.principalRole)
    (hdependent : r'.boundName? c.dependentRole = r.boundName? c.dependentRole)
    (hname : r'.name = r.name) (d : Dialect) (s : StoreSchema)
    (rule : DeleteRule) :
    (ForeignKey.ofRelationship d s r').map (withDeleteRule rule) =
      (ForeignKey.ofRelationship d s r).map (withDeleteRule rule) := by
  rw [ofRelationship_eq, ofRelationship_eq,
    Relationship.binding_of_constraints hc,
    Relationship.binding_of_constraints hc']
  by_cases harity : c.principalColumns.length ≠ c.dependentColumns.length
  · rw [if_pos harity, if_pos harity]
  · rw [if_neg harity, if_neg harity]
    simp only [bind_assoc, ok_bind, map_of_bind]
    apply bind_eq_bind_of_map_eq
      (Relationship.map_entitySet_endOf_congr hprincipal)
    intro principal' principal hprincipalSet
    apply bind_eq_bind_of_map_eq
      (Relationship.map_entitySet_endOf_congr hdependent)
    intro dependent' dependent hdependentSet
    rw [s.boundTable_congr hprincipalSet, s.boundTable_congr hdependentSet]
    refine bind_congr fun table => bind_congr fun table' => ?_
    apply map_withDeleteRule_ofBinding
    · exact hname
    · rfl

/-- The foreign key of a relationship set with one constraint, by the ends that
play its roles. -/
theorem ofRelationship_eq_ok_iff_of_constraints {r : Relationship}
    {c : ReferentialConstraint} (hc : r.constraints = [c]) {d : Dialect}
    {s : StoreSchema} {key : ForeignKey} :
    ForeignKey.ofRelationship d s r = .ok key ↔
      ∃ principal dependent principalSet dependentSet,
        c.principalColumns.length = c.dependentColumns.length ∧
        r.end? c.principalRole = some principal ∧
        r.end? c.dependentRole = some dependent ∧
        s.boundEntitySet principal = .ok principalSet ∧
        s.boundEntitySet dependent = .ok dependentSet ∧
        d.identifier dependentSet.tableName = .ok key.table ∧
        d.identifier ("FK_" ++ r.name) = .ok key.name ∧
        c.dependentColumns.mapM d.identifier = .ok key.columns ∧
        d.identifier principalSet.tableName = .ok key.principal ∧
        c.principalColumns.mapM d.identifier = .ok key.principalColumns ∧
        key.deleteRule = principal.deleteRule := by
  rw [ofRelationship_eq_ok_iff]
  constructor
  · rintro ⟨b, principalSet, dependentSet, hb, hrest⟩
    obtain ⟨hconstraints, hlength, hprincipal, hdependent, hname⟩ :=
      Relationship.binding_eq_ok_iff.mp hb
    obtain rfl : c = b.constraint := by simpa [hc] using hconstraints
    rw [hname] at hrest
    exact ⟨b.principal, b.dependent, principalSet, dependentSet, hlength,
      hprincipal, hdependent, hrest⟩
  · rintro ⟨principal, dependent, principalSet, dependentSet, hlength,
      hprincipal, hdependent, hrest⟩
    exact ⟨⟨r.name, principal, dependent, c⟩, principalSet, dependentSet,
      Relationship.binding_eq_ok_iff.mpr ⟨hc, hlength, hprincipal, hdependent,
        rfl⟩, hrest⟩

theorem deleteRule_of_ofRelationship {r : Relationship}
    {c : ReferentialConstraint} (hc : r.constraints = [c]) {d : Dialect}
    {s : StoreSchema} {key : ForeignKey}
    (h : ForeignKey.ofRelationship d s r = .ok key) :
    key.deleteRule = r.deleteRule c.principalRole := by
  obtain ⟨principal, -, -, -, -, hprincipal, -, -, -, -, -, -, -, -, hrule⟩ :=
    (ofRelationship_eq_ok_iff_of_constraints hc).mp h
  rw [hrule, Relationship.deleteRule, hprincipal]
  rfl

theorem map_withDeleteRule_eq_self {r : Relationship}
    {c : ReferentialConstraint} (hc : r.constraints = [c]) (d : Dialect)
    (s : StoreSchema) :
    (ForeignKey.ofRelationship d s r).map
        (withDeleteRule (r.deleteRule c.principalRole)) =
      ForeignKey.ofRelationship d s r := by
  cases hkey : ForeignKey.ofRelationship d s r with
  | error fault => rfl
  | ok key =>
      rw [← deleteRule_of_ofRelationship hc hkey]
      rfl

end ForeignKey

/-! ## Exchanged roles -/

/-- A constraint with the two roles exchanged, and with them their columns. -/
def ReferentialConstraint.exchange (c : ReferentialConstraint) :
    ReferentialConstraint :=
  { principalRole := c.dependentRole, dependentRole := c.principalRole
    principalColumns := c.dependentColumns,
      dependentColumns := c.principalColumns }

/-- A relationship set with the roles of its constraints exchanged. -/
def Relationship.exchange (r : Relationship) : Relationship :=
  { r with constraints := r.constraints.map ReferentialConstraint.exchange }

/-- A foreign key with its two tables exchanged, and with them their columns. -/
def ForeignKey.exchange (key : ForeignKey) : ForeignKey :=
  { key with
    table := key.principal, columns := key.principalColumns
    principal := key.table, principalColumns := key.columns }

theorem Relationship.exchange_exchange (r : Relationship) :
    r.exchange.exchange = r := by
  have hconstraint : ReferentialConstraint.exchange ∘
      ReferentialConstraint.exchange = id := rfl
  rw [exchange, exchange, List.map_map, hconstraint, List.map_id]

theorem Relationship.constraints_exchange {r : Relationship}
    {c : ReferentialConstraint} (hc : r.constraints = [c]) :
    r.exchange.constraints = [c.exchange] := by
  rw [exchange, hc]
  rfl

/-- Exchanging the roles of a constraint exchanges the tables of the foreign
key; the delete rule is then that of the end which refers otherwise. -/
theorem ForeignKey.ofRelationship_exchange {d : Dialect} {s : StoreSchema}
    {r : Relationship} {c : ReferentialConstraint} (hc : r.constraints = [c])
    {key : ForeignKey} (h : ForeignKey.ofRelationship d s r = .ok key) :
    ForeignKey.ofRelationship d s r.exchange =
      .ok (key.exchange.withDeleteRule (r.deleteRule c.dependentRole)) := by
  obtain ⟨principal, dependent, principalSet, dependentSet, hlength, hprincipal,
    hdependent, hprincipalSet, hdependentSet, htable, hname, hcolumns,
    hprincipalTable, hprincipalColumns, -⟩ :=
    (ofRelationship_eq_ok_iff_of_constraints hc).mp h
  refine (ofRelationship_eq_ok_iff_of_constraints
    (Relationship.constraints_exchange hc)).mpr
    ⟨dependent, principal, dependentSet, principalSet, hlength.symm, hdependent,
      hprincipal, hdependentSet, hprincipalSet, hprincipalTable, hname,
      hprincipalColumns, htable, hcolumns, ?_⟩
  rw [Relationship.deleteRule, hdependent]
  rfl

theorem ForeignKey.exists_ofRelationship_exchange_iff {d : Dialect}
    {s : StoreSchema} {r : Relationship} {c : ReferentialConstraint}
    (hc : r.constraints = [c]) :
    (∃ key, ForeignKey.ofRelationship d s r.exchange = .ok key) ↔
      ∃ key, ForeignKey.ofRelationship d s r = .ok key := by
  constructor
  · rintro ⟨key, hkey⟩
    have hback :=
      ofRelationship_exchange (Relationship.constraints_exchange hc) hkey
    rw [Relationship.exchange_exchange] at hback
    exact ⟨_, hback⟩
  · rintro ⟨key, hkey⟩
    exact ⟨_, ofRelationship_exchange hc hkey⟩

/-! ## Constraints built from pairs -/

/-- The constraint between two roles that pairs columns one pair after the
other. -/
def ReferentialConstraint.ofPairs (principalRole dependentRole : String)
    (pairs : List (String × String)) : ReferentialConstraint :=
  pairs.foldl (fun c pair => c.withPair pair.1 pair.2)
    (.between principalRole dependentRole)

/-- A further pair keeps the two lists of columns equally long. -/
theorem ReferentialConstraint.length_withPair {c : ReferentialConstraint}
    (h : c.principalColumns.length = c.dependentColumns.length)
    (principal dependent : String) :
    (c.withPair principal dependent).principalColumns.length =
      (c.withPair principal dependent).dependentColumns.length := by
  simp [withPair, h]

theorem ReferentialConstraint.length_foldl_withPair
    (pairs : List (String × String)) {c : ReferentialConstraint}
    (h : c.principalColumns.length = c.dependentColumns.length) :
    (pairs.foldl (fun c pair => c.withPair pair.1 pair.2)
        c).principalColumns.length =
      (pairs.foldl (fun c pair => c.withPair pair.1 pair.2)
        c).dependentColumns.length := by
  induction pairs generalizing c with
  | nil => exact h
  | cons pair pairs ih => exact ih (length_withPair h pair.1 pair.2)

theorem ReferentialConstraint.length_ofPairs
    (principalRole dependentRole : String) (pairs : List (String × String)) :
    (ofPairs principalRole dependentRole pairs).principalColumns.length =
      (ofPairs principalRole dependentRole pairs).dependentColumns.length :=
  length_foldl_withPair pairs rfl

theorem Relationship.eq_unknownRole_of_endOf {r : Relationship} {role : String}
    {fault : Fault} (h : r.endOf role = .error fault) :
    fault = .unknownRole role := by
  unfold endOf at h
  split at h
  · cases h
  · exact (Except.error.inj h).symm

theorem Relationship.binding_ne_constraintArity {r : Relationship}
    (h : ∀ c ∈ r.constraints,
      c.principalColumns.length = c.dependentColumns.length)
    (principal dependent : Nat) :
    r.binding ≠ .error (.constraintArity principal dependent) := by
  intro hbinding
  by_cases hone : ∃ c, r.constraints = [c]
  · obtain ⟨c, hc⟩ := hone
    have hlength := h c (by simp [hc])
    rw [binding_of_constraints hc, if_neg (not_not.mpr hlength)] at hbinding
    rcases bind_eq_error_iff.mp hbinding with hend | ⟨_, -, hrest⟩
    · cases eq_unknownRole_of_endOf hend
    · rcases bind_eq_error_iff.mp hrest with hend | ⟨_, -, hok⟩
      · cases eq_unknownRole_of_endOf hend
      · cases hok
  · rcases bind_eq_error_iff.mp hbinding with hconstraint | ⟨c, hc, -⟩
    · unfold constraint at hconstraint
      split at hconstraint <;> cases hconstraint
    · exact hone ⟨c, constraint_eq_ok_iff.mp hc⟩

/-! ## Texts -/

theorem Layout.foreignKey_withDeleteRule
    (layout : Layout) (key : ForeignKey) (rule : DeleteRule) :
    layout.foreignKey (key.withDeleteRule rule) =
      layout.foreignKeyHead key ++ rule.clause :=
  layout.foreignKey_eq (key.withDeleteRule rule)

/-- The orders come first and cascade, and the customers' role is also played by
a later end that is bound to the orders; the customers cascade as before. -/
def Sample.shuffledEnds : List RelationshipEnd :=
  [(RelationshipEnd.ofRole "Order" "Order").cascade,
    .ofRole "Bystander" "Nobody",
    (RelationshipEnd.ofRole "Customer" "Customer").cascade,
    .ofRole "Customer" "Order"]

namespace Generator

variable {g : Generator} {s : StoreSchema} {r : Relationship}
  {c : ReferentialConstraint}

/-- The text of a foreign key of `r` in front of its last clause, or the fault
of that key. -/
def foreignKeyHead (g : Generator) (s : StoreSchema) (r : Relationship) :
    Except Fault String :=
  (s.foreignKey g.dialect r).map g.config.foreignKeyHead

/-- Whatever the ends are, they count for the entity sets that they bind and for
the last clause. -/
theorem foreignKeyText_of_boundName? (hc : r.constraints = [c])
    {ends : List RelationshipEnd}
    (hprincipal : { r with ends }.boundName? c.principalRole =
      r.boundName? c.principalRole)
    (hdependent : { r with ends }.boundName? c.dependentRole =
      r.boundName? c.dependentRole) :
    g.foreignKeyText s { r with ends } =
      (g.foreignKeyHead s r).map
        (· ++ ({ r with ends }.deleteRule c.principalRole).clause) := by
  have hc' : { r with ends }.constraints = [c] := hc
  have hkey : ForeignKey.ofRelationship g.dialect s { r with ends } =
      (ForeignKey.ofRelationship g.dialect s r).map
        (ForeignKey.withDeleteRule
          ({ r with ends }.deleteRule c.principalRole)) :=
    (ForeignKey.map_withDeleteRule_eq_self hc' g.dialect s).symm.trans
      (ForeignKey.map_withDeleteRule_ofRelationship hc hc' hprincipal hdependent
        rfl g.dialect s _)
  rw [foreignKeyText, foreignKeyHead, StoreSchema.foreignKey,
    StoreSchema.foreignKey, hkey]
  cases ForeignKey.ofRelationship g.dialect s r with
  | error fault => rfl
  | ok key => exact congrArg Except.ok (Layout.foreignKey_withDeleteRule ..)

theorem foreignKeyText_eq_head (hc : r.constraints = [c]) :
    g.foreignKeyText s r =
      (g.foreignKeyHead s r).map (· ++ (r.deleteRule c.principalRole).clause) :=
  foreignKeyText_of_boundName? hc rfl rfl

theorem foreignKeyText_of_end? (hc : r.constraints = [c])
    {ends : List RelationshipEnd}
    (hprincipal : { r with ends }.end? c.principalRole = r.end? c.principalRole)
    (hdependent : { r with ends }.boundName? c.dependentRole =
      r.boundName? c.dependentRole) :
    g.foreignKeyText s { r with ends } = g.foreignKeyText s r := by
  have hname : { r with ends }.boundName? c.principalRole =
      r.boundName? c.principalRole :=
    congrArg (Option.map RelationshipEnd.entitySet) hprincipal
  have hrule : { r with ends }.deleteRule c.principalRole =
      r.deleteRule c.principalRole := by
    rw [Relationship.deleteRule, hprincipal, Relationship.deleteRule]
  rw [foreignKeyText_of_boundName? hc hname hdependent, hrule,
    foreignKeyText_eq_head hc]

theorem foreignKeyText_of_plays (hc : r.constraints = [c])
    {ends : List RelationshipEnd}
    (hprincipal : ∀ principal : RelationshipEnd,
      principal.Plays c.principalRole ends ↔
        principal.Plays c.principalRole r.ends)
    (hdependent : ∀ name : String,
      (∃ dependent : RelationshipEnd,
          dependent.Plays c.dependentRole ends ∧ dependent.entitySet = name) ↔
        ∃ dependent : RelationshipEnd,
          dependent.Plays c.dependentRole r.ends ∧
          dependent.entitySet = name) :
    g.foreignKeyText s { r with ends } = g.foreignKeyText s r := by
  apply foreignKeyText_of_end? hc
  · apply Option.ext
    intro principal
    rw [Relationship.end?_eq_some_iff, Relationship.end?_eq_some_iff]
    exact hprincipal principal
  · apply Option.ext
    intro name
    rw [Relationship.boundName?_eq_some_iff,
      Relationship.boundName?_eq_some_iff]
    exact hdependent name

theorem foreignKeyText_of_principal (hc : r.constraints = [c])
    {principal : RelationshipEnd}
    (hprincipal : principal.Plays c.principalRole r.ends) :
    g.foreignKeyText s r =
      (g.foreignKeyHead s r).map (· ++ principal.deleteRule.clause) := by
  rw [foreignKeyText_eq_head hc, Relationship.deleteRule,
    Relationship.end?_eq_some_iff.mpr hprincipal]
  rfl

theorem foreignKeyText_withDeleteRule_dependentRole (hc : r.constraints = [c])
    (hroles : c.principalRole ≠ c.dependentRole) (rule : DeleteRule) :
    g.foreignKeyText s (r.withDeleteRule c.dependentRole rule) =
      g.foreignKeyText s r := by
  apply foreignKeyText_of_end? hc
  · exact (r.end?_withDeleteRule c.dependentRole c.principalRole rule).trans
      (if_neg hroles)
  · exact r.boundName?_withDeleteRule c.dependentRole c.dependentRole rule

theorem exists_end?_of_foreignKeyHead (hc : r.constraints = [c]) {head : String}
    (h : g.foreignKeyHead s r = .ok head) :
    ∃ e, r.end? c.principalRole = some e := by
  obtain ⟨key, hkey, -⟩ := map_eq_ok_iff.mp h
  obtain ⟨principal, -, -, -, -, hprincipal, -⟩ :=
    (ForeignKey.ofRelationship_eq_ok_iff_of_constraints hc).mp
      (mapError_eq_ok_iff.mp hkey)
  exact ⟨principal, hprincipal⟩

/-- A change of the principal's delete rule changes the last clause, if there is
a text. -/
theorem foreignKeyText_withDeleteRule_principalRole (hc : r.constraints = [c])
    (rule : DeleteRule) :
    g.foreignKeyText s (r.withDeleteRule c.principalRole rule) =
      (g.foreignKeyHead s r).map (· ++ rule.clause) := by
  have htext : g.foreignKeyText s (r.withDeleteRule c.principalRole rule) =
      (g.foreignKeyHead s r).map (· ++
        ((r.withDeleteRule c.principalRole rule).deleteRule
          c.principalRole).clause) :=
    foreignKeyText_of_boundName? hc
      (r.boundName?_withDeleteRule c.principalRole c.principalRole rule)
      (r.boundName?_withDeleteRule c.principalRole c.dependentRole rule)
  rw [htext]
  cases hhead : g.foreignKeyHead s r with
  | error fault => rfl
  | ok head =>
      obtain ⟨e, he⟩ := exists_end?_of_foreignKeyHead hc hhead
      have hrule : (r.withDeleteRule c.principalRole rule).deleteRule
          c.principalRole = rule := by
        rw [Relationship.deleteRule, Relationship.end?_withDeleteRule,
          if_pos rfl, he]
        rfl
      rw [hrule]

/-- The referring table is that of the dependent's entity set and the table
referred to is that of the principal's.  They exchange their places, and so do
the two lists of columns, when the roles are exchanged. -/
theorem foreignKeyText_exchange (hc : r.constraints = [c]) {text : String}
    (h : g.foreignKeyText s r = .ok text) :
    ∃ (principal dependent : RelationshipEnd)
        (principalSet dependentSet : EntitySet)
        (table principalTable name : String)
        (columns principalColumns : List String),
      principal.Plays c.principalRole r.ends ∧
      dependent.Plays c.dependentRole r.ends ∧
      IsFirst (fun e => e.name = principal.entitySet) s.entitySets
        principalSet ∧
      IsFirst (fun e => e.name = dependent.entitySet) s.entitySets
        dependentSet ∧
      g.dialect.quote (dependentSet.table.getD dependentSet.name) =
        .ok table ∧
      g.dialect.quote (principalSet.table.getD principalSet.name) =
        .ok principalTable ∧
      g.dialect.quote ("FK_" ++ r.name) = .ok name ∧
      c.dependentColumns.mapM g.dialect.quote = .ok columns ∧
      c.principalColumns.mapM g.dialect.quote = .ok principalColumns ∧
      text =
        "ALTER TABLE " ++ table ++ " ADD CONSTRAINT " ++ name ++
          " FOREIGN KEY (" ++ ", ".intercalate columns ++ ")" ++
          g.config.lineEnding.text ++ "REFERENCES " ++ principalTable ++ "(" ++
          ", ".intercalate principalColumns ++ ")" ++
          g.config.lineEnding.text ++ principal.deleteRule.clause ∧
      g.foreignKeyText s r.exchange = .ok
        ("ALTER TABLE " ++ principalTable ++ " ADD CONSTRAINT " ++ name ++
          " FOREIGN KEY (" ++ ", ".intercalate principalColumns ++ ")" ++
          g.config.lineEnding.text ++ "REFERENCES " ++ table ++ "(" ++
          ", ".intercalate columns ++ ")" ++
          g.config.lineEnding.text ++ dependent.deleteRule.clause) := by
  obtain ⟨key, hattributed, htext⟩ := map_eq_ok_iff.mp h
  have hkey := mapError_eq_ok_iff.mp hattributed
  obtain ⟨principal, dependent, principalSet, dependentSet, -, hprincipal,
    hdependent, hprincipalSet, hdependentSet, htable, hname, hcolumns,
    hprincipalTable, hprincipalColumns, hprincipalRule⟩ :=
    (ForeignKey.ofRelationship_eq_ok_iff_of_constraints hc).mp hkey
  have hdependentRule : r.deleteRule c.dependentRole =
      dependent.deleteRule := by
    rw [Relationship.deleteRule, hdependent]
    rfl
  refine ⟨principal, dependent, principalSet, dependentSet, key.table.text,
    key.principal.text, key.name.text, key.columns.map Identifier.text,
    key.principalColumns.map Identifier.text,
    Relationship.end?_eq_some_iff.mp hprincipal,
    Relationship.end?_eq_some_iff.mp hdependent,
    StoreSchema.boundEntitySet_eq_ok_iff_isFirst.mp hprincipalSet,
    StoreSchema.boundEntitySet_eq_ok_iff_isFirst.mp hdependentSet,
    (Dialect.identifier_eq_ok_iff.mp htable).2,
    (Dialect.identifier_eq_ok_iff.mp hprincipalTable).2,
    (Dialect.identifier_eq_ok_iff.mp hname).2,
    (Dialect.mapM_quote_of_mapM_identifier hcolumns).2,
    (Dialect.mapM_quote_of_mapM_identifier hprincipalColumns).2, ?_, ?_⟩
  · rw [← htext, Layout.foreignKey_eq, Layout.foreignKeyHead_eq, hprincipalRule]
  · rw [foreignKeyText, StoreSchema.foreignKey,
      ForeignKey.ofRelationship_exchange hc hkey, hdependentRule]
    refine congrArg Except.ok ?_
    rw [Layout.foreignKey_withDeleteRule, Layout.foreignKeyHead_eq]
    rfl

/-- The foreign key of a relationship set with one constraint stays as it is
when its ends change, as long as the principal and the entity set of the
dependent are the same.  The principal's delete rule is its last clause and
decides nothing else.  The table of the dependent's entity set refers to the
table of the principal's, and exchanging the roles together with their columns
exchanges the two.  A constraint built from pairs never fails for its arity. -/
theorem foreignKeyText_of_changed_ends (g : Generator) (s : StoreSchema)
    {r : Relationship} {c : ReferentialConstraint}
    (hc : r.constraints = [c]) :
    let eol := if g.config.lineEnding = .crlf then "\r\n" else "\n"
    (∀ ends : List RelationshipEnd,
        (∀ principal : RelationshipEnd,
          principal.Plays c.principalRole ends ↔
            principal.Plays c.principalRole r.ends) →
        (∀ name : String,
          (∃ dependent : RelationshipEnd,
              dependent.Plays c.dependentRole ends ∧
              dependent.entitySet = name) ↔
            ∃ dependent : RelationshipEnd,
              dependent.Plays c.dependentRole r.ends ∧
              dependent.entitySet = name) →
        g.foreignKeyText s { r with ends } = g.foreignKeyText s r) ∧
      (c.principalRole ≠ c.dependentRole → ∀ rule,
        g.foreignKeyText s (r.withDeleteRule c.dependentRole rule) =
          g.foreignKeyText s r) ∧
      (∃ head : Except Fault String,
        (∀ principal : RelationshipEnd,
          principal.Plays c.principalRole r.ends →
          g.foreignKeyText s r = head.map (· ++
            if principal.deleteRule = .cascade
              then "ON DELETE CASCADE;" else "ON DELETE NO ACTION;")) ∧
        ∀ rule, g.foreignKeyText s (r.withDeleteRule c.principalRole rule) =
          head.map (· ++
            if rule = .cascade
              then "ON DELETE CASCADE;" else "ON DELETE NO ACTION;")) ∧
      ((∃ text, g.foreignKeyText s r.exchange = .ok text) ↔
        ∃ text, g.foreignKeyText s r = .ok text) ∧
      (∀ text, g.foreignKeyText s r = .ok text →
        ∃ (principal dependent : RelationshipEnd)
            (principalSet dependentSet : EntitySet)
            (table principalTable name : String)
            (columns principalColumns : List String),
          principal.Plays c.principalRole r.ends ∧
          dependent.Plays c.dependentRole r.ends ∧
          IsFirst (fun e => e.name = principal.entitySet) s.entitySets
            principalSet ∧
          IsFirst (fun e => e.name = dependent.entitySet) s.entitySets
            dependentSet ∧
          g.dialect.quote (dependentSet.table.getD dependentSet.name) =
            .ok table ∧
          g.dialect.quote (principalSet.table.getD principalSet.name) =
            .ok principalTable ∧
          g.dialect.quote ("FK_" ++ r.name) = .ok name ∧
          c.dependentColumns.mapM g.dialect.quote = .ok columns ∧
          c.principalColumns.mapM g.dialect.quote = .ok principalColumns ∧
          text =
            "ALTER TABLE " ++ table ++ " ADD CONSTRAINT " ++ name ++
              " FOREIGN KEY (" ++ ", ".intercalate columns ++ ")" ++ eol ++
              "REFERENCES " ++ principalTable ++ "(" ++
              ", ".intercalate principalColumns ++ ")" ++ eol ++
              (if principal.deleteRule = .cascade
                then "ON DELETE CASCADE;" else "ON DELETE NO ACTION;") ∧
          g.foreignKeyText s r.exchange = .ok
            ("ALTER TABLE " ++ principalTable ++ " ADD CONSTRAINT " ++ name ++
              " FOREIGN KEY (" ++ ", ".intercalate principalColumns ++ ")" ++
              eol ++ "REFERENCES " ++ table ++ "(" ++
              ", ".intercalate columns ++ ")" ++ eol ++
              (if dependent.deleteRule = .cascade
                then "ON DELETE CASCADE;" else "ON DELETE NO ACTION;"))) ∧
      ∀ q : Relationship,
        (∀ built ∈ q.constraints, ∃ principalRole dependentRole pairs,
          built = .ofPairs principalRole dependentRole pairs) →
        ∀ principal dependent,
          q.binding ≠ .error (.constraintArity principal dependent) := by
  intro eol
  have heol : g.config.lineEnding.text = eol := LineEnding.text_eq _
  refine ⟨fun ends => foreignKeyText_of_plays hc,
    foreignKeyText_withDeleteRule_dependentRole hc,
    ⟨g.foreignKeyHead s r, fun principal => foreignKeyText_of_principal hc,
      foreignKeyText_withDeleteRule_principalRole hc⟩, ?_, ?_, ?_⟩
  · rw [exists_foreignKeyText_iff, exists_foreignKeyText_iff,
      ForeignKey.exists_ofRelationship_exchange_iff hc]
  · intro text h
    rw [← heol]
    exact foreignKeyText_exchange hc h
  · intro q hq
    apply Relationship.binding_ne_constraintArity
    intro built hbuilt
    obtain ⟨principalRole, dependentRole, pairs, rfl⟩ := hq built hbuilt
    exact ReferentialConstraint.length_ofPairs principalRole dependentRole pairs

/-- The foreign key between customers and orders does not depend on how the ends
are declared, and only its last clause on whether deletions cascade.  With the
roles exchanged, customers refer to orders. -/
theorem foreignKeyText_of_changed_ends_sample :
    ∃ text head,
      standard.foreignKeyText Sample.schema Sample.customerOrders = .ok text ∧
      text = head ++ "ON DELETE CASCADE;" ∧
      standard.foreignKeyText Sample.schema
        { Sample.customerOrders with ends := Sample.shuffledEnds } = .ok text ∧
      standard.foreignKeyText Sample.schema
        (Sample.customerOrders.withDeleteRule "Order" .cascade) = .ok text ∧
      standard.foreignKeyText Sample.schema
        (Sample.customerOrders.withDeleteRule "Customer" .none) =
          .ok (head ++ "ON DELETE NO ACTION;") ∧
      text =
        "ALTER TABLE \"ORDER\" ADD CONSTRAINT \"FK_CustomerOrder\"" ++
          " FOREIGN KEY (\"CUSTOMER_ID\")\n" ++
          "REFERENCES \"CUSTOMER\"(\"ID\")\nON DELETE CASCADE;" ∧
      standard.foreignKeyText Sample.schema Sample.customerOrders.exchange = .ok
        ("ALTER TABLE \"CUSTOMER\" ADD CONSTRAINT \"FK_CustomerOrder\"" ++
          " FOREIGN KEY (\"ID\")\n" ++
          "REFERENCES \"ORDER\"(\"CUSTOMER_ID\")\nON DELETE NO ACTION;") ∧
      Sample.customerOrders.binding ≠ .error (.constraintArity 1 1) := by
  have hc : Sample.customerOrders.constraints =
      [.ofPairs "Customer" "Order" [("ID", "CUSTOMER_ID")]] := rfl
  obtain ⟨text, h⟩ : ∃ text,
      standard.foreignKeyText Sample.schema Sample.customerOrders = .ok text :=
    ⟨_, rfl⟩
  obtain ⟨hends, hdependent, ⟨head, hlast, hprincipal⟩, -, hexchange, hpairs⟩ :=
    foreignKeyText_of_changed_ends standard Sample.schema hc
  obtain ⟨principal, dependent, principalSet, dependentSet, table,
    principalTable, name, columns, principalColumns, hend, hend', hset, hset',
    htable, htable', hname, hcolumns, hcolumns', hwords, hexchanged⟩ :=
    hexchange text h
  have htext := hlast principal hend
  rw [h] at htext
  obtain ⟨body, rfl, hbody⟩ := map_eq_ok_iff.mp htext.symm
  obtain rfl : _ = principal :=
    Option.some.inj (Relationship.end?_eq_some_iff.mpr hend)
  obtain rfl : _ = dependent :=
    Option.some.inj (Relationship.end?_eq_some_iff.mpr hend')
  obtain rfl : _ = principalSet :=
    Except.ok.inj (StoreSchema.boundEntitySet_eq_ok_iff_isFirst.mpr hset)
  obtain rfl : _ = dependentSet :=
    Except.ok.inj (StoreSchema.boundEntitySet_eq_ok_iff_isFirst.mpr hset')
  obtain rfl : _ = table := Except.ok.inj htable
  obtain rfl : _ = principalTable := Except.ok.inj htable'
  obtain rfl : _ = name := Except.ok.inj hname
  obtain rfl : _ = columns := Except.ok.inj hcolumns
  obtain rfl : _ = principalColumns := Except.ok.inj hcolumns'
  let shuffled := { Sample.customerOrders with ends := Sample.shuffledEnds }
  refine ⟨text, body, h, hbody.symm, ?_, ?_, hprincipal .none, ?_, ?_, ?_⟩
  · rw [← h]
    apply hends Sample.shuffledEnds
    · intro e
      exact (@Relationship.end?_eq_some_iff shuffled "Customer" e).symm.trans
        (@Relationship.end?_eq_some_iff Sample.customerOrders "Customer" e)
    · intro bound
      exact (@Relationship.boundName?_eq_some_iff
          shuffled "Order" bound).symm.trans
        (@Relationship.boundName?_eq_some_iff
          Sample.customerOrders "Order" bound)
  · rw [← h]
    exact hdependent (by decide) .cascade
  · rw [hwords]
    decide
  · rw [hexchanged]
    decide
  · apply hpairs
    intro built hbuilt
    rw [hc, List.mem_singleton] at hbuilt
    exact ⟨_, _, _, hbuilt⟩

end Generator

end FirebirdSchema
