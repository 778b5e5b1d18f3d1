import FirebirdSchema.Interchange.Store
import FirebirdSchema.Proofs.Spelling

/-!
# Spellings of store schemas

The steps in which the document of a store schema may be respelled, at the
schema itself and at any of its parts.  Whatever steps are taken from the
written form of a schema, and in whatever order, the document that is reached
stands for the same schema.
-/

namespace FirebirdSchema

open Json Relation

/-! ## Steps -/

/-- The fields of facets. -/
def Facets.fieldForms : List FieldForm := [
  ⟨"maxLength", some null, RespellsTag⟩,
  ⟨"fixedLength", some null, RespellsNever⟩,
  ⟨"unicode", some null, RespellsNever⟩,
  ⟨"precision", some null, RespellsNever⟩,
  ⟨"scale", some null, RespellsNever⟩]

/-- One step in which facets are respelled. -/
def Facets.Respells : Json → Json → Prop :=
  RespellsRecord Facets.fieldForms

/-- The fields of a property. -/
def Property.fieldForms : List FieldForm := [
  ⟨"name", none, RespellsNever⟩,
  ⟨"kind", none, RespellsTag⟩,
  ⟨"facets", some (Facets.toJson {}), Facets.Respells⟩,
  ⟨"nullable", some (bool true), RespellsNever⟩,
  ⟨"storeGenerated", some (str "None"), RespellsTag⟩]

/-- One step in which a property is respelled. -/
def Property.Respells : Json → Json → Prop :=
  RespellsRecord Property.fieldForms

/-- The fields of an entity set. -/
def EntitySet.fieldForms : List FieldForm := [
  ⟨"name", none, RespellsNever⟩,
  ⟨"table", some null, RespellsNever⟩,
  ⟨"properties", some (arr []), RespellsItem Property.Respells⟩,
  ⟨"keyMembers", some (arr []), RespellsNever⟩]

/-- One step in which an entity set is respelled. -/
def EntitySet.Respells : Json → Json → Prop :=
  RespellsRecord EntitySet.fieldForms

/-- The fields of a relationship end. -/
def RelationshipEnd.fieldForms : List FieldForm := [
  ⟨"role", none, RespellsNever⟩,
  ⟨"entitySet", none, RespellsNever⟩,
  ⟨"deleteBehavior", some (str "None"), RespellsTag⟩]

/-- One step in which a relationship end is respelled. -/
def RelationshipEnd.Respells : Json → Json → Prop :=
  RespellsRecord RelationshipEnd.fieldForms

/-- The fields of a referential constraint. -/
def ReferentialConstraint.fieldForms : List FieldForm := [
  ⟨"fromRole", none, RespellsNever⟩,
  ⟨"toRole", none, RespellsNever⟩,
  ⟨"fromProperties", none, RespellsNever⟩,
  ⟨"toProperties", none, RespellsNever⟩]

/-- One step in which a referential constraint is respelled. -/
def ReferentialConstraint.Respells : Json → Json → Prop :=
  RespellsRecord ReferentialConstraint.fieldForms

/-- The fields of a relationship set. -/
def Relationship.fieldForms : List FieldForm := [
  ⟨"name", none, RespellsNever⟩,
  ⟨"ends", some (arr []), RespellsItem RelationshipEnd.Respells⟩,
  ⟨"constraints", some (arr []), RespellsItem ReferentialConstraint.Respells⟩]

/-- One step in which a relationship set is respelled. -/
def Relationship.Respells : Json → Json → Prop :=
  RespellsRecord Relationship.fieldForms

/-- The fields of a store schema. -/
def StoreSchema.fieldForms : List FieldForm := [
  ⟨"entitySets", some (arr []), RespellsItem EntitySet.Respells⟩,
  ⟨"relationshipSets", some (arr []), RespellsItem Relationship.Respells⟩]

/-- One step in which a store schema is respelled. -/
def StoreSchema.Respells : Json → Json → Prop :=
  RespellsRecord StoreSchema.fieldForms

/-! ## Readers -/

theorem LengthBound.readsAlike : ReadsAlike RespellsTag ofJson? := by
  rintro _ _ bound ⟨s⟩ hbound
  have hread : ofJson? (str s) = if some s = some "max" then some max
      else none := rfl
  by_cases hmax : s = "max"
  · subst hmax
    exact hbound
  · simp [hread, hmax] at hbound

theorem Facets.readsAlike : ReadsAlike Respells ofJson? := by
  have hlength := readsAlike_nullable LengthBound.readsAlike fun _ _ =>
    RespellsTag.ne_null
  refine readsAlike_record (by decide) ?_
  refine .bind (readsFields_withDefault null (by simp [fieldForms]) hlength rfl)
    fun length => ?_
  refine .bind
    (readsFields_withDefault null (by simp [fieldForms]) readsAlike_never rfl)
    fun fixedLength => ?_
  refine .bind
    (readsFields_withDefault null (by simp [fieldForms]) readsAlike_never rfl)
    fun unicode => ?_
  refine .bind
    (readsFields_withDefault null (by simp [fieldForms]) readsAlike_never rfl)
    fun precision => ?_
  refine .bind
    (readsFields_withDefault null (by simp [fieldForms]) readsAlike_never rfl)
    fun scale => ?_
  exact readsFields_pure _

theorem Property.readsAlike : ReadsAlike Respells ofJson? := by
  have hdefault : Facets.ofJson? (Facets.toJson {}) = some {} :=
    Facets.ofJson?_toJson {}
  refine readsAlike_record (by decide) ?_
  refine .bind (readsFields_required (by simp [fieldForms]) readsAlike_never)
    fun name => ?_
  refine .bind (readsFields_required (by simp [fieldForms]) readsAlike_named)
    fun kind => ?_
  refine .bind
    (readsFields_withDefault _ (by simp [fieldForms]) Facets.readsAlike
      hdefault)
    fun facets => ?_
  refine .bind
    (readsFields_withDefault (bool true) (by simp [fieldForms])
      readsAlike_never rfl)
    fun nullable => ?_
  refine .bind
    (readsFields_withDefault (str "None") (by simp [fieldForms])
      readsAlike_named rfl)
    fun generation => ?_
  exact readsFields_pure _

theorem EntitySet.readsAlike : ReadsAlike Respells ofJson? := by
  have hproperties := readsAlike_list Property.readsAlike
  refine readsAlike_record (by decide) ?_
  refine .bind (readsFields_required (by simp [fieldForms]) readsAlike_never)
    fun name => ?_
  refine .bind
    (readsFields_withDefault null (by simp [fieldForms]) readsAlike_never rfl)
    fun table => ?_
  refine .bind
    (readsFields_withDefault (arr []) (by simp [fieldForms]) hproperties rfl)
    fun properties => ?_
  refine .bind
    (readsFields_withDefault (arr []) (by simp [fieldForms])
      readsAlike_never rfl)
    fun keyMembers => ?_
  exact readsFields_pure _

theorem RelationshipEnd.readsAlike : ReadsAlike Respells ofJson? := by
  refine readsAlike_record (by decide) ?_
  refine .bind (readsFields_required (by simp [fieldForms]) readsAlike_never)
    fun role => ?_
  refine .bind (readsFields_required (by simp [fieldForms]) readsAlike_never)
    fun entitySet => ?_
  refine .bind
    (readsFields_withDefault (str "None") (by simp [fieldForms])
      readsAlike_named rfl)
    fun deleteRule => ?_
  exact readsFields_pure _

theorem ReferentialConstraint.readsAlike : ReadsAlike Respells ofJson? := by
  refine readsAlike_record (by decide) ?_
  refine .bind (readsFields_required (by simp [fieldForms]) readsAlike_never)
    fun principalRole => ?_
  refine .bind (readsFields_required (by simp [fieldForms]) readsAlike_never)
    fun dependentRole => ?_
  refine .bind (readsFields_required (by simp [fieldForms]) readsAlike_never)
    fun principalColumns => ?_
  refine .bind (readsFields_required (by simp [fieldForms]) readsAlike_never)
    fun dependentColumns => ?_
  exact readsFields_pure _

theorem Relationship.readsAlike : ReadsAlike Respells ofJson? := by
  have hends := readsAlike_list RelationshipEnd.readsAlike
  have hconstraints := readsAlike_list ReferentialConstraint.readsAlike
  refine readsAlike_record (by decide) ?_
  refine .bind (readsFields_required (by simp [fieldForms]) readsAlike_never)
    fun name => ?_
  refine .bind
    (readsFields_withDefault (arr []) (by simp [fieldForms]) hends rfl)
    fun ends => ?_
  refine .bind
    (readsFields_withDefault (arr []) (by simp [fieldForms]) hconstraints rfl)
    fun constraints => ?_
  exact readsFields_pure _

theorem StoreSchema.readsAlike : ReadsAlike Respells ofJson? := by
  have hentitySets := readsAlike_list EntitySet.readsAlike
  have hrelationships := readsAlike_list Relationship.readsAlike
  refine readsAlike_record (by decide) ?_
  refine .bind
    (readsFields_withDefault (arr []) (by simp [fieldForms]) hentitySets rfl)
    fun entitySets => ?_
  refine .bind
    (readsFields_withDefault (arr []) (by simp [fieldForms]) hrelationships rfl)
    fun relationships => ?_
  exact readsFields_pure _

/-! ## Documents of the same schema -/

/-- A document that is reached from the written form of a schema by respelling
stands for that schema, and the smallest documents of its parts stand for what
their constructors build. -/
theorem StoreSchema.ofJson?_of_respells :
    (∀ (s : StoreSchema) (value : Json),
      ReflTransGen StoreSchema.Respells s.toJson value →
        StoreSchema.ofJson? value = some s) ∧
      (∀ name : String,
        EntitySet.ofJson? (obj [("name", str name)]) =
          some (EntitySet.named name)) ∧
      (∀ (name : String) (kind : PrimitiveKind),
        Property.ofJson? (obj [("name", str name), ("kind", ofNamed kind)]) =
          some (Property.ofKind name kind)) ∧
      (∀ name : String,
        Relationship.ofJson? (obj [("name", str name)]) =
          some (Relationship.named name)) ∧
      ∀ role entitySet : String,
        RelationshipEnd.ofJson?
            (obj [("role", str role), ("entitySet", str entitySet)]) =
          some (RelationshipEnd.ofRole role entitySet) := by
  refine ⟨?_, ?_, ?_, ?_, ?_⟩
  · intro s value hsteps
    exact readsAlike.of_reflTransGen hsteps (ofJson?_toJson s)
  · intro name
    rfl
  · intro name kind
    cases kind <;> rfl
  · intro name
    rfl
  · intro role entitySet
    rfl

/-- A schema of one relationship set with one end. -/
def Sample.ownership : StoreSchema :=
  { relationships :=
    [(Relationship.named "Owner").withEnd (.ofRole "Owner" "Person")] }

/-- A document of `ownership`.  The relationship set is given by position,
without constraints. -/
def Sample.ownershipDocument : Json :=
  obj [
    ("comment", null),
    ("relationshipSets", arr [
      arr [str "Owner", arr [
        obj [
          ("deleteBehavior", obj [("None", null)]),
          ("role", str "Owner"),
          ("entitySet", str "Person")]]]])]

/-- The entity sets are left out and a comment is added; the delete rule of the
end is written as an object; the relationship set is given by position, then
without its constraints; the members of the end come in another order. -/
theorem StoreSchema.ofJson?_of_respells_ownershipDocument :
    ReflTransGen StoreSchema.Respells Sample.ownership.toJson
      Sample.ownershipDocument ∧
      StoreSchema.ofJson? Sample.ownershipDocument = some Sample.ownership := by
  have hsteps : ReflTransGen StoreSchema.Respells Sample.ownership.toJson
      Sample.ownershipDocument := by
    refine .head
      (.leaveOut [] [("relationshipSets", _)] (.head _) ⟨_, rfl, .refl⟩) ?_
    refine .head
      (.add [] [("relationshipSets", _)] "comment" null (by simp [fieldForms]))
      ?_
    refine .head
      (.member [("comment", null)] [] (.tail _ (.head _))
        (.item [] []
          (.member [("name", _)] [("constraints", _)] (.tail _ (.head _))
            (.item [] []
              (.member [("role", _), ("entitySet", _)] []
                (.tail _ (.tail _ (.head _))) (.object "None")))))) ?_
    refine .head
      (.member [("comment", null)] [] (.tail _ (.head _))
        (.item [] []
          (.positional
            (.cons (.inl rfl) (.cons (.inl rfl) (.cons (.inl rfl) .nil)))))) ?_
    refine .head
      (.member [("comment", null)] [] (.tail _ (.head _))
        (.item [] [] (.leaveOutLast [_, _] rfl ⟨_, rfl, .refl⟩))) ?_
    exact .single
      (.member [("comment", null)] [] (.tail _ (.head _))
        (.item [] []
          (.item [_] [] rfl
            (.item [] []
              (.reorder ((List.Perm.swap ..).cons _ |>.trans (.swap ..)))))))
  exact ⟨hsteps, StoreSchema.ofJson?_of_respells.1 _ _ hsteps⟩

end FirebirdSchema
