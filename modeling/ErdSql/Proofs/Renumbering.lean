import ErdSql.Proofs.Integrity

/-!
# The order of declarations

A schema refers to entities and enumerations by position, so a document whose statements stand in another
order gives other positions. They are all that changes, if no two declarations have the same name and no
two entities have names that are the same apart from case and underscores.

* `Schema.Names.Renumbered`: names in another order.
* `Schema.buildEntity_renumber`: an entity is built in the same way, apart from positions.
* `Schema.ofDocument_perm`: so is the schema.
-/

namespace ErdSql.Schema

/-! ### Renumbering -/

/-- New positions of entities and of enumerations. -/
structure Renumbering where
  entity : Nat → Nat
  enum : Nat → Nat

section Definitions
variable (ρ : Renumbering)

/-- A binding with new positions. -/
def TypeBinding.renumber : TypeBinding → TypeBinding
  | entity id => entity (ρ.entity id)
  | enum id => enum (ρ.enum id)
  | base => base
  | unresolved => unresolved

/-- A type with new positions. -/
def FieldType.renumber (t : FieldType) : FieldType := { t with binding := t.binding.renumber ρ }

/-- A clause with new positions. The name of a target stays. -/
def Clause.renumber : Clause → Clause
  | foreignKey target name => foreignKey (target.map ρ.entity) name
  | primaryKey => primaryKey
  | unique => unique
  | notNull => notNull
  | default value => default value
  | check expr => check expr

/-- A constraint with new positions. -/
def Constraint.renumber (c : Constraint) : Constraint := { c with clause := c.clause.renumber ρ }

/-- A field with new positions. -/
def Field.renumber (f : Field) : Field :=
  { f with type := f.type.renumber ρ, constraints := f.constraints.map (·.renumber ρ) }

/-- An entity with new positions, its own among them. -/
def Entity.renumber (e : Entity) : Entity :=
  { e with id := ρ.entity e.id, fields := e.fields.map (·.renumber ρ) }

/-- An enumeration with its new position. -/
def Enum.renumber (e : Enum) : Enum := { e with id := ρ.enum e.id }

/-- An index with the new position of its entity. -/
def Index.renumber (i : Index) : Index := { i with entity := i.entity.map ρ.entity }

/-- What building an entity gives, with new positions. -/
def Built.renumber (b : Built) : Built := { b with entity := b.entity.renumber ρ }

end Definitions

/-- Names in another order. Entities are looked up by their names and by their folded names. -/
structure Names.Renumbered (ρ : Renumbering) (n n' : Names) : Prop where
  entity : ∀ name, n'.entity? name = (n.entity? name).map ρ.entity
  enum : ∀ name, n'.enum? name = (n.enum? name).map ρ.enum
  folded : ∀ name, (n'.entities.findIdx? fun e => foldName e == name) =
    (n.entities.findIdx? fun e => foldName e == name).map ρ.entity
  name : ∀ id name, n.entities[id]? = some name → n'.entities[ρ.entity id]? = some name

/-- A schema in another order: positions lead to declarations of the same names, and apart from
positions and order everything is the same. -/
structure Renumbered (ρ : Renumbering) (s s' : Schema) : Prop where
  entity_name : ∀ id, (s'.entity? (ρ.entity id)).map (·.name) = (s.entity? id).map (·.name)
  enum_name : ∀ id, (s'.enum? (ρ.enum id)).map (·.name) = (s.enum? id).map (·.name)
  path : s'.path = s.path
  entities : s'.entities.Perm (s.entities.map (·.renumber ρ))
  enums : s'.enums.Perm (s.enums.map (·.renumber ρ))
  indexes : s'.indexes.Perm (s.indexes.map (·.renumber ρ))
  views : s'.views.Perm s.views
  triggers : s'.triggers.Perm s.triggers
  extensions : s'.extensions.Perm s.extensions
  blocks : s'.blocks.Perm s.blocks
  unresolved : s'.unresolved.Perm s.unresolved

/-! ### Fields -/

section Fields
variable {ρ : Renumbering} {n n' : Names}

@[simp]
lemma Clause.kind_renumber (c : Clause) : (c.renumber ρ).kind = c.kind := by
  cases c <;> rfl

@[simp]
lemma Field.carries_renumber (f : Field) (kind : ConstraintKind) :
    (f.renumber ρ).carries kind = f.carries kind := by
  simp [carries, renumber, Constraint.renumber, List.any_map, Function.comp_def]

lemma bindType_renumber (h : n.Renumbered ρ n') (t : Document.TypeRef) :
    bindType n' t = (bindType n t).renumber ρ := by
  unfold bindType
  rw [h.entity, h.enum]
  cases n.entity? t.name with
  | some id => rfl
  | none =>
    cases n.enum? t.name with
    | some id => rfl
    | none =>
      dsimp only [Option.map_none]
      split <;> rfl

/-- The entity that a field name points to is the same: no other one has its folded name. -/
lemma inferTarget_renumber (h : n.Renumbered ρ n') (field : String) :
    inferTarget n' field = ((inferTarget n field).1.map ρ.entity, (inferTarget n field).2) := by
  unfold inferTarget
  dsimp only
  rw [h.entity, h.folded]
  cases n.entity? (stem field) with
  | some id => rfl
  | none =>
    dsimp only [Option.map_none]
    cases found : n.entities.findIdx? fun e => foldName e == foldName (stem field) with
    | none => rfl
    | some id =>
      obtain ⟨lt, -⟩ := List.findIdx?_eq_some_iff_getElem.1 found
      have here := List.getElem?_eq_getElem lt
      dsimp only [Option.map_some]
      rw [here, h.name id _ here]

lemma bindTarget_renumber (h : n.Renumbered ρ n') (type : FieldType) (field : String)
    (explicit : Option String) : bindTarget n' (type.renumber ρ) field explicit =
      ((bindTarget n type field explicit).1.map ρ.entity, (bindTarget n type field explicit).2) := by
  obtain ⟨name, args, binding, span⟩ := type
  cases explicit with
  | some target => exact congrArg (·, target) (h.entity target)
  | none =>
    cases binding with
    | base => exact inferTarget_renumber h field
    | _ => rfl

lemma bindConstraint_renumber (h : n.Renumbered ρ n') (type : FieldType) (field : String)
    (c : Document.Constraint) : bindConstraint n' (type.renumber ρ) field c =
      (bindConstraint n type field c).renumber ρ := by
  obtain ⟨clause, span⟩ := c
  cases clause with
  | foreignKey explicit =>
    unfold bindConstraint
    dsimp only
    rw [bindTarget_renumber h]
    rfl
  | _ => rfl

lemma buildField_renumber (h : n.Renumbered ρ n') (f : Document.Field) :
    buildField n' f = (buildField n f).renumber ρ := by
  unfold buildField
  dsimp only
  rw [bindType_renumber h, funext (bindConstraint_renumber h _ f.name)]
  simp [Field.renumber]

/-- What is not bound stays so. -/
lemma unresolvedOf_renumber (entity : String) (f : Field) :
    unresolvedOf entity (f.renumber ρ) = unresolvedOf entity f := by
  have binding : ((f.renumber ρ).type.binding == .unresolved) = (f.type.binding == .unresolved) := by
    change (f.type.binding.renumber ρ == .unresolved) = _
    cases f.type.binding <;> rfl
  unfold unresolvedOf
  dsimp only
  rw [binding, f.carries_renumber, show (f.renumber ρ).constraints =
    f.constraints.map (·.renumber ρ) from rfl, List.findSome?_map]
  congr 3
  funext c
  obtain ⟨clause, span⟩ := c
  cases clause with
  | foreignKey target name => cases target <;> rfl
  | _ => rfl

/-! ### Entities -/

lemma markPrimaryKey_renumber (name : String) (span : Span) (fs : List Field) :
    markPrimaryKey name span (fs.map (·.renumber ρ)) =
      (markPrimaryKey name span fs).map (·.renumber ρ) := by
  induction fs with
  | nil => rfl
  | cons f fs ih =>
    rw [List.map_cons, markPrimaryKey, markPrimaryKey, ih, f.carries_renumber]
    change (if f.name == name then _ else _) = _
    split
    · split
      · rfl
      · simp [Field.renumber, Constraint.renumber, Clause.renumber]
    · rfl

lemma buildKeys_renumber (fs : List Field) (keys : List Document.KeyLine) :
    buildKeys (fs.map (·.renumber ρ)) keys =
      ((buildKeys fs keys).1.map (·.renumber ρ), (buildKeys fs keys).2) := by
  unfold buildKeys
  split
  · rfl
  · next column span _ =>
    have known : (fs.map (·.renumber ρ)).any (·.name == column) = fs.any (·.name == column) := List.any_map
    rw [known]
    cases fs.any (·.name == column) with
    | true => exact congrArg (·, otherKeys keys) (markPrimaryKey_renumber column span fs)
    | false => rfl
  · rfl

lemma addFeature_renumber (e : Entity) (d : Document.Directive) :
    addFeature (e.renumber ρ) d = (addFeature e d).map (·.renumber ρ) := by
  have once (present : Bool) (e' : Entity) :
      (if present then none else some (e'.renumber ρ)) =
        (if present then none else some e').map (·.renumber ρ) := by
    cases present <;> rfl
  unfold addFeature
  cases d.feature with
  | partition strategy columns =>
    exact once e.partition.isSome { e with partition := some ⟨strategy, columns, d.span⟩ }
  | ttl column interval => exact once e.ttl.isSome { e with ttl := some ⟨column, interval, d.span⟩ }
  | fts columns method => rfl
  | rls mode => exact once e.rls.isSome { e with rls := some ⟨mode, d.span⟩ }
  | policy p => rfl
  | auditable => exact once e.auditable { e with auditable := true }
  | softDelete column =>
    exact once e.softDelete.isSome { e with softDelete := some ⟨column, d.span⟩ }

lemma addFeatures_renumber (path : String) (e : Entity) (ds : List Document.Directive) :
    addFeatures path (e.renumber ρ) ds =
      ((addFeatures path e ds).1.renumber ρ, (addFeatures path e ds).2) := by
  induction ds generalizing e with
  | nil => rfl
  | cons d ds ih =>
    rw [addFeatures, addFeatures, addFeature_renumber]
    cases addFeature e d with
    | some e' => exact ih e'
    | none =>
      dsimp only [Option.map_none]
      rw [ih e]
      rfl

/-- An entity is built in the same way, apart from positions. -/
lemma buildEntity_renumber (h : n.Renumbered ρ n') (path : String) (id : Nat) (node : Document.Entity) :
    buildEntity path n' (ρ.entity id) node = (buildEntity path n id node).renumber ρ := by
  have fields (nodes : List Document.Field) :
      nodes.map (buildField n') = (nodes.map (buildField n)).map (·.renumber ρ) := by
    rw [funext (buildField_renumber h), List.map_map]
    rfl
  have unresolved (fs : List Field) :
      (fs.map (·.renumber ρ)).flatMap (unresolvedOf node.name) = fs.flatMap (unresolvedOf node.name) := by
    rw [List.flatMap_map, funext (unresolvedOf_renumber node.name)]
  unfold buildEntity
  dsimp only
  rw [fields, buildKeys_renumber, unresolved]
  have features := addFeatures_renumber (ρ := ρ) path
    ⟨id, node.name, (buildKeys ((distinctFields path node.name [] node.fields).1.map (buildField n)) node.keys).1,
      (buildKeys ((distinctFields path node.name [] node.fields).1.map (buildField n)) node.keys).2,
      none, none, [], none, [], false, none, node.span⟩ node.directives
  exact congrArg (fun p : Entity × List Diagnostic => Built.mk p.1 _ (_ ++ p.2)) features

end Fields

/-! ### Positions -/

section Positions
variable {α β : Type} {xs xs' : List String}

/-- The position in the second list of what is at a position in the first one. -/
def moved (xs xs' : List String) (i : Nat) : Nat :=
  (xs[i]?.bind fun x => xs'.findIdx? (· == x)).getD i

lemma getElem?_moved_of_eq_some (perm : xs'.Perm xs) (nodup : xs.Nodup) {i : Nat} {x : String}
    (h : xs[i]? = some x) : xs'[moved xs xs' i]? = some x := by
  have mem : x ∈ xs' := perm.mem_iff.2 (List.mem_of_getElem? h)
  obtain ⟨j, lt, at_⟩ := List.mem_iff_getElem.1 mem
  have found : (xs'.findIdx? fun y => id y == x) = some j := by
    rw [findIdx?_name_eq_some_iff (by simpa using perm.nodup_iff.2 nodup), List.getElem?_eq_getElem lt, at_]
    rfl
  have place : moved xs xs' i = j := by
    rw [moved, h, Option.bind_some]
    exact congrArg (·.getD i) found
  rw [place, List.getElem?_eq_getElem lt, at_]

/-- Nothing moves behind the end. -/
lemma getElem?_moved (perm : xs'.Perm xs) (nodup : xs.Nodup) (i : Nat) :
    xs'[moved xs xs' i]? = xs[i]? := by
  cases h : xs[i]? with
  | some x => exact getElem?_moved_of_eq_some perm nodup h
  | none =>
    rw [moved, h, Option.bind_none, Option.getD_none, List.getElem?_eq_none_iff, perm.length_eq]
    exact List.getElem?_eq_none_iff.1 h

/-- Where keys differ, the element of a key is found at its new position. -/
lemma findIdx?_moved {key : String → String} (perm : xs'.Perm xs) (nodup : (xs.map key).Nodup)
    (k : String) : (xs'.findIdx? fun x => key x == k) =
      (xs.findIdx? fun x => key x == k).map (moved xs xs') := by
  have nodup' : (xs'.map key).Nodup := (perm.map key).nodup_iff.2 nodup
  cases found : xs.findIdx? fun x => key x == k with
  | some i =>
    rw [findIdx?_name_eq_some_iff nodup] at found
    rw [Option.map_some, findIdx?_name_eq_some_iff nodup', getElem?_moved perm nodup.of_map, found]
  | none =>
    rw [List.findIdx?_eq_none_iff] at found
    rw [Option.map_none, List.findIdx?_eq_none_iff]
    exact fun x hx => found x (perm.mem_iff.1 hx)

/-- The renumbering from names to the same names in another order. -/
def Names.renumbering (n n' : Names) : Renumbering :=
  ⟨moved n.entities n'.entities, moved n.enums n'.enums⟩

lemma Names.renumbered {n n' : Names} (entities : n'.entities.Perm n.entities)
    (enums : n'.enums.Perm n.enums) (nodup : n.enums.Nodup)
    (folds : (n.entities.map foldName).Nodup) : n.Renumbered (n.renumbering n') n' where
  entity name := @findIdx?_moved _ _ id entities (by simpa using folds.of_map) name
  enum name := @findIdx?_moved _ _ id enums (by simpa using nodup) name
  folded name := findIdx?_moved entities folds name
  name _ _ h := getElem?_moved_of_eq_some entities folds.of_map h

/-- Where keys differ, what is made of elements and their positions is moved with them. -/
lemma mapIdx_perm {key : α → String} {as as' : List α} {f f' : Nat → α → β} {g : β → β}
    (perm : as'.Perm as) (nodup : (as.map key).Nodup)
    (same : ∀ i a, f' (moved (as.map key) (as'.map key) i) a = g (f i a)) :
    (as'.mapIdx f').Perm ((as.mapIdx f).map g) := by
  -- the position of an element is that of its key
  have positions {as : List α} (nodup : (as.map key).Nodup) (f : Nat → α → β) : as.mapIdx f =
      as.map fun a => f ((as.findIdx? fun b => key b == key a).getD 0) a := by
    refine List.ext_getElem (by simp) fun i hi _ => ?_
    have lt : i < as.length := by simpa using hi
    have found : (as.findIdx? fun b => key b == key as[i]) = some i := by
      rw [findIdx?_name_eq_some_iff nodup, List.getElem?_eq_getElem lt]
      rfl
    rw [List.getElem_mapIdx, List.getElem_map, found]
    rfl
  rw [positions nodup, positions ((perm.map key).nodup_iff.2 nodup), List.map_map]
  refine .trans (.of_eq (List.map_congr_left fun a ha => ?_)) (perm.map _)
  obtain ⟨i, lt, rfl⟩ := List.mem_iff_getElem.1 (perm.mem_iff.1 ha)
  have found : (as.findIdx? fun b => key b == key as[i]) = some i := by
    rw [findIdx?_name_eq_some_iff nodup, List.getElem?_eq_getElem lt]
    rfl
  have found' := @findIdx?_moved (as.map key) (as'.map key) id (perm.map key) (by simpa using nodup)
    (key as[i])
  rw [List.findIdx?_map, List.findIdx?_map] at found'
  have moves := found'.trans (congrArg (Option.map _) found)
  exact (congrArg (fun place => f' (place.getD 0) as[i]) moves).trans
    ((same i as[i]).trans (congrArg (fun place => g (f (place.getD 0) as[i])) found).symm)

/-- Where keys differ, the element of a key does not depend on the order. -/
lemma find?_of_perm {key : α → String} {as as' : List α} (perm : as'.Perm as)
    (nodup : (as.map key).Nodup) (k : String) :
    (as'.find? fun a => key a == k) = as.find? fun a => key a == k := by
  have found {bs : List α} (nodup : (bs.map key).Nodup) (a : α) :
      (bs.find? fun a => key a == k) = some a ↔ a ∈ bs ∧ key a = k := by
    constructor
    · intro h
      exact ⟨List.mem_of_find?_eq_some h, by simpa using List.find?_some h⟩
    · rintro ⟨mem, rfl⟩
      cases h : bs.find? fun b => key b == key a with
      | none => simpa using List.find?_eq_none.1 h a mem
      | some b =>
        rw [List.inj_on_of_nodup_map nodup (List.mem_of_find?_eq_some h) mem
          (by simpa using List.find?_some h)]
  refine Option.ext fun a => ?_
  rw [found nodup, found ((perm.map key).nodup_iff.2 nodup), perm.mem_iff]

end Positions

/-! ### Documents -/

section Documents
variable {doc doc' : Document}

/-- Where all names differ every declaration is kept. -/
lemma declare_of_nodup (names : ((declarations doc).map Declaration.name).Nodup) :
    declare doc.path [] (declarations doc) = (declarations doc, []) := by
  obtain ⟨kept, none⟩ := occurrences_of_nodup _ names
  obtain ⟨firsts, reports⟩ := declare_eq_firsts doc.path (declarations doc)
  rw [none, List.map_nil, List.map_eq_nil_iff] at reports
  exact Prod.ext (firsts.trans kept) reports

lemma declaredEntities_of_nodup (names : ((declarations doc).map Declaration.name).Nodup) :
    declaredEntities doc = (declarations doc).filterMap Declaration.entity? :=
  congrArg (fun p => p.1.filterMap Declaration.entity?) (declare_of_nodup names)

/-- The entities that are built, with what is reported about them. -/
def builtEntities (doc : Document) : List Built :=
  (declaredEntities doc).mapIdx fun id node => buildEntity doc.path (declaredNames doc) id node

lemma entities_eq_map (doc : Document) :
    (ofDocument doc).1.entities = (builtEntities doc).map (·.entity) := by
  rw [entities_ofDocument, builtEntities, List.mapIdx_eq_zipIdx_map, List.mapIdx_eq_zipIdx_map, List.map_map]
  rfl

lemma entities_getElem? (doc : Document) (id : Nat) :
    ((ofDocument doc).1.entity? id).map (·.name) = (declaredNames doc).entities[id]? := by
  rw [declaredNames_eq]
  exact List.getElem?_map.symm

lemma enums_getElem? (doc : Document) (id : Nat) :
    ((ofDocument doc).1.enum? id).map (·.name) = (declaredNames doc).enums[id]? := by
  rw [declaredNames_eq]
  exact List.getElem?_map.symm

/-- The index that a statement gives, on the entity that its table means. -/
def index? (names : Names) : Document.Statement → Option Index
  | .index i => some ⟨i, names.entity? i.table⟩
  | _ => none

lemma indexes_ofDocument (doc : Document) :
    (ofDocument doc).1.indexes = doc.statements.filterMap (index? (declaredNames doc)) :=
  rfl

lemma index?_renumber (h : n.Renumbered ρ n') (st : Document.Statement) :
    index? n' st = (index? n st).map (·.renumber ρ) := by
  cases st with
  | index i => exact congrArg (some ∘ Index.mk i) (h.entity i.table)
  | _ => rfl

/-- The renumbering from the schema of a document to that of another one with the same names. -/
def renumbering (doc doc' : Document) : Renumbering :=
  (declaredNames doc).renumbering (declaredNames doc')

section Permuted
variable (path : doc'.path = doc.path) (perm : doc'.statements.Perm doc.statements)
  (names : ((declarations doc).map Declaration.name).Nodup)
  (folds : (doc.entities.map fun e => foldName e.name).Nodup)

include perm names

lemma declared_perm : (declare doc'.path [] (declarations doc')).1.Perm (declarations doc) ∧
    (declare doc'.path [] (declarations doc')).2 = [] := by
  have decls : (declarations doc').Perm (declarations doc) := perm.filterMap _
  rw [declare_of_nodup ((decls.map Declaration.name).nodup_iff.2 names)]
  exact ⟨decls, rfl⟩

lemma declaredEntities_perm : (declaredEntities doc').Perm (declaredEntities doc) :=
  ((declared_perm perm names).1.filterMap _).trans (.of_eq (declaredEntities_of_nodup names).symm)

lemma declaredEnums_perm : ((declare doc'.path [] (declarations doc')).1.filterMap Declaration.enum?).Perm
    ((declare doc.path [] (declarations doc)).1.filterMap Declaration.enum?) :=
  ((declared_perm perm names).1.filterMap _).trans
    (.of_eq (congrArg (fun p => p.1.filterMap Declaration.enum?) (declare_of_nodup names)).symm)

include folds

/-- The names of the documents are the same in another order. -/
lemma names_renumbered :
    (declaredNames doc).Renumbered (renumbering doc doc') (declaredNames doc') := by
  refine Names.renumbered ((declaredEntities_perm perm names).map _)
    ((declaredEnums_perm perm names).map _) ?_ ?_
  · rw [declaredNames_eq]
    exact (List.nodup_append.1 names_nodup_ofDocument).2.1
  · have blocks : declaredEntities doc = doc.entities := by
      rw [declaredEntities_of_nodup names, Document.entities, declarations, List.filterMap_filterMap]
      congr 1
      funext st
      cases st <;> rfl
    have entities : (declaredNames doc).entities = doc.entities.map (·.name) := by
      rw [← blocks]
      rfl
    rw [entities, List.map_map]
    exact folds

include path

/-- The entities are built in the same way, apart from positions. -/
lemma builtEntities_perm :
    (builtEntities doc').Perm ((builtEntities doc).map (·.renumber (renumbering doc doc'))) := by
  have nodup : ((declaredEntities doc).map (·.name)).Nodup := by
    rw [← map_name_entities_ofDocument]
    exact entity_names_nodup doc
  refine mapIdx_perm (declaredEntities_perm perm names) nodup fun id node => ?_
  rw [path]
  exact buildEntity_renumber (names_renumbered perm names folds) doc.path id node

/-- The schema of the statements in another order. -/
lemma renumbered_ofDocument :
    Renumbered (renumbering doc doc') (ofDocument doc).1 (ofDocument doc').1 := by
  have built := builtEntities_perm path perm names folds
  have entityNames : (declaredNames doc').entities.Perm (declaredNames doc).entities :=
    (declaredEntities_perm perm names).map _
  have enumNames : (declaredNames doc').enums.Perm (declaredNames doc).enums :=
    (declaredEnums_perm perm names).map _
  have nodup := List.nodup_append.1 (@names_nodup_ofDocument doc)
  have names_eq := @declaredNames_eq doc
  have entitiesNodup : (declaredNames doc).entities.Nodup := by rw [names_eq]; exact nodup.1
  have enumsNodup : (declaredNames doc).enums.Nodup := by rw [names_eq]; exact nodup.2.1
  refine ⟨fun id => ?_, fun id => ?_, path, ?_, ?_, ?_, perm.filterMap _, perm.filterMap _,
    perm.filterMap _, perm.filterMap _, ?_⟩
  · rw [entities_getElem?, entities_getElem?]
    exact getElem?_moved entityNames entitiesNodup id
  · rw [enums_getElem?, enums_getElem?]
    exact getElem?_moved enumNames enumsNodup id
  · rw [entities_eq_map, entities_eq_map, List.map_map]
    have moved := built.map (·.entity)
    rwa [List.map_map] at moved
  · exact mapIdx_perm (declaredEnums_perm perm names) enumsNodup fun _ _ => rfl
  · rw [indexes_ofDocument, indexes_ofDocument, List.map_filterMap]
    refine (perm.filterMap _).trans (.of_eq ?_)
    rw [funext (index?_renumber (names_renumbered perm names folds))]
  · have moved := built.flatMap_right (·.unresolved)
    rwa [List.flatMap_map] at moved

/-- Nothing is reported about declarations, and the same about entities. -/
lemma diagnostics_perm : (ofDocument doc').2.Perm (ofDocument doc).2 := by
  have moved := (builtEntities_perm path perm names folds).flatMap_right (·.diagnostics)
  rw [List.flatMap_map] at moved
  change ((declare doc'.path [] (declarations doc')).2 ++ _).Perm
    ((declare doc.path [] (declarations doc)).2 ++ _)
  rw [(declared_perm perm names).2, (congrArg Prod.snd (declare_of_nodup names) :)]
  exact moved

end Permuted

/-- **The order of statements does not matter.** If all declared names differ, and the names of entities
even without case and underscores, then the same statements in another order give the same schema, apart
from positions and the order of lists, and the same diagnostics. -/
theorem ofDocument_perm (path : doc'.path = doc.path) (perm : doc'.statements.Perm doc.statements)
    (names : ((declarations doc).map Declaration.name).Nodup)
    (folds : (doc.entities.map fun e => foldName e.name).Nodup) :
    ∃ ρ : Renumbering, Renumbered ρ (ofDocument doc).1 (ofDocument doc').1 ∧
      (∀ name, (ofDocument doc').1.entityNamed? name =
        ((ofDocument doc).1.entityNamed? name).map (·.renumber ρ)) ∧
      (∀ name, ((ofDocument doc').1.enums.find? fun e => e.name == name) =
        ((ofDocument doc).1.enums.find? fun e => e.name == name).map (·.renumber ρ)) ∧
      (ofDocument doc').2.Perm (ofDocument doc).2 := by
  have renumbered := renumbered_ofDocument path perm names folds
  have nodup := List.nodup_append.1 (@names_nodup_ofDocument doc)
  refine ⟨renumbering doc doc', renumbered, fun name => ?_, fun name => ?_,
    diagnostics_perm path perm names folds⟩
  · rw [entityNamed?, find?_of_perm renumbered.entities (by rw [List.map_map]; exact nodup.1),
      List.find?_map]
    rfl
  · rw [find?_of_perm renumbered.enums (by rw [List.map_map]; exact nodup.2.1), List.find?_map]
    rfl

/-- Two entities that refer to themselves and to each other, by type, by target and by the name of a
field, before an enumeration that one of them uses. -/
def orders : List Document.Statement :=
  let field (type name : String) (constraints : List Document.Clause) : Document.Field :=
    ⟨false, ⟨type, [], default⟩, .scalar, name, constraints.map (⟨·, default⟩), default⟩
  [.index ⟨"recent", false, "Order", ["id"], "", default⟩,
   .entity ⟨"OrderItem", default,
    [field "int" "order_id" [.foreignKey none], field "OrderItem" "parent" [.foreignKey none],
     field "State" "state" []], [], [], default⟩,
   .entity ⟨"Order", default,
    [field "int" "id" [.primaryKey], field "int" "first" [.foreignKey (some "OrderItem")],
     field "Buyer" "buyer" []], [], [], default⟩,
   .enum ⟨"State", [⟨"OPEN", default⟩, ⟨"DONE", default⟩], default⟩]

/-- The statements from last to first give the same schema, apart from positions. -/
theorem ofDocument_perm_of_orders :
    ((declarations ⟨"orders.erd", orders⟩).map Declaration.name).Nodup ∧
    ((Document.mk "orders.erd" orders).entities.map fun e => foldName e.name).Nodup ∧
    ∃ ρ : Renumbering,
      Renumbered ρ (ofDocument ⟨"orders.erd", orders⟩).1 (ofDocument ⟨"orders.erd", orders.reverse⟩).1 := by
  have names : ((declarations ⟨"orders.erd", orders⟩).map Declaration.name).Nodup := by decide
  have folds : ((Document.mk "orders.erd" orders).entities.map fun e => foldName e.name).Nodup := by
    decide
  obtain ⟨ρ, renumbered, -⟩ := @ofDocument_perm ⟨"orders.erd", orders⟩
    ⟨"orders.erd", orders.reverse⟩ rfl orders.reverse_perm names folds
  exact ⟨names, folds, ρ, renumbered⟩

end Documents

end ErdSql.Schema
