import ErdSql.Proofs.KeyTypes
import ErdSql.Proofs.Statements

/-!
# What an overlay overrides

The entry of an entity is read where the statements of that entity are written and nowhere else, so a
script depends on it in those statements only (`schemaStatements_without`). Partitioning or security
that the entry sets takes the place of what the document says: another inline directive gives the same
script (`generate_mapEntities`).

Both facts compare two runs of the generator. The runs claim the same names in the same order, since
no name is made from an overlay, a partitioning or a security mode.
-/

namespace ErdSql

namespace Overlay

/-- Overlays with the same entries but for one entity: the entry of that entity may have been added,
changed or removed. -/
def AgreeExcept (name : String) (o o' : Overlay) : Prop :=
  ∀ other, other ≠ name → o.entity? other = o'.entity? other

end Overlay

namespace Schema

/-- The entity with another inline partitioning, if it has the name. -/
def Entity.repartition (name : String) (p : Option Partition) (e : Entity) : Entity :=
  if e.name = name then { e with partition := p } else e

/-- The entity with another inline security directive, if it has the name. -/
def Entity.resecure (name : String) (r : Option Security) (e : Entity) : Entity :=
  if e.name = name then { e with rls := r } else e

/-- A schema with a change made to each entity. -/
def mapEntities (s : Schema) (f : Entity → Entity) : Schema :=
  { s with entities := s.entities.map f }

end Schema

namespace Ddl

open Schema

/-- A script without the statements of an entity. -/
def Output.without (name : String) (out : Output) : Output :=
  { out with statements := out.statements.filter fun st => st.entity != name }

/-! ### The entry of another entity -/

section Agreement
variable {opts : Options} {o' : Overlay} {name : String} {s : Schema} {e : Entity}

lemma entity_of_mem_tableStatements {keys : List ForeignKey} :
    ∀ st ∈ tableStatements opts s keys e, st.entity = e.name := by
  intro st hst
  rw [tableStatements] at hst
  cases hp : opts.dialect.supports .partitioning with
  | true =>
    rw [if_pos hp] at hst
    cases List.mem_singleton.1 hst
    rfl
  | false =>
    rw [if_neg (Bool.eq_false_iff.1 hp)] at hst
    cases hst with
    | head => rfl
    | tail _ hst =>
      obtain ⟨p, -, rfl⟩ := List.mem_map.1 hst
      rfl

lemma entity_of_mem_securityStatements :
    ∀ st ∈ securityStatements opts.overlay e, st.entity = e.name := by
  rw [securityStatements]
  cases securityOf opts.overlay e with
  | none => simp
  | some mode => cases mode <;> simp [Statement.entity]

lemma entity_of_mem_migrationStatements :
    ∀ st ∈ migrationStatements opts.overlay e, st.entity = e.name := by
  rw [migrationStatements]
  cases opts.overlay.entity? e.name with
  | none => simp
  | some side => cases hb : Text.isBlank side.post <;> simp [hb, Statement.entity]

/-- The statements of an entity belong to it. -/
lemma entity_of_mem_entityStatements {keys : List ForeignKey} {t : NameTable} :
    ∀ st ∈ ((entityStatements opts s e keys).run t).1, st.entity = e.name := by
  obtain ⟨searchNames, auditNames, softNames, run⟩ := entityStatements_run opts s keys e t
  have distinct : ∀ st ∈ ((distinctStatements e).run t).1, st.entity = e.name :=
    forall_mem_mapM (fun _ _ => rfl) _ _
  have search : ∀ st ∈ ((searchStatements opts e).run searchNames).1, st.entity = e.name :=
    forall_mem_mapM (fun _ _ => rfl) _ _
  have audit : ∀ st ∈ ((auditStatements e).run auditNames).1, st.entity = e.name :=
    forall_mem_mapM (fun _ _ => rfl) _ _
  have soft : ∀ st ∈ ((softDeleteStatements e).run softNames).1, st.entity = e.name :=
    forall_mem_mapM (fun _ _ => rfl) _ _
  have expiry : ∀ st ∈ e.ttl.toList.map fun t => Statement.expiry e.name t.column t.interval.value,
      st.entity = e.name :=
    List.forall_mem_map.2 fun _ _ => rfl
  have policy : ∀ st ∈ e.policies.map fun p => Statement.policy e.name p.policy, st.entity = e.name :=
    List.forall_mem_map.2 fun _ _ => rfl
  rw [run]
  simp only [List.forall_mem_append]
  exact ⟨⟨⟨⟨⟨⟨⟨⟨entity_of_mem_tableStatements, distinct⟩, expiry⟩, search⟩,
    entity_of_mem_securityStatements⟩, policy⟩, audit⟩, soft⟩, entity_of_mem_migrationStatements⟩

/-- The entry of one entity is not read for another. -/
lemma entityStatements_of_ne (agree : opts.overlay.AgreeExcept name o') (ne : e.name ≠ name)
    (keys : List ForeignKey) :
    entityStatements { opts with overlay := o' } s e keys = entityStatements opts s e keys := by
  have same : o'.entity? e.name = opts.overlay.entity? e.name := (agree e.name ne).symm
  have partition : partitionOf o' e = partitionOf opts.overlay e := by
    rw [partitionOf, partitionOf, same]
  have security : securityStatements o' e = securityStatements opts.overlay e := by
    rw [securityStatements, securityStatements, securityOf, securityOf, same]
  have migration : migrationStatements o' e = migrationStatements opts.overlay e := by
    rw [migrationStatements, migrationStatements, same]
  have table : tableStatements { opts with overlay := o' } s keys e = tableStatements opts s keys e := by
    simp only [tableStatements, partition]
  simp only [entityStatements, table, security, migration]
  rfl

/-- The names that are taken behind an entity: no overlay has a part in them. -/
lemma names_entityStatements (keys : List ForeignKey) (t : NameTable) :
    ((entityStatements opts s e keys).run t).2 =
      ((softDeleteStatements e).run ((auditStatements e).run
        ((searchStatements opts e).run ((distinctStatements e).run t).2).2).2).2 :=
  rfl

/-- One step: an entity has the same statements but those of the named entity, and claims the same
names, under both overlays. -/
lemma entityStatements_without (agree : opts.overlay.AgreeExcept name o') (keys : List ForeignKey)
    (t : NameTable) :
    ((entityStatements { opts with overlay := o' } s e keys).run t).1.filter (·.entity != name) =
        ((entityStatements opts s e keys).run t).1.filter (·.entity != name) ∧
      ((entityStatements { opts with overlay := o' } s e keys).run t).2 =
        ((entityStatements opts s e keys).run t).2 := by
  by_cases he : e.name = name
  · refine ⟨?_, by rw [names_entityStatements, names_entityStatements]; rfl⟩
    -- nothing is left of the statements of the named entity itself
    have nothing (opts : Options) :
        ((entityStatements opts s e keys).run t).1.filter (·.entity != name) = [] := by
      apply List.filter_eq_nil_iff.2
      intro st hst
      simp [entity_of_mem_entityStatements st hst, he]
    rw [nothing, nothing]
  · rw [entityStatements_of_ne agree he]
    exact ⟨rfl, rfl⟩

/-- Where the steps of two runs give the same view and leave the same state, the runs do so too. -/
lemma map_mapM_eq {α β γ σ : Type} (view view' : β → γ) {f g : α → StateM σ β} {as : List α}
    (step : ∀ a ∈ as, ∀ t, view ((f a).run t).1 = view' ((g a).run t).1 ∧
      ((f a).run t).2 = ((g a).run t).2) (t : σ) :
    ((as.mapM f).run t).1.map view = ((as.mapM g).run t).1.map view' ∧
      ((as.mapM f).run t).2 = ((as.mapM g).run t).2 := by
  induction as generalizing t with
  | nil => exact ⟨rfl, rfl⟩
  | cons a as ih =>
    obtain ⟨result, state⟩ := step a List.mem_cons_self t
    have rest := ih (fun b hb => step b (List.mem_cons_of_mem a hb)) ((f a).run t).2
    rw [List.mapM_cons, List.mapM_cons]
    show view ((f a).run t).1 :: ((as.mapM f).run ((f a).run t).2).1.map view =
        view' ((g a).run t).1 :: ((as.mapM g).run ((g a).run t).2).1.map view' ∧
      ((as.mapM f).run ((f a).run t).2).2 = ((as.mapM g).run ((g a).run t).2).2
    rw [← state, ← result]
    exact ⟨congrArg _ rest.1, rest.2⟩

lemma entityGroups_without (agree : opts.overlay.AgreeExcept name o') (s : Schema) :
    (entityGroups { opts with overlay := o' } s).map (List.filter (·.entity != name)) =
      (entityGroups opts s).map (List.filter (·.entity != name)) := by
  have step (p : Entity × List ForeignKey) := entityStatements_without (s := s) (e := p.1) agree p.2
  exact (map_mapM_eq _ _ (fun p _ => step p) _).1

/-- The statements of a schema but those of an entity do not depend on what the overlay says of it. -/
lemma schemaStatements_without (agree : opts.overlay.AgreeExcept name o') (s : Schema) :
    (schemaStatements { opts with overlay := o' } s).filter (·.entity != name) =
      (schemaStatements opts s).filter (·.entity != name) := by
  rw [schemaStatements_eq, schemaStatements_eq]
  simp only [List.filter_append, List.filter_flatten, entityGroups_without agree]
  rfl

end Agreement

/-! ### Changes that keep keys -/

section Changes
variable {s : Schema} {change : Entity → Entity}

lemma entities_mapEntities (s : Schema) (change : Entity → Entity) :
    (s.mapEntities change).entities = s.entities.map change :=
  rfl

lemma entity?_mapEntities (s : Schema) (change : Entity → Entity) (id : Nat) :
    (s.mapEntities change).entity? id = (s.entity? id).map change :=
  List.getElem?_map

/-- A change of entities that keeps all that connects an entity with others: its name and key, the field
that a reference to it has the type of, and its own references. -/
structure KeepsKeys (change : Entity → Entity) : Prop where
  name (e : Entity) : (change e).name = e.name
  primaryKey (e : Entity) : (change e).primaryKey = e.primaryKey
  keyField (e : Entity) :
    (change e).field? (e.primaryKey.headD "id") = e.field? (e.primaryKey.headD "id")
  references (s : Schema) (e : Entity) : references s (change e) = references s e

lemma key?_mapEntities (keeps : KeepsKeys change) (f : Field) :
    key? (s.mapEntities change) f = key? s f := by
  cases bound : f.type.binding with
  | entity id =>
    rw [key?, key?, entityOf?, entityOf?, bound]
    dsimp only
    rw [entity?_mapEntities]
    cases s.entity? id with
    | none => rfl
    | some target =>
      rw [Option.map_some, Option.bind_some, Option.bind_some, keeps.primaryKey, keeps.keyField]
  | _ => rw [key?, key?, entityOf?, entityOf?, bound]

/-- The type of a column is kept, whatever entities its chain of keys visits. -/
lemma elementType_mapEntities (keeps : KeepsKeys change) (d : Dialect) (fuel : Nat) (f : Field) :
    elementType d (s.mapEntities change) fuel f = elementType d s fuel f := by
  induction fuel generalizing f with
  | zero =>
    unfold elementType
    rfl
  | succ fuel ih =>
    cases bound : f.type.binding with
    | entity id =>
      rw [elementType_of_entity bound, elementType_of_entity bound, key?_mapEntities keeps]
      cases key? s f with
      | none => rfl
      | some key => exact ih key
    | _ =>
      unfold elementType
      rw [bound]

lemma column_mapEntities (keeps : KeepsKeys change) (d : Dialect) (key : Option String) :
    column d (s.mapEntities change) key = column d s key := by
  funext f
  have length : (s.mapEntities change).entities.length = s.entities.length := List.length_map _
  simp only [column, length, elementType_mapEntities keeps]
  rfl

lemma references_mapEntities (keeps : KeepsKeys change) (e : Entity) :
    references (s.mapEntities change) (change e) = (references s e).map (Prod.map id change) := by
  rw [keeps.references, references, references, List.map_filterMap]
  apply List.filterMap_congr
  intro f _
  cases f.foreignKey? with
  | none => rfl
  | some key =>
    dsimp only
    rw [entity?_mapEntities]
    cases f.isColumn with
    | false => rfl
    | true => cases s.entity? key.1 <;> rfl

/-- The foreign keys of an entity claim the same names and refer to the same columns. -/
lemma collectForeignKeys_mapEntities (keeps : KeepsKeys change) (e : Entity) :
    collectForeignKeys (s.mapEntities change) (change e) = collectForeignKeys s e := by
  show (references (s.mapEntities change) (change e)).mapM _ = (references s e).mapM _
  rw [references_mapEntities keeps, List.mapM_map]
  congr 1
  funext ⟨field, target⟩
  simp only [Function.comp_apply, Prod.map_apply, keeps.name, keeps.primaryKey]
  rfl

lemma keyRun_mapEntities (keeps : KeepsKeys change) :
    (s.mapEntities change).entities.mapM (collectForeignKeys (s.mapEntities change)) =
      s.entities.mapM (collectForeignKeys s) := by
  rw [entities_mapEntities, List.mapM_map]
  exact congrArg (s.entities.mapM ·) (funext (collectForeignKeys_mapEntities keeps))

end Changes

/-! ### Inline directives that are overridden -/

section Directives
variable {opts : Options} {s : Schema} {e : Entity} {change : Entity → Entity}

/-- A change of entities that leaves everything but their inline partitioning and security. -/
def OfDirectives (change : Entity → Entity) : Prop :=
  ∀ e, ∃ p r, change e = { e with partition := p, rls := r }

lemma OfDirectives.keepsKeys (directives : OfDirectives change) : KeepsKeys change := by
  have changed {α : Type} (view : Entity → α) (e : Entity)
      (same : ∀ p r, view { e with partition := p, rls := r } = view e) : view (change e) = view e := by
    obtain ⟨p, r, changed⟩ := directives e
    rw [changed, same]
  exact ⟨fun e => changed (·.name) e fun _ _ => rfl, fun e => changed (·.primaryKey) e fun _ _ => rfl,
    fun e => changed (·.field? (e.primaryKey.headD "id")) e fun _ _ => rfl,
    fun s e => changed (references s) e fun _ _ => rfl⟩

lemma tableElements_mapEntities (directives : OfDirectives change) (d : Dialect) (keys : List ForeignKey)
    (e : Entity) :
    tableElements d (s.mapEntities change) keys (change e) = tableElements d s keys e := by
  have columns : column d (s.mapEntities change) (inlineKey? e) = column d s (inlineKey? e) :=
    column_mapEntities directives.keepsKeys d _
  obtain ⟨p, r, changed⟩ := directives e
  rw [tableElements_eq, tableElements_eq, ← columns, changed]
  rfl

/-- An entity has the same statements and claims the same names after a change of directives that the
overlay overrides. -/
lemma entityStatements_mapEntities (directives : OfDirectives change)
    (partition : partitionOf opts.overlay (change e) = partitionOf opts.overlay e)
    (security : securityOf opts.overlay (change e) = securityOf opts.overlay e) (keys : List ForeignKey) :
    entityStatements opts (s.mapEntities change) (change e) keys = entityStatements opts s e keys := by
  have elements := tableElements_mapEntities (s := s) directives opts.dialect keys e
  obtain ⟨p, r, changed⟩ := directives e
  rw [changed] at partition security elements ⊢
  have table : tableStatements opts (s.mapEntities change) keys { e with partition := p, rls := r } =
      tableStatements opts s keys e := by
    rw [tableStatements, tableStatements, partition, elements]
  have secured : securityStatements opts.overlay { e with partition := p, rls := r } =
      securityStatements opts.overlay e := by
    rw [securityStatements, securityStatements, security]
  rw [entityStatements, entityStatements, table, secured]
  rfl

lemma entityGroups_mapEntities (directives : OfDirectives change)
    (partition : ∀ e, partitionOf opts.overlay (change e) = partitionOf opts.overlay e)
    (security : ∀ e, securityOf opts.overlay (change e) = securityOf opts.overlay e) :
    entityGroups opts (s.mapEntities change) = entityGroups opts s := by
  have step (p : Entity × List ForeignKey) :
      entityStatements opts (s.mapEntities change) (change p.1) p.2 = entityStatements opts s p.1 p.2 :=
    entityStatements_mapEntities directives (partition p.1) (security p.1) p.2
  rw [entityGroups, entityGroups, keyGroups, keyGroups, keyRun_mapEntities directives.keepsKeys,
    entities_mapEntities, List.zip_map_left, List.mapM_map]
  have run (keys : List (List ForeignKey)) := congrArg (List.mapM · (s.entities.zip keys)) (funext step)
  exact congrArg (fun x : StateM NameTable _ => (x.run _).1) (run _)

/-- A change of directives that the overlay overrides does not change the script. -/
lemma generate_mapEntities (directives : OfDirectives change)
    (partition : ∀ e, partitionOf opts.overlay (change e) = partitionOf opts.overlay e)
    (security : ∀ e, securityOf opts.overlay (change e) = securityOf opts.overlay e) (s : Schema) :
    generate opts (s.mapEntities change) = generate opts s := by
  have same : schemaStatements opts (s.mapEntities change) = schemaStatements opts s := by
    rw [schemaStatements_eq, schemaStatements_eq, entityGroups_mapEntities directives partition security,
      keyGroups, keyGroups, keyRun_mapEntities directives.keepsKeys]
    rfl
  rw [generate, generate, same]
  rfl

/-! ### The directives that an entry takes the place of -/

lemma ofDirectives_repartition (name : String) (p : Option Partition) :
    OfDirectives (Entity.repartition name p) := by
  intro e
  by_cases he : e.name = name
  · exact ⟨p, e.rls, if_pos he⟩
  · exact ⟨e.partition, e.rls, if_neg he⟩

lemma ofDirectives_resecure (name : String) (r : Option Security) :
    OfDirectives (Entity.resecure name r) := by
  intro e
  by_cases he : e.name = name
  · exact ⟨e.partition, r, if_pos he⟩
  · exact ⟨e.partition, e.rls, if_neg he⟩

variable {name : String} {side : Overlay.Override}

/-- Where the overlay partitions the named entity, its inline partitioning does not count. -/
lemma partitionOf_repartition {o : Overlay} (entry : o.entity? name = some side)
    (set : side.partitions.isSome) (p : Option Partition) (e : Entity) :
    partitionOf o (e.repartition name p) = partitionOf o e := by
  rw [Entity.repartition]
  by_cases he : e.name = name
  · obtain ⟨given, hg⟩ := Option.isSome_iff_exists.1 set
    rw [if_pos he, partitionOf, partitionOf, he, entry, Option.bind_some, hg]
  · rw [if_neg he]

/-- Where the overlay says whether the named entity is secured, its inline directive does not count. -/
lemma securityOf_resecure {o : Overlay} (entry : o.entity? name = some side) (set : side.rls.isSome)
    (r : Option Security) (e : Entity) : securityOf o (e.resecure name r) = securityOf o e := by
  rw [Entity.resecure]
  by_cases he : e.name = name
  · obtain ⟨given, hg⟩ := Option.isSome_iff_exists.1 set
    rw [if_pos he, securityOf, securityOf, he, entry, Option.bind_some, hg]
    cases given <;> rfl
  · rw [if_neg he]

end Directives

/-- An overlay overrides exactly what it names. Whatever the schema, the dialect and the overlay, adding,
changing or removing the entry of an entity leaves the other statements of the script as they are, in
their order, and whether there is a script. And where the entry partitions the entity, or says whether
it is secured, the script is the same whatever inline directive the entity has. -/
theorem overlay_overrides (opts : Options) (s : Schema) (name : String) :
    (∀ o', opts.overlay.AgreeExcept name o' →
      (generate { opts with overlay := o' } s).map (·.without name) =
        (generate opts s).map (·.without name)) ∧
    (∀ side, opts.overlay.entity? name = some side →
      (side.partitions.isSome → ∀ p,
        generate opts (s.mapEntities (Entity.repartition name p)) = generate opts s) ∧
      (side.rls.isSome → ∀ r,
        generate opts (s.mapEntities (Entity.resecure name r)) = generate opts s)) := by
  constructor
  · intro o' agree
    have statements := schemaStatements_without agree s
    rw [generate, generate]
    cases blockStatements opts.plugins [] s.blocks with
    | error refused =>
      show Except.error refused = Except.error refused
      rfl
    | ok blocks =>
      show Except.ok (Output.without _ _) = Except.ok (Output.without _ _)
      simp only [Output.without, List.filter_append, statements]
  · intro side entry
    constructor
    · intro set p
      apply generate_mapEntities (ofDirectives_repartition name p) (partitionOf_repartition entry set p)
      intro e
      rw [Entity.repartition]
      split <;> rfl
    · intro set r
      apply generate_mapEntities (ofDirectives_resecure name r) _ (securityOf_resecure entry set r)
      intro e
      rw [Entity.resecure]
      split <;> rfl

/-- An overlay that partitions and secures one of two entities: the table of the other one is the same
without it, and the inline partitioning by kind makes no difference. -/
theorem overlay_overrides_event :
    let o : Overlay := ⟨"", [("event", { rls := some true, partitions := some ⟨"range", ["at"]⟩ })], []⟩
    let event : Entity := { (default : Entity) with
      name := "event"
      partition := some ⟨"LIST", ["kind"], default⟩ }
    let account : Entity := { (default : Entity) with name := "account" }
    let s : Schema := { (default : Schema) with entities := [event, account] }
    generate { overlay := o } s = .ok ⟨.postgresql, "",
        [.table ⟨false, "event", [], some ⟨"RANGE", ["at"]⟩⟩, .security "event" .enable,
          .table ⟨false, "account", [], none⟩]⟩ ∧
      (generate { overlay := .empty } s).map (·.without "event") =
        (generate { overlay := o } s).map (·.without "event") ∧
      generate { overlay := o } (s.mapEntities (Entity.repartition "event" none)) =
        generate { overlay := o } s ∧
      generate { overlay := o } (s.mapEntities (Entity.resecure "event" (some ⟨.force, default⟩))) =
        generate { overlay := o } s := by
  intro o event account s
  have agree : o.AgreeExcept "event" .empty := by
    intro other ne
    have : (other == "event") = false := beq_eq_false_iff_ne.2 ne
    simp [Overlay.entity?, o, Overlay.empty, List.lookup_cons, this]
  obtain ⟨without, overridden⟩ := overlay_overrides { overlay := o } s "event"
  obtain ⟨partitioned, secured⟩ := overridden _ rfl
  exact ⟨by decide +kernel, without .empty agree, partitioned rfl none, secured rfl _⟩

end Ddl

end ErdSql
