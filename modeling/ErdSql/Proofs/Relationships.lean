import ErdSql.Proofs.Overrides
import ErdSql.Proofs.Totality

/-!
# Relationships and constraints

The edges that are derived from a schema are the foreign keys of its script and the pairs that its join
entities link, and an entity is reported as an orphan just when it is on no edge.

* `Ddl.forall₂_references`: the edges of columns, beside the foreign keys of a script.
* `Schema.filter_via`: the edges that an entity joins.
* `Advice.reported_iff_unrelated`: the advice about orphans.
* `Schema.relationships_match`: all of this for the schema of a document.
-/

namespace ErdSql

namespace Schema

/-! ### Edges of columns -/

/-- Whether an edge is that of a column with a foreign key. -/
def Relationship.isReference (r : Relationship) : Bool :=
  r.kind == .manyToOne || r.kind == .oneToOne

/-- The edge of a column with a foreign key. -/
def referenceEdge? (e : Entity) (f : Field) : Option Relationship :=
  match f.foreignKey? with
  | some (target, _) =>
    if f.isColumn then
      some ⟨if f.carries .unique then .oneToOne else .manyToOne, e.id, target, f.name, none⟩
    else none
  | none => none

/-- The edge of a list of rows of an entity. -/
def listEdge? (e : Entity) (f : Field) : Option Relationship :=
  match f.type.binding with
  | .entity target =>
    if f.cardinality == .list && !f.carries .foreignKey then
      some ⟨.oneToMany, e.id, target, f.name, none⟩
    else none
  | _ => none

lemma fieldRelationship?_eq (e : Entity) (f : Field) :
    fieldRelationship? e f = (referenceEdge? e f).or (listEdge? e f) := by
  unfold fieldRelationship? referenceEdge?
  cases f.foreignKey? with
  | none => rfl
  | some key => cases f.isColumn <;> rfl

/-- An edge and a foreign key say the same: the key is on the column that the edge comes from and refers to
the entity at its other end, and a row has one partner just when the column is unique. -/
structure DrawnAs (s : Schema) (r : Relationship) (table column target : String) : Prop where
  source : ∃ e f, s.entity? r.source = some e ∧ e.name = table ∧ f ∈ e.fields ∧ f.name = column ∧
    (r.kind = .oneToOne ↔ f.carries .unique = true)
  field : r.field = column
  target : ∃ e, s.entity? r.target = some e ∧ e.name = target

/-- The positions of the entities of a schema are their numbers. -/
def Numbered (s : Schema) : Prop := ∀ e ∈ s.entities, s.entity? e.id = some e

lemma numbered_ofDocument (doc : Document) : (ofDocument doc).1.Numbered := by
  intro e he
  rw [entities_ofDocument] at he
  obtain ⟨i, hi, rfl⟩ := List.mem_mapIdx.1 he
  rw [buildEntity_id, entity?, entities_ofDocument, List.getElem?_mapIdx, List.getElem?_eq_getElem hi]
  rfl

lemma isReference_of_referenceEdge? {e : Entity} {f : Field} {r : Relationship}
    (h : referenceEdge? e f = some r) : r.isReference = true := by
  rw [referenceEdge?] at h
  split at h
  · split at h
    · cases h
      cases f.carries .unique <;> rfl
    · cases h
  · cases h

lemma isReference_of_listEdge? {e : Entity} {f : Field} {r : Relationship} (h : listEdge? e f = some r) :
    r.isReference = false := by
  rw [listEdge?] at h
  split at h
  · split at h
    · cases h
      rfl
    · cases h
  · cases h

/-- Among the edges of the fields, the lists aside, are those of the columns with a foreign key. -/
lemma filter_isReference_fields (e : Entity) :
    (e.fields.filterMap (fieldRelationship? e)).filter (·.isReference) =
      e.fields.filterMap (referenceEdge? e) := by
  rw [List.filter_filterMap]
  refine List.filterMap_congr fun f _ => ?_
  rw [fieldRelationship?_eq]
  cases reference : referenceEdge? e f with
  | some r => exact Option.filter_some_pos (isReference_of_referenceEdge? reference)
  | none =>
    rw [Option.none_or]
    cases list : listEdge? e f with
    | none => rfl
    | some r => exact Option.filter_some_neg (isReference_of_listEdge? list)

lemma filter_isReference (s : Schema) : (relationships s).filter (·.isReference) =
    s.entities.flatMap fun e => e.fields.filterMap (referenceEdge? e) := by
  rw [relationships, List.filter_flatMap]
  refine List.flatMap_congr fun e _ => ?_
  rw [entityRelationships, List.filter_append, filter_isReference_fields, List.filter_eq_nil_iff.2,
    List.append_nil]
  -- no edge between the targets of a join entity is that of a reference
  exact List.forall_mem_map.2 fun _ _ => Bool.false_ne_true

/-! ### Pairs -/

/-- The pairs of a list are those of an element with one further behind, in the order of the places of
the first elements and then of the second ones. -/
lemma pairs_eq_filter {α : Type} (xs : List α) (k : Nat) : pairs xs =
    (((xs.zipIdx k) ×ˢ (xs.zipIdx k)).filter fun p => p.1.2 < p.2.2).map fun p => (p.1.1, p.2.1) := by
  induction xs generalizing k with
  | nil => rfl
  | cons x xs ih =>
    have behind : ∀ p ∈ xs.zipIdx (k + 1), k < p.2 := fun p hp => List.le_snd_of_mem_zipIdx hp
    have first : (((x, k) :: xs.zipIdx (k + 1)).map ((x, k), ·)).filter (fun p => p.1.2 < p.2.2) =
        (xs.zipIdx (k + 1)).map ((x, k), ·) := by
      rw [List.map_cons, List.filter_cons_of_neg (by simp)]
      exact List.filter_eq_self.2 (List.forall_mem_map.2 fun p hp => decide_eq_true (behind p hp))
    have rest : ((xs.zipIdx (k + 1)) ×ˢ ((x, k) :: xs.zipIdx (k + 1))).filter (fun p => p.1.2 < p.2.2) =
        ((xs.zipIdx (k + 1)) ×ˢ (xs.zipIdx (k + 1))).filter fun p => p.1.2 < p.2.2 := by
      show ((xs.zipIdx (k + 1)).flatMap fun p => ((x, k) :: xs.zipIdx (k + 1)).map (Prod.mk p)).filter _ =
        ((xs.zipIdx (k + 1)).flatMap fun p => (xs.zipIdx (k + 1)).map (Prod.mk p)).filter _
      rw [List.filter_flatMap, List.filter_flatMap]
      refine List.flatMap_congr fun p hp => ?_
      rw [List.map_cons, List.filter_cons_of_neg]
      simpa using (behind p hp).le
    rw [pairs, List.zipIdx_cons, List.product_cons, List.filter_append, first, rest, List.map_append,
      ← ih (k + 1), List.map_map]
    congr 1
    conv_lhs => rw [← List.zipIdx_map_fst (k + 1) xs, List.map_map]
    rfl

/-! ### Edges of join entities -/

/-- The targets of the foreign keys among the columns of the composite key, in its order. -/
def keyTargets (e : Entity) : List Nat :=
  (e.compositeKey?.getD []).filterMap fun column =>
    (e.field? column).bind fun f => f.foreignKey?.map (·.1)

lemma pairs_joinTargets (e : Entity) : pairs (joinTargets e) = pairs (keyTargets e) := by
  show pairs (if (keyTargets e).length < 2 then [] else keyTargets e) = pairs (keyTargets e)
  split
  · next few =>
    match keyTargets e, few with
    | [], _ => rfl
    | [_], _ => rfl
  · rfl

/-- The edges that an entity joins. -/
def joinEdges (e : Entity) : List Relationship :=
  (pairs (keyTargets e)).map fun (a, b) => ⟨.manyToMany, a, b, "", some e.id⟩

lemma entityRelationships_eq (e : Entity) :
    entityRelationships e = e.fields.filterMap (fieldRelationship? e) ++ joinEdges e := by
  rw [entityRelationships, pairs_joinTargets, joinEdges]

lemma of_mem_fields {e : Entity} {r : Relationship} (h : r ∈ e.fields.filterMap (fieldRelationship? e)) :
    ∃ f ∈ e.fields, r.source = e.id ∧ r.via = none ∧ r.kind ≠ .manyToMany ∧
      (f.type.binding = .entity r.target ∨ ∃ span, f.foreignKey? = some (r.target, span)) := by
  obtain ⟨f, hf, edge⟩ := List.mem_filterMap.1 h
  rw [fieldRelationship?_eq, Option.or_eq_some_iff] at edge
  obtain reference | ⟨-, list⟩ := edge
  · rw [referenceEdge?] at reference
    split at reference
    · next target span found =>
      split at reference
      · cases reference
        refine ⟨f, hf, rfl, rfl, ?_, .inr ⟨span, found⟩⟩
        cases f.carries .unique <;> simp
      · cases reference
    · cases reference
  · rw [listEdge?] at list
    split at list
    · next target bound =>
      split at list
      · cases list
        exact ⟨f, hf, rfl, rfl, by simp, .inl bound⟩
      · cases list
    · cases list

lemma filter_via_entityRelationships (e : Entity) (id : Nat) :
    (entityRelationships e).filter (fun r => r.kind == .manyToMany && r.via == some id) =
      if e.id = id then joinEdges e else [] := by
  have fields : (e.fields.filterMap (fieldRelationship? e)).filter
      (fun r => r.kind == .manyToMany && r.via == some id) = [] := by
    refine List.filter_eq_nil_iff.2 fun r hr => ?_
    obtain ⟨f, -, -, -, kind, -⟩ := of_mem_fields hr
    simp [kind]
  rw [entityRelationships_eq, List.filter_append, fields, List.nil_append]
  split
  · next here =>
    refine List.filter_eq_self.2 (List.forall_mem_map.2 fun p _ => ?_)
    simp [here]
  · next other =>
    refine List.filter_eq_nil_iff.2 (List.forall_mem_map.2 fun p _ => ?_)
    simp [other]

/-- The edges that an entity joins are the pairs of the targets in its key. -/
lemma filter_via {s : Schema} (numbered : s.Numbered) (apart : s.entities.Nodup) {e : Entity}
    (he : e ∈ s.entities) :
    (relationships s).filter (fun r => r.kind == .manyToMany && r.via == some e.id) = joinEdges e := by
  obtain ⟨front, back, split⟩ := List.append_of_mem he
  have others : ∀ x ∈ front ++ back, x.id ≠ e.id := by
    intro x hx same
    have mem : x ∈ s.entities := by
      rw [split, List.mem_append, List.mem_cons]
      rcases List.mem_append.1 hx with hx | hx
      · exact .inl hx
      · exact .inr (.inr hx)
    have twice : x = e := Option.some.inj ((numbered x mem).symm.trans (same ▸ numbered e he))
    rw [split] at apart
    exact (List.nodup_cons.1 (List.nodup_middle.1 apart)).1 (twice ▸ hx)
  have nothing (es : List Entity) (h : ∀ x ∈ es, x.id ≠ e.id) :
      (es.flatMap fun x => if x.id = e.id then joinEdges x else []) = [] :=
    List.flatMap_eq_nil_iff.2 fun x hx => if_neg (h x hx)
  obtain ⟨before, behind⟩ := List.forall_mem_append.1 others
  rw [relationships, List.filter_flatMap]
  simp only [filter_via_entityRelationships]
  rw [split, List.flatMap_append, List.flatMap_cons, nothing _ before, nothing _ behind, if_pos rfl]
  simp

/-! ### Positions -/

/-- An edge is between entities of the schema, and only an edge of a join entity is by way of one. -/
structure Relationship.Within (s : Schema) (r : Relationship) : Prop where
  source : r.source < s.entities.length
  target : r.target < s.entities.length
  via : r.kind = .manyToMany → ∃ id, r.via = some id ∧ id < s.entities.length
  direct : r.kind ≠ .manyToMany → r.via = none

lemma mem_pairs {α : Type} {xs : List α} {a b : α} (h : (a, b) ∈ pairs xs) : a ∈ xs ∧ b ∈ xs := by
  induction xs with
  | nil => cases h
  | cons x xs ih =>
    rw [pairs, List.mem_append] at h
    obtain here | later := h
    · obtain ⟨y, hy, e⟩ := List.mem_map.1 here
      cases e
      exact ⟨List.mem_cons_self, List.mem_cons_of_mem _ hy⟩
    · exact (ih later).imp (List.mem_cons_of_mem _) (List.mem_cons_of_mem _)

lemma within_of_mem_relationships {s : Schema} (numbered : s.Numbered) (closed : s.Closed)
    {r : Relationship} (h : r ∈ relationships s) : r.Within s := by
  have inside {id : Nat} {target : Entity} (found : s.entity? id = some target) :
      id < s.entities.length := (List.getElem?_eq_some_iff.1 found).1
  obtain ⟨e, he, edge⟩ := List.mem_flatMap.1 h
  have own : e.id < s.entities.length := inside (numbered e he)
  rw [entityRelationships_eq, List.mem_append] at edge
  obtain field | join := edge
  · obtain ⟨f, hf, source, via, kind, typed | ⟨span, key⟩⟩ := of_mem_fields field
    · obtain ⟨target, found⟩ := closed.entityType e he f hf _ typed
      exact ⟨source ▸ own, inside found, fun many => absurd many kind, fun _ => via⟩
    · obtain ⟨target, found⟩ := closed.foreignKey e he f hf _ span key
      exact ⟨source ▸ own, inside found, fun many => absurd many kind, fun _ => via⟩
  · have targets : ∀ id ∈ keyTargets e, id < s.entities.length := by
      intro id hid
      obtain ⟨column, -, found⟩ := List.mem_filterMap.1 hid
      obtain ⟨f, hf, bound⟩ := Option.bind_eq_some_iff.1 found
      obtain ⟨⟨target, span⟩, key, rfl⟩ := Option.map_eq_some_iff.1 bound
      obtain ⟨other, known⟩ := closed.foreignKey e he f (List.mem_of_find?_eq_some hf) _ span key
      exact inside known
    obtain ⟨⟨a, b⟩, hp, rfl⟩ := List.mem_map.1 join
    obtain ⟨ha, hb⟩ := mem_pairs hp
    exact ⟨targets a ha, targets b hb, fun _ => ⟨e.id, rfl, own⟩, fun other => absurd rfl other⟩

end Schema

namespace Ddl

open Schema

/-! ### Foreign keys of a script -/

/-- The table, column and target of a foreign key. -/
def ForeignKey.link (k : ForeignKey) : String × String × String := (k.table, k.column, k.target)

lemma map_link_collectForeignKeys (s : Schema) (e : Entity) (t : NameTable) :
    ((collectForeignKeys s e).run t).1.map (·.link) =
      (references s e).map fun reference => (e.name, reference.1, reference.2.name) :=
  map_mapM (fun _ _ => rfl) _ _

lemma map_link_keyGroups (s : Schema) : (keyGroups s).flatten.map (·.link) =
    s.entities.flatMap fun e => (references s e).map fun reference =>
      (e.name, reference.1, reference.2.name) := by
  have groups : (keyGroups s).map (List.map (·.link)) = _ :=
    map_mapM (fun e t => map_link_collectForeignKeys s e t) s.entities NameTable.empty
  rw [List.map_flatten, groups, List.flatMap_def]

/-- One step: the edges of the columns of an entity are its references. -/
lemma forall₂_referenceEdges {s : Schema} (numbered : s.Numbered) (closed : s.Closed) {e : Entity}
    (he : e ∈ s.entities) : List.Forall₂ (fun r link => DrawnAs s r link.1 link.2.1 link.2.2)
      (e.fields.filterMap (referenceEdge? e))
      ((references s e).map fun reference => (e.name, reference.1, reference.2.name)) := by
  rw [references, List.map_filterMap]
  refine List.rel_filterMap (R := fun f f' => f = f' ∧ f ∈ e.fields) ?_
    (List.forall₂_same.2 fun f hf => ⟨rfl, hf⟩)
  rintro f _ ⟨rfl, hf⟩
  dsimp only [referenceEdge?]
  cases key : f.foreignKey? with
  | none => exact .none
  | some key' =>
    obtain ⟨id, span⟩ := key'
    obtain ⟨target, known⟩ := closed.foreignKey e he f hf id span key
    dsimp only
    cases f.isColumn with
    | false => exact .none
    | true =>
      rw [known]
      refine .some ⟨⟨e, f, numbered e he, rfl, hf, rfl, ?_⟩, rfl, target, known, rfl⟩
      cases f.carries .unique <;> simp

/-- The run: the edges of columns are the foreign keys of the script, in order. -/
lemma forall₂_references {s : Schema} (numbered : s.Numbered) (closed : s.Closed) {opts : Options}
    {out : Output} (generated : generate opts s = .ok out) :
    List.Forall₂ (fun r p => DrawnAs s r p.1 p.2.column p.2.target)
      ((relationships s).filter (·.isReference)) out.placedKeys := by
  have all (es : List Entity) (among : ∀ e ∈ es, e ∈ s.entities) :
      List.Forall₂ (fun r link => DrawnAs s r link.1 link.2.1 link.2.2)
        (es.flatMap fun e => e.fields.filterMap (referenceEdge? e))
        (es.flatMap fun e => (references s e).map fun reference =>
          (e.name, reference.1, reference.2.name)) :=
    List.rel_flatMap (List.forall₂_same.2 fun e he => ⟨rfl, among e he⟩ :
        List.Forall₂ (fun e e' => e = e' ∧ e ∈ s.entities) es es)
      (by
        rintro e _ ⟨rfl, he⟩
        exact forall₂_referenceEdges numbered closed he)
  have links := all s.entities fun _ he => he
  rw [← map_link_keyGroups, List.forall₂_map_right_iff] at links
  rw [filter_isReference, placedKeys_of_generate generated, foreignKeys_eq_of_generate generated,
    List.forall₂_map_right_iff]
  exact links

end Ddl

namespace Advice

open Schema

/-! ### Orphans -/

variable {s : Schema} {d : Diagnostic}

/-- Only the rule about orphans gives advice of its code. -/
lemma mem_orphans_of_code (h : d ∈ run s) (code : d.code = Diagnostic.orphanEntity) : d ∈ orphans s := by
  have others {α : Type} {as : List α} {rule : α → Option Diagnostic} {other : String}
      (rules : ∀ a d, rule a = some d → d.code = other) (apart : other ≠ Diagnostic.orphanEntity)
      (mem : d ∈ as.filterMap rule) : d ∈ orphans s := by
    obtain ⟨a, -, given⟩ := List.mem_filterMap.1 mem
    exact absurd ((rules a d given).symm.trans code) apart
  simp only [run, List.mem_append] at h
  rcases h with (((h | h) | h) | h) | h
  · obtain ⟨e, -, h⟩ := List.mem_flatMap.1 h
    refine others (fun f d given => ?_) (by decide : Diagnostic.redundantPrimaryKey ≠ _) h
    split at given
    · split at given
      · cases given
        rfl
      · cases given
    · cases given
  · obtain ⟨e, -, h⟩ := List.mem_flatMap.1 h
    refine others (fun f d given => ?_) (by decide : Diagnostic.unindexedForeignKey ≠ _) h
    split at given
    · split at given
      · cases given
        rfl
      · cases given
    · cases given
  · exact h
  · obtain ⟨en, -, rfl⟩ := List.mem_map.1 h
    exact absurd code (by decide : Diagnostic.unusedEnum ≠ _)
  · obtain ⟨e, -, h⟩ := List.mem_flatMap.1 h
    refine others (fun f d given => ?_) (by decide : Diagnostic.missingForeignKey ≠ _) h
    split at given
    · split at given
      · cases given
        rfl
      · cases given
    · cases given

lemma isRelated_eq_false_iff {edges : List Relationship} {id : Nat} : isRelated edges id = false ↔
    ∀ r ∈ edges, r.source ≠ id ∧ r.target ≠ id ∧ r.via ≠ some id := by
  simp only [isRelated, List.any_eq_false, Bool.or_eq_true, beq_iff_eq, not_or, ne_eq, and_assoc]

/-- An entity is reported as an orphan just when there are others and it is on no edge. -/
lemma reported_iff_unrelated (apart : (s.entities.map (·.name)).Nodup) {e : Entity} (he : e ∈ s.entities) :
    (∃ d ∈ run s, d.code = Diagnostic.orphanEntity ∧ d.entity = e.name) ↔
      2 ≤ s.entities.length ∧
        ∀ r ∈ relationships s, r.source ≠ e.id ∧ r.target ≠ e.id ∧ r.via ≠ some e.id := by
  rw [← isRelated_eq_false_iff]
  constructor
  · rintro ⟨d, hd, code, named⟩
    have reported := mem_orphans_of_code hd code
    rw [orphans] at reported
    split at reported
    · cases reported
    · next several =>
      obtain ⟨x, hx, rfl⟩ := List.mem_map.1 reported
      obtain ⟨hx, alone⟩ := List.mem_filter.1 hx
      obtain rfl : x = e := List.inj_on_of_nodup_map apart hx he named
      exact ⟨not_lt.1 several, by simpa using alone⟩
  · rintro ⟨several, alone⟩
    let d := (advise s Diagnostic.orphanEntity ("entity " ++ e.name ++ " has no relationships") e.span).inEntity
      e.name
    have reported : d ∈ orphans s := by
      rw [orphans, if_neg (not_lt.2 several)]
      exact List.mem_map.2 ⟨e, List.mem_filter.2 ⟨he, by simpa using alone⟩, rfl⟩
    refine ⟨d, ?_, rfl, rfl⟩
    simp only [run, List.mem_append]
    exact .inl (.inl (.inr reported))

end Advice

namespace Schema

/-- **Relationships are the constraints of the script.** The edges of columns are, one for one and in
order, the foreign keys of the script in either dialect, and one row has one partner just where the
column is unique. An edge comes from the entity in whose table the clause of the key stands, or to whose
table it is added. The edges that an entity joins are the pairs of the targets in its composite key, in
the order of the key. All edges are between entities of the schema. And an entity is reported as an
orphan just when there are others and it is on no edge. -/
theorem relationships_match (doc : Document) :
    let s := (ofDocument doc).1
    (∀ opts out, Ddl.generate opts s = .ok out →
      (∀ st ∈ out.statements, ∀ p ∈ st.placedKeys, st.PutsOn out.dialect p.1 p.2) ∧
      List.Forall₂ (fun r p => DrawnAs s r p.1 p.2.column p.2.target)
        ((relationships s).filter fun r => r.kind == .manyToOne || r.kind == .oneToOne) out.placedKeys) ∧
    (∀ r ∈ relationships s, r.Within s) ∧
    ∀ e ∈ s.entities,
      ((relationships s).filter fun r => r.kind == .manyToMany && r.via == some e.id) =
        ((((keyTargets e).zipIdx ×ˢ (keyTargets e).zipIdx).filter fun p => p.1.2 < p.2.2).map
          fun p => ⟨.manyToMany, p.1.1, p.2.1, "", some e.id⟩) ∧
      ((∃ d ∈ Advice.run s, d.code = Diagnostic.orphanEntity ∧ d.entity = e.name) ↔
        2 ≤ s.entities.length ∧
          ∀ r ∈ relationships s, r.source ≠ e.id ∧ r.target ≠ e.id ∧ r.via ≠ some e.id) := by
  intro s
  have numbered : s.Numbered := numbered_ofDocument doc
  have closed : s.Closed := closed_ofDocument doc
  have names : (s.entities.map (·.name)).Nodup := entity_names_nodup doc
  refine ⟨fun opts out generated => ⟨fun st _ => (st.spelled _).keys,
      Ddl.forall₂_references numbered closed generated⟩,
    fun r hr => within_of_mem_relationships numbered closed hr, fun e he => ⟨?_, ?_⟩⟩
  · rw [filter_via numbered names.of_map he, joinEdges, pairs_eq_filter _ 0, List.map_map]
    rfl
  · exact Advice.reported_iff_unrelated names he

/-- Members of clubs, the card that each may have, and a poster that no one refers to. -/
def clubs : Document :=
  Compilation.document "clubs.erd" (Text.bytes
    (":Club\n  INT $.id PK\n:Person\n  INT $.id PK\n:Poster\n  INT $.id PK\n" ++
      ":Member\n  Club $.club FK\n  Person $.person FK UNIQUE\n  PK(person, club)\n")) {}

/-- The membership refers to a person, who has one, and to a club, and so links both. The poster is an
orphan. -/
theorem relationships_match_clubs :
    let s := (ofDocument clubs).1
    relationships s = [⟨.manyToOne, 3, 0, "club", none⟩, ⟨.oneToOne, 3, 1, "person", none⟩,
        ⟨.manyToMany, 1, 0, "", some 3⟩] ∧
      ∃ out, Ddl.generate {} s = .ok out ∧
        (∀ st ∈ out.statements, ∀ p ∈ st.placedKeys, st.PutsOn out.dialect p.1 p.2) ∧
        List.Forall₂ (fun r p => DrawnAs s r p.1 p.2.column p.2.target)
          ((relationships s).filter fun r => r.kind == .manyToOne || r.kind == .oneToOne) out.placedKeys ∧
        ∃ e ∈ s.entities, e.name = "Poster" ∧
          ∃ d ∈ Advice.run s, d.code = Diagnostic.orphanEntity ∧ d.entity = e.name := by
  intro s
  have facts : relationships s = [⟨.manyToOne, 3, 0, "club", none⟩, ⟨.oneToOne, 3, 1, "person", none⟩,
        ⟨.manyToMany, 1, 0, "", some 3⟩] ∧ (Ddl.generate {} s).toOption.isSome = true ∧
      ∃ e ∈ s.entities, e.name = "Poster" ∧ e.id = 2 ∧ s.entities.length = 4 := by
    show relationships (ofDocument clubs).1 = _ ∧ (Ddl.generate {} (ofDocument clubs).1).toOption.isSome = true ∧
      ∃ e ∈ (ofDocument clubs).1.entities, e.name = "Poster" ∧ e.id = 2 ∧
        (ofDocument clubs).1.entities.length = 4
    rw [clubs, Compilation.document, Compilation.read_bytes, String.toList_append]
    decide +kernel
  obtain ⟨edges, script, e, he, name, id, several⟩ := facts
  obtain ⟨out, found⟩ := Option.isSome_iff_exists.1 script
  have generated := Ddl.generate_of_mem_toOption found
  obtain ⟨keys, -, entities⟩ := relationships_match clubs
  obtain ⟨texts, drawn⟩ := keys {} out generated
  refine ⟨edges, out, generated, texts, drawn, e, he, name, (entities e he).2.2 ⟨?_, ?_⟩⟩
  · exact several ▸ (by decide)
  · rw [edges, id]
    decide

end Schema

end ErdSql
