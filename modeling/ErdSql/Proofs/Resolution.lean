import ErdSql.Schema.Resolution
import Mathlib

/-!
# Resolution

What building a schema from a document guarantees, and what it keeps of the document when it reports
nothing.

* `declare_names_nodup`, `distinctFields_names_nodup`: declared names and field names are pairwise
  different, whatever the document says.
* `declare_of_snd_eq_nil`, `distinctFields_of_snd_eq_nil`: where nothing is reported, nothing is left
  out.
* `buildEntity_fields`, `buildEntity_constraints`: features leave fields and keys alone.
* `target_lt_of_mem_buildField`: a bound foreign key points at a declared entity.
* `entities_ofDocument`: the entities of a document without reports, in order of declaration.

The functions that collect declarations and fields carry what was taken so far, so the inductions
generalise over it.
-/

namespace ErdSql

/-- The entity blocks of a document in order. -/
def Document.entities (doc : Document) : List Document.Entity :=
  doc.statements.filterMap fun
    | .entity e => some e
    | _ => none

namespace Schema

/-! ### Declarations -/

/-- The names of declarations stay pairwise different. -/
lemma declare_names_nodup {path : String} {taken ds : List Declaration}
    (nodup : (taken.map Declaration.name).Nodup) :
    ((declare path taken ds).1.map Declaration.name).Nodup := by
  induction ds generalizing taken with
  | nil => exact nodup
  | cons d ds ih =>
    rw [declare]
    split
    · next free =>
      refine ih ?_
      rw [List.find?_eq_none] at free
      rw [List.map_append, List.nodup_append]
      refine ⟨nodup, List.nodup_singleton _, ?_⟩
      intro a ha b hb e
      obtain ⟨first, hf, rfl⟩ := List.mem_map.1 ha
      refine free first hf ?_
      simpa using e.trans (List.mem_singleton.1 hb)
    · exact ih nodup

/-- What is declared was taken before or is seen. -/
lemma mem_of_mem_declare {path : String} {taken ds : List Declaration} {d : Declaration}
    (h : d ∈ (declare path taken ds).1) : d ∈ taken ∨ d ∈ ds := by
  induction ds generalizing taken with
  | nil => exact .inl h
  | cons x xs ih =>
    rw [declare] at h
    split at h
    · rcases ih h with h | h
      · rcases List.mem_append.1 h with h | h
        · exact .inl h
        · exact .inr (List.mem_cons.2 (.inl (List.mem_singleton.1 h)))
      · exact .inr (List.mem_cons_of_mem x h)
    · rcases ih h with h | h
      · exact .inl h
      · exact .inr (List.mem_cons_of_mem x h)

/-- Where no declaration is reported, all of them are taken. -/
lemma declare_of_snd_eq_nil {path : String} {taken ds : List Declaration}
    (h : (declare path taken ds).2 = []) : (declare path taken ds).1 = taken ++ ds := by
  induction ds generalizing taken with
  | nil => simp [declare]
  | cons d ds ih =>
    rw [declare] at h ⊢
    split at h
    · next free => rw [ih h, List.append_assoc, List.singleton_append]
    · cases h

/-- Everything reported about declarations is an error. -/
lemma isError_of_mem_declare {path : String} {taken ds : List Declaration} {d : Diagnostic}
    (h : d ∈ (declare path taken ds).2) : d.isError = true := by
  induction ds generalizing taken with
  | nil => cases h
  | cons x xs ih =>
    rw [declare] at h
    split at h
    · exact ih h
    · rcases List.mem_cons.1 h with rfl | h
      · rfl
      · exact ih h

/-! ### Fields -/

/-- The names of fields stay pairwise different. -/
lemma distinctFields_names_nodup {path entity : String} {taken fs : List Document.Field}
    (nodup : (taken.map (·.name)).Nodup) :
    ((distinctFields path entity taken fs).1.map (·.name)).Nodup := by
  induction fs generalizing taken with
  | nil => exact nodup
  | cons f fs ih =>
    rw [distinctFields]
    split
    · next free =>
      refine ih ?_
      rw [List.find?_eq_none] at free
      rw [List.map_append, List.nodup_append]
      refine ⟨nodup, List.nodup_singleton _, ?_⟩
      intro a ha b hb e
      obtain ⟨first, hf, rfl⟩ := List.mem_map.1 ha
      refine free first hf ?_
      simpa using e.trans (List.mem_singleton.1 hb)
    · exact ih nodup

/-- Where no field is reported, all of them are taken. -/
lemma distinctFields_of_snd_eq_nil {path entity : String} {taken fs : List Document.Field}
    (h : (distinctFields path entity taken fs).2 = []) :
    (distinctFields path entity taken fs).1 = taken ++ fs := by
  induction fs generalizing taken with
  | nil => simp [distinctFields]
  | cons f fs ih =>
    rw [distinctFields] at h ⊢
    split at h
    · next free => rw [ih h, List.append_assoc, List.singleton_append]
    · cases h

/-- Everything reported about fields is an error. -/
lemma isError_of_mem_distinctFields {path entity : String} {taken fs : List Document.Field}
    {d : Diagnostic} (h : d ∈ (distinctFields path entity taken fs).2) : d.isError = true := by
  induction fs generalizing taken with
  | nil => cases h
  | cons x xs ih =>
    rw [distinctFields] at h
    split at h
    · exact ih h
    · rcases List.mem_cons.1 h with rfl | h
      · rfl
      · exact ih h

/-- Building a field keeps its name. -/
@[simp]
lemma buildField_name (names : Names) (f : Document.Field) : (buildField names f).name = f.name :=
  rfl

/-- Building a field keeps its cardinality. -/
@[simp]
lemma buildField_cardinality (names : Names) (f : Document.Field) :
    (buildField names f).cardinality = f.cardinality := rfl

/-- A declared entity that is found stands among the declared ones. -/
lemma Names.entity?_lt {names : Names} {name : String} {id : Nat}
    (h : names.entity? name = some id) : id < names.entities.length := by
  obtain ⟨lt, _⟩ := List.findIdx?_eq_some_iff_getElem.1 h
  exact lt

/-- A type is bound to a declared entity only. -/
lemma bindType_entity_lt {names : Names} {t : Document.TypeRef} {id : Nat}
    (h : (bindType names t).binding = .entity id) : id < names.entities.length := by
  unfold bindType at h
  split at h
  · next i found =>
    cases h
    exact names.entity?_lt found
  · split at h
    · cases h
    · split at h <;> cases h

/-- A foreign key is bound to a declared entity only. -/
lemma bindTarget_lt {names : Names} {t : Document.TypeRef} {field : String}
    {explicit : Option String} {id : Nat}
    (h : (bindTarget names (bindType names t) field explicit).1 = some id) :
    id < names.entities.length := by
  unfold bindTarget at h
  split at h
  · exact names.entity?_lt h
  · split at h
    · next found =>
      cases h
      exact bindType_entity_lt found
    · unfold inferTarget at h
      dsimp only at h
      split at h
      · next found =>
        cases h
        exact names.entity?_lt found
      · split at h
        · next found =>
          cases h
          exact (List.findIdx?_eq_some_iff_getElem.1 found).1
        · cases h
    · cases h

/-- The target of a foreign key of a built field is a declared entity. -/
lemma target_lt_of_mem_buildField {names : Names} {f : Document.Field} {id : Nat} {name : String}
    {span : Span} (h : ⟨.foreignKey (some id) name, span⟩ ∈ (buildField names f).constraints) :
    id < names.entities.length := by
  obtain ⟨c, -, e⟩ := List.mem_map.1 h
  unfold bindConstraint at e
  cases hc : c.clause with
  | foreignKey explicit =>
    rw [hc] at e
    injection e with e _
    injection e with e _
    exact bindTarget_lt e
  | _ => rw [hc] at e; cases e

/-! ### Features -/

/-- A feature changes neither the names nor the fields nor the constraints of an entity. -/
lemma addFeature_frame {e e' : Entity} {d : Document.Directive} (h : addFeature e d = some e') :
    e'.id = e.id ∧ e'.name = e.name ∧ e'.fields = e.fields ∧ e'.constraints = e.constraints := by
  unfold addFeature at h
  split at h
  all_goals first
    | (split at h <;> cases h <;> exact ⟨rfl, rfl, rfl, rfl⟩)
    | (cases h; exact ⟨rfl, rfl, rfl, rfl⟩)

/-- Features change neither the names nor the fields nor the constraints of an entity. -/
lemma addFeatures_frame (path : String) (e : Entity) (ds : List Document.Directive) :
    (addFeatures path e ds).1.id = e.id ∧ (addFeatures path e ds).1.name = e.name ∧
      (addFeatures path e ds).1.fields = e.fields ∧
      (addFeatures path e ds).1.constraints = e.constraints := by
  induction ds generalizing e with
  | nil => exact ⟨rfl, rfl, rfl, rfl⟩
  | cons d ds ih =>
    rw [addFeatures]
    split
    · next e' added =>
      obtain ⟨i, n, f, c⟩ := addFeature_frame added
      rw [← i, ← n, ← f, ← c]
      exact ih e'
    · exact ih e

/-- Everything reported about features is an error. -/
lemma isError_of_mem_addFeatures {path : String} {e : Entity} {ds : List Document.Directive}
    {d : Diagnostic} (h : d ∈ (addFeatures path e ds).2) : d.isError = true := by
  induction ds generalizing e with
  | nil => cases h
  | cons x xs ih =>
    rw [addFeatures] at h
    split at h
    · exact ih h
    · rcases List.mem_cons.1 h with rfl | h
      · rfl
      · exact ih h

/-! ### Entities -/

section Entities
variable {path : String} {names : Names} {id : Nat} {node : Document.Entity}

/-- The first field line of each name. -/
def fieldLines (path : String) (node : Document.Entity) : List Document.Field :=
  (distinctFields path node.name [] node.fields).1

/-- A built entity has the name of its block. -/
@[simp]
lemma buildEntity_name : (buildEntity path names id node).entity.name = node.name :=
  (addFeatures_frame _ _ _).2.1

/-- A built entity has the position it was built for. -/
@[simp]
lemma buildEntity_id : (buildEntity path names id node).entity.id = id :=
  (addFeatures_frame _ _ _).1

/-- The fields of a built entity come from its field lines and key lines. -/
lemma buildEntity_fields :
    (buildEntity path names id node).entity.fields =
      (buildKeys ((fieldLines path node).map (buildField names)) node.keys).1 :=
  (addFeatures_frame _ _ _).2.2.1

/-- The constraints of a built entity come from its key lines. -/
lemma buildEntity_constraints :
    (buildEntity path names id node).entity.constraints =
      (buildKeys ((fieldLines path node).map (buildField names)) node.keys).2 :=
  (addFeatures_frame _ _ _).2.2.2

/-- The names that a built entity leaves unbound are those of its field lines. -/
lemma buildEntity_unresolved :
    (buildEntity path names id node).unresolved =
      ((fieldLines path node).map (buildField names)).flatMap (unresolvedOf node.name) := rfl

/-- Everything reported about an entity block is an error. -/
lemma isError_of_mem_buildEntity {d : Diagnostic}
    (h : d ∈ (buildEntity path names id node).diagnostics) : d.isError = true := by
  rcases List.mem_append.1 h with h | h
  · exact isError_of_mem_distinctFields h
  · exact isError_of_mem_addFeatures h

/-- Where nothing is reported about a block, all its field lines are kept and their names differ. -/
lemma fieldLines_of_diagnostics_eq_nil (h : (buildEntity path names id node).diagnostics = []) :
    fieldLines path node = node.fields ∧ (node.fields.map (·.name)).Nodup := by
  have none : (distinctFields path node.name [] node.fields).2 = [] :=
    (List.append_eq_nil_iff.1 h).1
  have kept : fieldLines path node = node.fields := distinctFields_of_snd_eq_nil none
  refine ⟨kept, ?_⟩
  rw [← kept]
  exact distinctFields_names_nodup (by simp)

end Entities

/-! ### Keys -/

/-- Marking a key keeps the names of the fields. -/
lemma map_name_markPrimaryKey (name : String) (span : Span) (fs : List Field) :
    (markPrimaryKey name span fs).map (·.name) = fs.map (·.name) := by
  induction fs with
  | nil => rfl
  | cons f fs ih =>
    rw [markPrimaryKey]
    split
    · split <;> rfl
    · simp [ih]

/-- Key lines keep the names of the fields. -/
lemma map_name_buildKeys (fs : List Field) (keys : List Document.KeyLine) :
    (buildKeys fs keys).1.map (·.name) = fs.map (·.name) := by
  unfold buildKeys
  split
  · rfl
  · split
    · exact map_name_markPrimaryKey _ _ _
    · rfl
  · rfl

/-- What the key lines of a block make of a field: nothing, or the mark of a key behind it. -/
def Marked (f g : Field) : Prop :=
  g = f ∨ ∃ span, g = { f with constraints := f.constraints ++ [⟨.primaryKey, span⟩] }

lemma forall₂_markPrimaryKey (name : String) (span : Span) (fs : List Field) :
    List.Forall₂ Marked fs (markPrimaryKey name span fs) := by
  induction fs with
  | nil => exact .nil
  | cons f fs ih =>
    rw [markPrimaryKey]
    split
    · refine .cons ?_ (List.forall₂_same.2 fun _ _ => .inl rfl)
      split
      · exact .inl rfl
      · exact .inr ⟨span, rfl⟩
    · exact .cons (.inl rfl) ih

/-- Key lines keep the fields of a block but for marks. -/
lemma forall₂_buildKeys (fs : List Field) (keys : List Document.KeyLine) :
    List.Forall₂ Marked fs (buildKeys fs keys).1 := by
  have same : List.Forall₂ Marked fs fs := List.forall₂_same.2 fun _ _ => .inl rfl
  unfold buildKeys
  split
  · exact same
  · split
    · exact forall₂_markPrimaryKey _ _ _
    · exact same
  · exact same

/-- The field names of a built entity are pairwise different. -/
lemma buildEntity_field_names_nodup {path : String} {names : Names} {id : Nat}
    {node : Document.Entity} :
    ((buildEntity path names id node).entity.fields.map (·.name)).Nodup := by
  rw [buildEntity_fields, map_name_buildKeys, List.map_map]
  exact distinctFields_names_nodup (by simp)

/-! ### Documents -/

/-- The declared names of a document. -/
def declaredNames (doc : Document) : Names :=
  let declared := (declare doc.path [] (doc.statements.filterMap Declaration.ofStatement?)).1
  ⟨(declared.filterMap Declaration.entity?).map (·.name),
    (declared.filterMap Declaration.enum?).map (·.name)⟩

/-- The entity blocks that a document declares. -/
def declaredEntities (doc : Document) : List Document.Entity :=
  (declare doc.path [] (doc.statements.filterMap Declaration.ofStatement?)).1.filterMap
    Declaration.entity?

/-- An entity that is declared stands in the document. -/
lemma mem_entities_of_declared {doc : Document} {node : Document.Entity}
    (h : node ∈ declaredEntities doc) : .entity node ∈ doc.statements := by
  obtain ⟨d, hd, e⟩ := List.mem_filterMap.1 h
  obtain ⟨st, hst, e'⟩ := List.mem_filterMap.1 ((mem_of_mem_declare hd).resolve_left List.not_mem_nil)
  cases st with
  | entity x =>
    cases e'
    cases e
    exact hst
  | enum x =>
    cases e'
    cases e
  | _ => cases e'

/-- The entities of a schema are built from the declared blocks. -/
lemma entities_ofDocument (doc : Document) :
    (ofDocument doc).1.entities = (declaredEntities doc).mapIdx fun id node =>
      (buildEntity doc.path (declaredNames doc) id node).entity := by
  refine List.ext_getElem ?_ ?_
  · simp [ofDocument, declaredEntities]
  · simp [ofDocument, declaredEntities, declaredNames]

/-- The unbound names of a schema are those of its entities. -/
lemma unresolved_ofDocument (doc : Document) :
    (ofDocument doc).1.unresolved = ((declaredEntities doc).mapIdx fun id node =>
      buildEntity doc.path (declaredNames doc) id node).flatMap (·.unresolved) := rfl

/-- There are as many entities as declared names. -/
lemma length_entities_ofDocument (doc : Document) :
    (ofDocument doc).1.entities.length = (declaredNames doc).entities.length := by
  rw [entities_ofDocument, List.length_mapIdx]
  simp [declaredNames, declaredEntities]

/-- The entities of a schema have the declared names in order. -/
lemma map_name_entities_ofDocument (doc : Document) :
    (ofDocument doc).1.entities.map (·.name) = (declaredEntities doc).map (·.name) := by
  rw [entities_ofDocument]
  refine List.ext_getElem ?_ ?_
  · simp
  · simp

/-- The names of entities are pairwise different. -/
lemma entity_names_nodup (doc : Document) :
    ((ofDocument doc).1.entities.map (·.name)).Nodup := by
  rw [map_name_entities_ofDocument, declaredEntities]
  have nodup := @declare_names_nodup doc.path [] (doc.statements.filterMap Declaration.ofStatement?)
    (by simp)
  rw [List.nodup_iff_pairwise_ne, List.pairwise_map] at nodup ⊢
  refine List.Pairwise.filterMap _ ?_ nodup
  intro a a' ne b hb b' hb'
  cases a <;> cases a' <;> cases hb <;> cases hb'
  exact ne

/-- The field names of each entity are pairwise different. -/
lemma field_names_nodup (doc : Document) :
    ∀ e ∈ (ofDocument doc).1.entities, (e.fields.map (·.name)).Nodup := by
  rw [entities_ofDocument]
  intro e he
  obtain ⟨i, hi, rfl⟩ := List.mem_mapIdx.1 he
  exact buildEntity_field_names_nodup

/-- Everything reported about building is an error. -/
lemma isError_of_mem_ofDocument {doc : Document} {d : Diagnostic} (h : d ∈ (ofDocument doc).2) :
    d.isError = true := by
  rcases List.mem_append.1 h with h | h
  · exact isError_of_mem_declare h
  · obtain ⟨b, hb, hd⟩ := List.mem_flatMap.1 h
    obtain ⟨i, hi, rfl⟩ := List.mem_mapIdx.1 hb
    exact isError_of_mem_buildEntity hd

/-- Where nothing is reported, every entity block of the document is declared. -/
lemma declaredEntities_of_snd_eq_nil {doc : Document} (h : (ofDocument doc).2 = []) :
    declaredEntities doc = doc.entities := by
  have none := (List.append_eq_nil_iff.1 h).1
  rw [declaredEntities, declare_of_snd_eq_nil none, List.nil_append, List.filterMap_filterMap,
    Document.entities]
  congr 1
  funext s
  cases s <;> rfl

/-- Where nothing is reported, nothing is reported about any block. -/
lemma diagnostics_eq_nil_of_snd_eq_nil {doc : Document} (h : (ofDocument doc).2 = []) {id : Nat}
    {node : Document.Entity} (hn : (declaredEntities doc)[id]? = some node) :
    (buildEntity doc.path (declaredNames doc) id node).diagnostics = [] := by
  have all := List.flatMap_eq_nil_iff.1 (List.append_eq_nil_iff.1 h).2
  refine all _ (List.mem_mapIdx.2 ?_)
  obtain ⟨lt, e⟩ := List.getElem?_eq_some_iff.1 hn
  exact ⟨id, lt, by rw [← e]; rfl⟩

end Schema

end ErdSql
