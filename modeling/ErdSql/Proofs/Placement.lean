import ErdSql.Advice
import ErdSql.Proofs.Findings
import ErdSql.Proofs.Positions

/-!
# Where diagnostics point

Every stage that looks at a document reports at a place of the document: a schema has the spans that were
read, and each rule reports at one of these.

* `Diagnostic.PointsInto`: a diagnostic is about places of a file.
* `Schema.within_ofDocument`: the schema of a document, and what is reported about building it.
* `Check.pointsInto_of_mem_run`, `Advice.pointsInto_of_mem_run`: what is found in a schema.
* `Compilation.diagnostics_shown`: every diagnostic about a document points into it, so that the lines
  around it can be shown.
-/

namespace ErdSql

variable {path : String} {n : Nat}

/-- A place in a file of `n` lines. -/
structure Location.Within (path : String) (n : Nat) (l : Location) : Prop where
  path : l.path = path
  place : InText n l.line l.column

namespace Diagnostic

/-- A diagnostic is about a place in a file of `n` lines, and its related places are in that file too. -/
structure PointsInto (path : String) (n : Nat) (d : Diagnostic) : Prop where
  location : d.location.Within path n
  related : ∀ r ∈ d.related, r.location.Within path n

variable {d : Diagnostic} {span : Span} (here : span.Within n)
include here

/-- What is reported at a span points into the file of the span. -/
lemma pointsInto_of_span (location : d.location = span.location path) (related : d.related = []) :
    d.PointsInto path n := by
  refine ⟨?_, by rw [related]; exact List.forall_mem_nil _⟩
  rw [location]
  exact ⟨rfl, here⟩

/-- So does what is reported at one span and refers to another one. -/
lemma pointsInto_of_spans {first : Span} {message : String} (early : first.Within n)
    (location : d.location = span.location path)
    (related : d.related = [⟨first.location path, message⟩]) : d.PointsInto path n := by
  refine ⟨?_, ?_⟩
  · rw [location]
    exact ⟨rfl, here⟩
  · rw [related]
    exact List.forall_mem_singleton.2 ⟨rfl, early⟩

end Diagnostic

namespace Schema

/-! ### Schemas -/

/-- A field whose spans are within a text. -/
structure Field.Within (n : Nat) (f : Field) : Prop where
  span : f.span.Within n
  type : f.type.span.Within n
  constraints : ∀ c ∈ f.constraints, c.span.Within n

/-- An entity whose spans are within a text. -/
structure Entity.Within (n : Nat) (e : Entity) : Prop where
  span : e.span.Within n
  fields : ∀ f ∈ e.fields, f.Within n
  constraints : ∀ c ∈ e.constraints, c.span.Within n
  partition : ∀ p ∈ e.partition, p.span.Within n
  ttl : ∀ t ∈ e.ttl, t.span.Within n
  fts : ∀ f ∈ e.fts, f.span.Within n
  policies : ∀ p ∈ e.policies, p.span.Within n
  softDelete : ∀ d ∈ e.softDelete, d.span.Within n

/-- The span of a constraint of a field. -/
lemma Field.Within.constraint? {f : Field} (h : f.Within n) {kind : ConstraintKind} {c : Constraint}
    (found : f.constraint? kind = some c) : c.span.Within n :=
  h.constraints c (List.mem_of_find?_eq_some found)

lemma Field.Within.foreignKey? {f : Field} (h : f.Within n) {id : Nat} {span : Span}
    (found : f.foreignKey? = some (id, span)) : span.Within n := by
  unfold Field.foreignKey? at found
  split at found
  · next key =>
    cases found
    exact h.constraint? key
  · cases found

/-- The spans of the features that name columns. -/
lemma Entity.Within.columnFeatures {e : Entity} (h : e.Within n) :
    ∀ x ∈ Check.columnFeatures e, x.2.2.Within n := by
  simp only [Check.columnFeatures, List.forall_mem_append, List.forall_mem_map, Option.mem_toList]
  exact ⟨⟨⟨h.partition, h.ttl⟩, h.fts⟩, h.softDelete⟩

/-- An enumeration whose spans are within a text. -/
structure Enum.Within (n : Nat) (e : Enum) : Prop where
  span : e.span.Within n
  variants : ∀ v ∈ e.variants, v.span.Within n

/-- A schema whose spans are within a text. -/
structure Within (n : Nat) (s : Schema) : Prop where
  entities : ∀ e ∈ s.entities, e.Within n
  enums : ∀ e ∈ s.enums, e.Within n
  unresolved : ∀ u ∈ s.unresolved, u.span.Within n

/-! ### Building -/

lemma span_bindType (names : Names) (t : Document.TypeRef) : (bindType names t).span = t.span := by
  unfold bindType
  split
  · rfl
  · split
    · rfl
    · split <;> rfl

lemma within_buildField (names : Names) {f : Document.Field} (h : f.Within n) :
    (buildField names f).Within n where
  span := h.span
  type := by
    rw [buildField, span_bindType]
    exact h.type
  constraints := List.forall_mem_map.2 h.constraints

lemma within_unresolvedOf {entity : String} {f : Field} (h : f.Within n) :
    ∀ u ∈ unresolvedOf entity f, u.span.Within n := by
  intro u hu
  rcases List.mem_append.1 hu with target | type
  · obtain ⟨c, hc, found⟩ := List.exists_of_findSome?_eq_some (Option.mem_toList.1 target)
    split at found
    · cases found
      exact h.constraints c hc
    · cases found
  · split at type
    · rw [List.mem_singleton.1 type]
      exact h.type
    · cases type

lemma within_markPrimaryKey {name : String} {span : Span} (key : span.Within n) {fs : List Field}
    (h : ∀ f ∈ fs, f.Within n) : ∀ f ∈ markPrimaryKey name span fs, f.Within n := by
  induction fs with
  | nil => exact List.forall_mem_nil _
  | cons f fs ih =>
    obtain ⟨first, others⟩ := List.forall_mem_cons.1 h
    rw [markPrimaryKey]
    split
    · refine List.forall_mem_cons.2 ⟨?_, others⟩
      split
      · exact first
      · exact ⟨first.span, first.type,
          List.forall_mem_append.2 ⟨first.constraints, List.forall_mem_singleton.2 key⟩⟩
    · exact List.forall_mem_cons.2 ⟨first, ih others⟩

section Keys
variable {keys : List Document.KeyLine} (inside : ∀ k ∈ keys, k.span.Within n)
include inside

lemma within_primaryKeyLine? {columns : List String} {span : Span}
    (h : primaryKeyLine? keys = some (columns, span)) : span.Within n := by
  unfold primaryKeyLine? at h
  dsimp only at h
  split at h
  · cases h
  · next first span' others lines =>
    have mem : (first, span') ∈ (first, span') :: others := List.mem_cons_self
    rw [← lines] at mem
    obtain ⟨k, hk, found⟩ := List.mem_filterMap.1 mem
    cases h
    split at found
    · cases found
      exact inside k hk
    · cases found

lemma within_otherKeys : ∀ c ∈ otherKeys keys, c.span.Within n := by
  intro c hc
  obtain ⟨k, hk, found⟩ := List.mem_filterMap.1 hc
  split at found
  · cases found
  · cases found
    exact inside k hk
  · cases found
    exact inside k hk

lemma within_buildKeys {fs : List Field} (h : ∀ f ∈ fs, f.Within n) :
    (∀ f ∈ (buildKeys fs keys).1, f.Within n) ∧ ∀ c ∈ (buildKeys fs keys).2, c.span.Within n := by
  have others := within_otherKeys inside
  unfold buildKeys
  split
  · exact ⟨h, others⟩
  · next column span line =>
    have key := within_primaryKeyLine? inside line
    split
    · exact ⟨within_markPrimaryKey key h, others⟩
    · exact ⟨h, List.forall_mem_cons.2 ⟨key, others⟩⟩
  · next columns span _ line =>
    exact ⟨h, List.forall_mem_cons.2 ⟨within_primaryKeyLine? inside line, others⟩⟩

end Keys

lemma within_addFeature {e e' : Entity} {d : Document.Directive} (h : e.Within n) (here : d.span.Within n)
    (added : addFeature e d = some e') : e'.Within n := by
  unfold addFeature at added
  split at added
  · split at added
    · cases added
    · cases added
      exact { h with partition := by rintro _ ⟨⟩; exact here }
  · split at added
    · cases added
    · cases added
      exact { h with ttl := by rintro _ ⟨⟩; exact here }
  · cases added
    exact { h with fts := List.forall_mem_append.2 ⟨h.fts, List.forall_mem_singleton.2 here⟩ }
  · split at added
    · cases added
    · cases added
      exact { h with }
  · cases added
    exact { h with policies := List.forall_mem_append.2 ⟨h.policies, List.forall_mem_singleton.2 here⟩ }
  · split at added
    · cases added
    · cases added
      exact { h with }
  · split at added
    · cases added
    · cases added
      exact { h with softDelete := by rintro _ ⟨⟩; exact here }

lemma within_addFeatures (path : String) {e : Entity} (h : e.Within n) {ds : List Document.Directive}
    (inside : ∀ d ∈ ds, d.span.Within n) : (addFeatures path e ds).1.Within n ∧
      ∀ d ∈ (addFeatures path e ds).2, d.PointsInto path n := by
  induction ds generalizing e with
  | nil => exact ⟨h, List.forall_mem_nil _⟩
  | cons d ds ih =>
    obtain ⟨here, others⟩ := List.forall_mem_cons.1 inside
    rw [addFeatures]
    split
    · next e' added => exact ih (within_addFeature h here added) others
    · obtain ⟨entity, reports⟩ := ih h others
      exact ⟨entity, List.forall_mem_cons.2 ⟨Diagnostic.pointsInto_of_span here rfl rfl, reports⟩⟩

/-- What is reported about the fields of an entity, which points at the lines of two of them. -/
lemma pointsInto_of_mem_distinctFields {entity : String} {fs : List Document.Field}
    (inside : ∀ f ∈ fs, f.span.Within n) : ∀ d ∈ (distinctFields path entity [] fs).2, d.PointsInto path n := by
  intro d hd
  obtain ⟨report, about, eq⟩ := exists_distinctFields_eq_collect path entity
  rw [eq] at hd
  obtain ⟨first, early, f, hf, rfl⟩ := exists_of_mem_collect _ hd
  obtain ⟨here, before⟩ := about first f
  exact Diagnostic.pointsInto_of_spans (inside f hf) (inside first early)
    (congrArg (fun x => x.2.2.2) here) before

/-- An entity, its unbound names, and what is reported about building it. -/
lemma within_buildEntity {names : Names} {id : Nat} {node : Document.Entity} (h : node.Within n) :
    (buildEntity path names id node).entity.Within n ∧
      (∀ u ∈ (buildEntity path names id node).unresolved, u.span.Within n) ∧
      ∀ d ∈ (buildEntity path names id node).diagnostics, d.PointsInto path n := by
  have lines : ∀ f ∈ (distinctFields path node.name [] node.fields).1, f.Within n := by
    rw [(distinctFields_eq_firsts path node.name node.fields).1]
    exact fun f hf => h.fields f (mem_of_mem_firsts _ hf)
  have fields := List.forall_mem_map.2 fun f hf => within_buildField names (lines f hf)
  obtain ⟨keyed, constraints⟩ := within_buildKeys h.keys fields
  obtain ⟨entity, again⟩ := within_addFeatures path
    (e := ⟨id, node.name, _, _, none, none, [], none, [], false, none, node.span⟩)
    ⟨h.span, keyed, constraints, by rintro _ ⟨⟩, by rintro _ ⟨⟩, List.forall_mem_nil _, List.forall_mem_nil _,
      by rintro _ ⟨⟩⟩ h.directives
  refine ⟨entity, ?_, List.forall_mem_append.2 ⟨?_, again⟩⟩
  · exact List.forall_mem_flatMap.2 fun f hf => within_unresolvedOf (fields f hf)
  · exact pointsInto_of_mem_distinctFields fun f hf => (h.fields f hf).span

/-- The schema of a document, and what is reported about building it. -/
lemma within_ofDocument {doc : Document} (h : ∀ st ∈ doc.statements, st.Within n) :
    (ofDocument doc).1.Within n ∧ ∀ d ∈ (ofDocument doc).2, d.PointsInto doc.path n := by
  have entities : ∀ node ∈ declaredEntities doc, node.Within n :=
    fun node hnode => h _ (mem_entities_of_declared hnode)
  have enums : ∀ e ∈ declaredEnums doc, e.Within n := by
    intro e he
    obtain ⟨st, hst, found⟩ := List.mem_filterMap.1 ((declaredEnums_sublist doc).subset he)
    split at found
    · cases found
      exact h _ hst
    · cases found
  have built : ∀ b ∈ (declaredEntities doc).mapIdx fun id node => buildEntity doc.path (declaredNames doc) id node,
      b.entity.Within n ∧ (∀ u ∈ b.unresolved, u.span.Within n) ∧
        ∀ d ∈ b.diagnostics, d.PointsInto doc.path n := by
    intro b hb
    obtain ⟨id, lt, rfl⟩ := List.mem_mapIdx.1 hb
    exact within_buildEntity (entities _ (List.getElem_mem lt))
  refine ⟨⟨List.forall_mem_map.2 fun b hb => (built b hb).1, ?_,
    List.forall_mem_flatMap.2 fun b hb => (built b hb).2.1⟩, List.forall_mem_append.2
      ⟨?_, List.forall_mem_flatMap.2 fun b hb => (built b hb).2.2⟩⟩
  · rw [enums_ofDocument]
    intro e he
    obtain ⟨id, lt, rfl⟩ := List.mem_mapIdx.1 he
    exact ⟨(enums _ (List.getElem_mem lt)).span, (enums _ (List.getElem_mem lt)).variants⟩
  · intro d hd
    have spans : ∀ x ∈ declarations doc, x.span.Within n := by
      intro x hx
      obtain ⟨st, hst, found⟩ := List.mem_filterMap.1 hx
      cases st <;> cases found
      · exact (h _ hst).name
      · exact (h _ hst).span
    obtain ⟨report, about, eq⟩ := exists_declare_eq_collect doc.path
    rw [eq] at hd
    obtain ⟨first, early, x, hx, rfl⟩ := exists_of_mem_collect _ hd
    obtain ⟨here, before⟩ := about first x
    exact Diagnostic.pointsInto_of_spans (spans x hx) (spans first early) (congrArg (fun x => x.2.2.2) here)
      before

end Schema

open Schema

/-! ### Rules -/

namespace Check

variable {s : Schema} (h : s.Within n)
include h

lemma pointsInto_of_mem_primaryKeys : ∀ d ∈ primaryKeys s, d.PointsInto s.path n := by
  intro d hd
  obtain ⟨e, he, hd⟩ := List.mem_flatMap.1 hd
  have here := (h.entities e he).span
  split at hd
  · rw [List.mem_singleton.1 hd]
    exact Diagnostic.pointsInto_of_span here rfl rfl
  · cases hd
  · rw [List.mem_singleton.1 hd]
    exact Diagnostic.pointsInto_of_span here rfl rfl

lemma pointsInto_of_mem_unresolvedNames {kind : ReferenceKind} {code : String} {message : Unresolved → String} :
    ∀ d ∈ unresolvedNames s kind code message, d.PointsInto s.path n :=
  List.forall_mem_map.2 fun u hu =>
    Diagnostic.pointsInto_of_span (h.unresolved u (List.mem_of_mem_filter hu)) rfl rfl

lemma pointsInto_of_mem_foreignKeys : ∀ d ∈ foreignKeys s, d.PointsInto s.path n := by
  refine List.forall_mem_append.2 ⟨pointsInto_of_mem_unresolvedNames h, fun d hd => ?_⟩
  obtain ⟨e, he, f, hf, hd⟩ := mem_perField.1 hd
  split at hd
  · cases hd
  · next id span key =>
    have here := ((h.entities e he).fields f hf).foreignKey? key
    split at hd
    · cases hd
    · split at hd
      · rw [List.mem_singleton.1 hd]
        exact Diagnostic.pointsInto_of_span here rfl rfl
      · cases hd

lemma pointsInto_of_mem_keyColumns : ∀ d ∈ keyColumns s, d.PointsInto s.path n := by
  intro d hd
  obtain ⟨e, he, hd⟩ := List.mem_flatMap.1 hd
  rcases List.mem_append.1 hd with hd | hd
  · obtain ⟨c, hc, hd⟩ := List.mem_flatMap.1 hd
    have here := (h.entities e he).constraints c hc
    split at hd
    · cases hd
    · split at hd
      · rw [List.mem_singleton.1 hd]
        exact Diagnostic.pointsInto_of_span here rfl rfl
      · obtain ⟨column, -, rfl⟩ := List.mem_map.1 hd
        exact Diagnostic.pointsInto_of_span here rfl rfl
  · obtain ⟨x, hx, hd⟩ := List.mem_flatMap.1 hd
    have here := (h.entities e he).columnFeatures x hx
    dsimp only at hd
    split at hd
    · rw [List.mem_singleton.1 hd]
      exact Diagnostic.pointsInto_of_span here rfl rfl
    · obtain ⟨column, -, rfl⟩ := List.mem_map.1 hd
      exact Diagnostic.pointsInto_of_span here rfl rfl

omit h in
lemma mem_of_mem_repeatedVariants {seen : List String} {vs : List Document.Variant} {v : Document.Variant}
    (hv : v ∈ repeatedVariants seen vs) : v ∈ vs := by
  fun_induction repeatedVariants seen vs with
  | case1 => exact hv
  | case2 seen w ws _ ih =>
    obtain rfl | later := List.mem_cons.1 hv
    · exact List.mem_cons_self
    · exact List.mem_cons_of_mem w (ih later)
  | case3 seen w ws _ ih => exact List.mem_cons_of_mem w (ih hv)

lemma pointsInto_of_mem_typeReferences : ∀ d ∈ typeReferences s, d.PointsInto s.path n := by
  refine List.forall_mem_append.2 ⟨pointsInto_of_mem_unresolvedNames h, fun d hd => ?_⟩
  obtain ⟨e, he, hd⟩ := List.mem_flatMap.1 hd
  obtain ⟨v, hv, rfl⟩ := List.mem_map.1 hd
  exact Diagnostic.pointsInto_of_span ((h.enums e he).variants v (mem_of_mem_repeatedVariants hv)) rfl rfl

lemma pointsInto_of_mem_duplicateConstraints : ∀ d ∈ duplicateConstraints s, d.PointsInto s.path n := by
  intro d hd
  obtain ⟨e, he, f, hf, hd⟩ := mem_perField.1 hd
  obtain ⟨kind, -, hd⟩ := List.mem_flatMap.1 hd
  split at hd
  · next first second others found =>
    have mem : second ∈ first :: second :: others := List.mem_cons_of_mem _ List.mem_cons_self
    rw [← found] at mem
    rw [List.mem_singleton.1 hd]
    have here := ((h.entities e he).fields f hf).constraints second (List.mem_of_mem_filter mem)
    exact Diagnostic.pointsInto_of_span here rfl rfl
  · cases hd

omit h in
/-- An expression is reported where it stands, whichever entity and field it is of. -/
lemma pointsInto_of_mem_unbalanced {span : Span} (here : span.Within n) {expr : String} {d : Diagnostic}
    (hd : d ∈ unbalanced s span expr) : d.PointsInto s.path n := by
  unfold unbalanced at hd
  split at hd
  · cases hd
  · rw [List.mem_singleton.1 hd]
    exact Diagnostic.pointsInto_of_span here rfl rfl

lemma pointsInto_of_mem_expressions : ∀ d ∈ expressions s, d.PointsInto s.path n := by
  intro d hd
  obtain ⟨e, he, hd⟩ := List.mem_flatMap.1 hd
  have entity := h.entities e he
  rcases List.mem_append.1 hd with hd | hd
  · rcases List.mem_append.1 hd with hd | hd
    · obtain ⟨f, hf, hd⟩ := List.mem_flatMap.1 hd
      obtain ⟨c, hc, hd⟩ := List.mem_flatMap.1 hd
      split at hd
      · obtain ⟨d', hd', rfl⟩ := List.mem_map.1 hd
        have found := pointsInto_of_mem_unbalanced ((entity.fields f hf).constraints c hc) hd'
        exact ⟨found.location, found.related⟩
      · cases hd
    · obtain ⟨c, hc, hd⟩ := List.mem_flatMap.1 hd
      split at hd
      · obtain ⟨d', hd', rfl⟩ := List.mem_map.1 hd
        have found := pointsInto_of_mem_unbalanced (entity.constraints c hc) hd'
        exact ⟨found.location, found.related⟩
      · cases hd
  · obtain ⟨p, hp, hd⟩ := List.mem_flatMap.1 hd
    obtain ⟨expr, -, hd⟩ := List.mem_flatMap.1 hd
    obtain ⟨d', hd', rfl⟩ := List.mem_map.1 hd
    have found := pointsInto_of_mem_unbalanced (entity.policies p hp) hd'
    exact ⟨found.location, found.related⟩

lemma pointsInto_of_mem_defaults : ∀ d ∈ defaults s, d.PointsInto s.path n := by
  intro d hd
  obtain ⟨e, he, f, hf, hd⟩ := mem_perField.1 hd
  obtain ⟨c, hc, hd⟩ := List.mem_flatMap.1 hd
  split at hd
  · split at hd
    · rw [List.mem_singleton.1 hd]
      have here := ((h.entities e he).fields f hf).constraints c hc
      exact Diagnostic.pointsInto_of_span here rfl rfl
    · cases hd
  · cases hd

lemma pointsInto_of_mem_mapFields : ∀ d ∈ mapFields s, d.PointsInto s.path n := by
  intro d hd
  obtain ⟨e, he, f, hf, hd⟩ := mem_perField.1 hd
  split at hd
  · rw [List.mem_singleton.1 hd]
    exact Diagnostic.pointsInto_of_span ((h.entities e he).fields f hf).span rfl rfl
  · cases hd

/-- Every rule reports at spans of the schema. -/
lemma pointsInto_of_mem_run : ∀ d ∈ run s, d.PointsInto s.path n := by
  simp only [run, List.forall_mem_append]
  exact ⟨⟨⟨⟨⟨⟨⟨pointsInto_of_mem_primaryKeys h, pointsInto_of_mem_foreignKeys h⟩,
    pointsInto_of_mem_keyColumns h⟩, pointsInto_of_mem_typeReferences h⟩,
    pointsInto_of_mem_duplicateConstraints h⟩, pointsInto_of_mem_expressions h⟩,
    pointsInto_of_mem_defaults h⟩, pointsInto_of_mem_mapFields h⟩

end Check

namespace Advice

variable {s : Schema} (h : s.Within n)
include h

/-- So does advice. -/
lemma pointsInto_of_mem_run : ∀ d ∈ run s, d.PointsInto s.path n := by
  simp only [run, List.forall_mem_append]
  refine ⟨⟨⟨⟨fun d hd => ?_, fun d hd => ?_⟩, fun d hd => ?_⟩, fun d hd => ?_⟩, fun d hd => ?_⟩
  · obtain ⟨e, he, hd⟩ := List.mem_flatMap.1 hd
    obtain ⟨f, hf, found⟩ := List.mem_filterMap.1 hd
    split at found
    · next c key =>
      split at found
      · cases found
        have here := ((h.entities e he).fields f hf).constraint? key
        exact Diagnostic.pointsInto_of_span here rfl rfl
      · cases found
    · cases found
  · obtain ⟨e, he, hd⟩ := List.mem_flatMap.1 hd
    obtain ⟨f, hf, found⟩ := List.mem_filterMap.1 hd
    split at found
    · next target span key =>
      split at found
      · cases found
        have here := ((h.entities e he).fields f hf).foreignKey? key
        exact Diagnostic.pointsInto_of_span here rfl rfl
      · cases found
    · cases found
  · unfold orphans at hd
    split at hd
    · cases hd
    · obtain ⟨e, he, rfl⟩ := List.mem_map.1 hd
      exact Diagnostic.pointsInto_of_span (h.entities e (List.mem_of_mem_filter he)).span rfl rfl
  · obtain ⟨e, he, rfl⟩ := List.mem_map.1 hd
    exact Diagnostic.pointsInto_of_span (h.enums e (List.mem_of_mem_filter he)).span rfl rfl
  · obtain ⟨e, he, hd⟩ := List.mem_flatMap.1 hd
    obtain ⟨f, hf, found⟩ := List.mem_filterMap.1 hd
    split at found
    · split at found
      · cases found
        exact Diagnostic.pointsInto_of_span ((h.entities e he).fields f hf).span rfl rfl
      · cases found
    · cases found

end Advice

namespace Compilation

/-- **Diagnostics point into the document.** What a compilation reports is what scanning, reading, building
and checking the document report, then the findings about the overlay, then advice if it is asked for, and
then the failure of a plugin if there is one. All but the findings about the overlay and the failure, and
all their related places, are in the document of that path: on a line that the line feeds of the source
make, at a column from one on. So with any number of lines around it, up to the largest word, there is a
window that shows the line. -/
theorem diagnostics_shown (path : String) (src : List UInt8) (o : CompileOptions) :
    let doc := document path src o
    let schema := (Schema.ofDocument doc).1
    let stages := (read path src o.plugins).2.1.map (scanDiagnostic path) ++
      (read path src o.plugins).2.2.map (parseDiagnostic path) ++ (Schema.ofDocument doc).2 ++ Check.run schema
    let advice := if o.lint then Advice.run schema else []
    (∃ failure, (run path src o).diagnostics = stages ++ o.overlay.check schema ++ advice ++ failure ∧
      ∀ d ∈ failure, ∃ e, d = generateDiagnostic path e) ∧
    ∀ d ∈ stages ++ advice, ∀ l ∈ d.location :: d.related.map (·.location),
      l.path = path ∧ 1 ≤ l.line ∧ l.line ≤ 1 + src.count (Text.ascii '\n') ∧ 1 ≤ l.column ∧
      ∀ around : Nat, l.line + around < 2 ^ 63 →
        ∃ window, Snippet.extract (Text.ofBytes src) l.line l.column around = .ok window ∧
          Snippet.Shows (Text.ofBytes src) l.line l.column around window := by
  intro doc schema stages advice
  obtain ⟨statements, parseErrors⟩ := within_read path src o
  obtain ⟨within, reports⟩ := Schema.within_ofDocument statements
  have scanErrors := (Scan.within_ofBytes src).2
  have all : ∀ d ∈ stages ++ advice, d.PointsInto path (1 + src.count (Text.ascii '\n')) := by
    refine List.forall_mem_append.2 ⟨List.forall_mem_append.2 ⟨List.forall_mem_append.2
      ⟨List.forall_mem_append.2 ⟨?_, ?_⟩, reports⟩, Check.pointsInto_of_mem_run within⟩, ?_⟩
    · exact List.forall_mem_map.2 fun e he => ⟨⟨rfl, scanErrors e he⟩, List.forall_mem_nil _⟩
    · exact List.forall_mem_map.2 fun e he => ⟨⟨rfl, parseErrors e he⟩, List.forall_mem_nil _⟩
    · change ∀ d ∈ if o.lint then Advice.run schema else [], _
      split
      · exact Advice.pointsInto_of_mem_run within
      · exact List.forall_mem_nil _
  refine ⟨?_, fun d hd l hl => ?_⟩
  · rw [run_eq]
    split
    · exact ⟨[], (List.append_nil _).symm, List.forall_mem_nil _⟩
    · next e _ => exact ⟨[generateDiagnostic path e], rfl, List.forall_mem_singleton.2 ⟨e, rfl⟩⟩
  · obtain ⟨location, related⟩ := all d hd
    obtain ⟨same, place⟩ := List.forall_mem_cons.2 ⟨location, List.forall_mem_map.2 related⟩ l hl
    have last : l.line ≤ (Snippet.fileLines (Text.ofBytes src)).length := by
      rw [Snippet.length_fileLines, Text.count_feed_ofBytes]
      exact place.last
    refine ⟨same, place.first, ?_, place.column, Snippet.exists_shows place.first last l.column⟩
    exact_mod_cast place.last

/-- An entity is declared twice, a field line ends early, and a string is open at the end of the file. -/
def tags : List UInt8 := Text.bytes ":Tag\n  INT $.id PK\n  TEXT\n:Tag\n  'x"

/-- The repetition refers to the first line. The field line ends behind its last character, where the file
has no character. -/
theorem diagnostics_shown_of_tags :
    (∃ d ∈ (run "tags.erd" tags {}).diagnostics, d.location = ⟨"tags.erd", 4, 1⟩ ∧
      d.related.map (·.location) = [⟨"tags.erd", 1, 1⟩] ∧
      ∀ around : Nat, 1 + (around : Int) < 2 ^ 63 →
        ∃ window, Snippet.extract (Text.ofBytes tags) 1 1 around = .ok window ∧
          Snippet.Shows (Text.ofBytes tags) 1 1 around window) ∧
    ∃ d ∈ (run "tags.erd" tags {}).diagnostics, d.location = ⟨"tags.erd", 3, 7⟩ ∧
      ∀ around : Nat, 3 + (around : Int) < 2 ^ 63 →
        ∃ window, Snippet.extract (Text.ofBytes tags) 3 7 around = .ok window ∧
          Snippet.Shows (Text.ofBytes tags) 3 7 around window := by
  have repeated : ∃ d ∈ (Schema.ofDocument (document "tags.erd" tags {})).2,
      d.location = ⟨"tags.erd", 4, 1⟩ ∧ d.related.map (·.location) = [⟨"tags.erd", 1, 1⟩] := by
    rw [document, tags, read_bytes]
    decide +kernel
  have ended : ∃ e ∈ (read "tags.erd" tags (CompileOptions.plugins {})).2.2, e.line = 3 ∧ e.column = 7 := by
    rw [tags, read_bytes]
    decide +kernel
  obtain ⟨⟨failure, reported, -⟩, shown⟩ := diagnostics_shown "tags.erd" tags {}
  obtain ⟨d, hd, location, related⟩ := repeated
  obtain ⟨e, he, line, column⟩ := ended
  have found : parseDiagnostic "tags.erd" e ∈ (read "tags.erd" tags (CompileOptions.plugins {})).2.2.map
      (parseDiagnostic "tags.erd") := List.mem_map_of_mem he
  have place : (parseDiagnostic "tags.erd" e).location = ⟨"tags.erd", 3, 7⟩ := by
    rw [parseDiagnostic, line, column]
    rfl
  rw [reported]
  simp only [List.mem_append] at shown ⊢
  refine ⟨⟨d, .inl (.inl (.inl (.inl (.inr hd)))), location, related, ?_⟩, parseDiagnostic "tags.erd" e,
    .inl (.inl (.inl (.inl (.inl (.inr found))))), place, ?_⟩
  · have mem : ⟨"tags.erd", 1, 1⟩ ∈ d.related.map (·.location) := related ▸ List.mem_singleton_self _
    exact (shown d (.inl (.inl (.inr hd))) _ (List.mem_cons_of_mem _ mem)).2.2.2.2
  · exact (shown (parseDiagnostic "tags.erd" e) (.inl (.inl (.inl (.inr found)))) _
      (List.mem_cons.2 (.inl place.symm))).2.2.2.2

/-- With the largest number of lines around it the repetition is not shown: the last line of the window has no
word, and the bounds are those of no part of the file. -/
theorem diagnostics_hidden :
    (∃ d ∈ (run "tags.erd" tags {}).diagnostics, d.location = ⟨"tags.erd", 4, 1⟩) ∧
      Snippet.extract (Text.ofBytes tags) 4 1 (2 ^ 63 - 1) = .error (.noPart 0 (3 - 2 ^ 63)) := by
  constructor
  · rw [run, analyse, tags, read_bytes]
    decide +kernel
  · rw [tags, Text.ofBytes, Text.decode?_bytes]
    decide +kernel

end Compilation

end ErdSql
