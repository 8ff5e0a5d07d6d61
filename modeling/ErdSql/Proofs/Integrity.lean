import ErdSql.Proofs.Resolution

/-!
# Integrity of schemas

Whatever a document says, its schema is in order. The stages behind resolution rely on this: they
follow positions of entities and enumerations without a further look.

* `firsts`, `repetitions`: what is kept of a list of names and what is reported.
* `collect_eq`: collecting keeps the first occurrences and reports every other element once.
* `report_addFeatures`: a feature that may stand only once is reported at every repetition.
* `ofDocument_integrity`: the schema of a document and the reports about it.
-/

namespace ErdSql

/-- What a diagnostic is about: its code, entity, field and place. -/
def Diagnostic.report (d : Diagnostic) : String × String × String × Location :=
  (d.code, d.entity, d.field, d.location)

namespace Schema

/-! ### First occurrences -/

section Occurrences
variable {α : Type} (key : α → String)

/-- Whether an element in front of a position has the key of the element there. -/
def repeats (xs : List α) (p : α × Nat) : Bool :=
  (xs.take p.2).any fun y => key y == key p.1

/-- The elements whose key no earlier element has. -/
def firsts (xs : List α) : List α :=
  (xs.zipIdx.filter fun p => !repeats key xs p).map Prod.fst

/-- The elements whose key an earlier element has. -/
def repetitions (xs : List α) : List α :=
  (xs.zipIdx.filter (repeats key xs)).map Prod.fst

/-- Elements behind a position change nothing in front of it. -/
lemma repeats_append {xs : List α} {p : α × Nat} (h : p ∈ xs.zipIdx) (ys : List α) :
    repeats key (xs ++ ys) p = repeats key xs p := by
  have lt := List.snd_lt_of_mem_zipIdx h
  rw [repeats, repeats, List.take_append_of_le_length (by omega)]

lemma zipIdx_concat (xs : List α) (x : α) : (xs ++ [x]).zipIdx = xs.zipIdx ++ [(x, xs.length)] := by
  rw [List.zipIdx_append]
  simp

lemma repeats_concat (xs : List α) (x : α) :
    repeats key (xs ++ [x]) (x, xs.length) = xs.any fun y => key y == key x := by
  rw [repeats, List.take_left' rfl]

/-- One more element is kept unless its key is taken. -/
lemma firsts_concat (xs : List α) (x : α) : firsts key (xs ++ [x]) =
    if xs.any fun y => key y == key x then firsts key xs else firsts key xs ++ [x] := by
  have same : (xs.zipIdx.filter fun p => !repeats key (xs ++ [x]) p) =
      xs.zipIdx.filter fun p => !repeats key xs p :=
    List.filter_congr fun p hp => by rw [repeats_append key hp]
  rw [firsts, zipIdx_concat, List.filter_append, same]
  cases taken : xs.any fun y => key y == key x <;>
    simp [repeats_concat, taken, firsts]

/-- One more element is a repetition if its key is taken. -/
lemma repetitions_concat (xs : List α) (x : α) : repetitions key (xs ++ [x]) =
    if xs.any fun y => key y == key x then repetitions key xs ++ [x] else repetitions key xs := by
  have same : xs.zipIdx.filter (repeats key (xs ++ [x])) = xs.zipIdx.filter (repeats key xs) :=
    List.filter_congr fun p hp => repeats_append key hp [x]
  rw [repetitions, zipIdx_concat, List.filter_append, same]
  cases taken : xs.any fun y => key y == key x <;>
    simp [repeats_concat, taken, repetitions]

/-- Every key of a list is the key of a first occurrence. -/
lemma any_firsts (xs : List α) (k : String) :
    ((firsts key xs).any fun y => key y == k) = xs.any fun y => key y == k := by
  induction xs using List.reverseRecOn with
  | nil => rfl
  | append_singleton xs x ih =>
    rw [firsts_concat, List.any_append]
    split
    · next taken =>
      -- a repetition has the key of an element that was kept
      rw [ih, List.any_cons, List.any_nil, Bool.or_false]
      cases h : key x == k with
      | false => rw [Bool.or_false]
      | true =>
        rw [beq_iff_eq] at h
        rw [← h, taken]
        rfl
    · rw [List.any_append, ih]

/-- First occurrences are elements. -/
lemma mem_of_mem_firsts {xs : List α} {x : α} (h : x ∈ firsts key xs) : x ∈ xs := by
  obtain ⟨p, hp, rfl⟩ := List.mem_map.1 h
  exact List.fst_mem_of_mem_zipIdx (List.mem_of_mem_filter hp)

/-- Where all keys differ every element is a first occurrence. -/
lemma occurrences_of_nodup {xs : List α} (h : (xs.map key).Nodup) :
    firsts key xs = xs ∧ repetitions key xs = [] := by
  induction xs using List.reverseRecOn with
  | nil => exact ⟨rfl, rfl⟩
  | append_singleton xs x ih =>
    rw [List.map_append, List.nodup_append] at h
    have free : (xs.any fun y => key y == key x) = false := by
      rw [List.any_eq_false]
      intro y hy
      simpa using h.2.2 (key y) (List.mem_map_of_mem hy) (key x) (by simp)
    rw [firsts_concat, repetitions_concat, free, (ih h.1).1, (ih h.1).2]
    exact ⟨rfl, rfl⟩

/-- First occurrences have different keys. -/
lemma nodup_firsts (xs : List α) : ((firsts key xs).map key).Nodup := by
  induction xs using List.reverseRecOn with
  | nil => exact List.nodup_nil
  | append_singleton xs x ih =>
    rw [firsts_concat]
    split
    · exact ih
    · next free =>
      rw [List.map_append, List.map_singleton, List.nodup_append]
      refine ⟨ih, List.nodup_singleton _, ?_⟩
      intro a ha b hb e
      obtain ⟨y, hy, rfl⟩ := List.mem_map.1 ha
      rw [List.mem_singleton] at hb
      apply free
      rw [← any_firsts]
      exact List.any_eq_true.2 ⟨y, hy, by simp [e, hb]⟩

/-- The first element of each key, in order, and a report for every other one. -/
def collect (report : α → α → Diagnostic) (taken : List α) : List α → List α × List Diagnostic
  | [] => (taken, [])
  | x :: xs =>
    match taken.find? (fun first => key first == key x) with
    | none => collect report (taken ++ [x]) xs
    | some first =>
      let (all, more) := collect report taken xs
      (all, report first x :: more)

/-- Collecting keeps the first occurrences and reports every other element once, in order. -/
lemma collect_eq {β : Type} {report : α → α → Diagnostic} {view : Diagnostic → β} {about : α → β}
    (h : ∀ first x, view (report first x) = about x) (before xs : List α) :
    (collect key report (firsts key before) xs).1 = firsts key (before ++ xs) ∧
      (repetitions key before).map about ++
          (collect key report (firsts key before) xs).2.map view =
        (repetitions key (before ++ xs)).map about := by
  -- what was taken so far are the first occurrences among the elements in front
  induction xs generalizing before with
  | nil => simp [collect]
  | cons x xs ih =>
    obtain ⟨all, more⟩ := ih (before ++ [x])
    rw [List.append_assoc, List.singleton_append, firsts_concat] at all more
    rw [repetitions_concat] at more
    have found := any_firsts key before (key x)
    rw [collect]
    split
    · next none =>
      have free : (before.any fun y => key y == key x) = false := by
        rw [← found, List.any_eq_false]
        exact List.find?_eq_none.1 none
      rw [free, if_neg Bool.false_ne_true] at all more
      exact ⟨all, more⟩
    · next first some =>
      have taken : (before.any fun y => key y == key x) = true := by
        rw [← found]
        have same := List.find?_some some
        exact List.any_eq_true.2 ⟨first, List.mem_of_find?_eq_some some, same⟩
      rw [taken, if_pos rfl] at all more
      refine ⟨all, ?_⟩
      rw [← more, if_pos rfl, List.map_append, List.append_assoc, List.map_cons, h]
      rfl

/-- Every report is about an element and the first one with its key. -/
lemma exists_of_mem_collect {report : α → α → Diagnostic} {taken xs : List α} {d : Diagnostic}
    (h : d ∈ (collect key report taken xs).2) : ∃ first ∈ taken ++ xs, ∃ x ∈ xs, d = report first x := by
  fun_induction collect key report taken xs with
  | case1 => cases h
  | case2 taken x xs _ ih =>
    obtain ⟨first, early, y, hy, rfl⟩ := ih h
    rw [List.append_assoc] at early
    exact ⟨first, early, y, List.mem_cons_of_mem x hy, rfl⟩
  | case3 taken x xs first found all more eq ih =>
    obtain rfl | later := List.mem_cons.1 h
    · exact ⟨first, List.mem_append_left _ (List.mem_of_find?_eq_some found), x, List.mem_cons_self, rfl⟩
    · rw [eq] at ih
      obtain ⟨first', early, y, hy, rfl⟩ := ih later
      refine ⟨first', ?_, y, List.mem_cons_of_mem x hy, rfl⟩
      exact (List.mem_append.1 early).elim (List.mem_append_left _)
        fun later => List.mem_append_right _ (List.mem_cons_of_mem x later)

end Occurrences

/-! ### Declarations and fields -/

/-- The declarations of a document in order. -/
def declarations (doc : Document) : List Declaration :=
  doc.statements.filterMap Declaration.ofStatement?

lemma exists_declare_eq_collect (path : String) : ∃ report : Declaration → Declaration → Diagnostic,
    (∀ first d, (report first d).report =
        (Diagnostic.duplicateDeclaration, d.name, "", d.span.location path) ∧
      (report first d).related = [⟨first.span.location path, "first declared here"⟩]) ∧
    ∀ taken ds, declare path taken ds = collect Declaration.name report taken ds := by
  refine ⟨fun first d => (Diagnostic.make .error Diagnostic.duplicateDeclaration
    (d.word ++ " " ++ Text.quoted d.name ++ " is already declared") (d.span.location path))
      |>.inEntity d.name |>.withRelated (first.span.location path) "first declared here",
    fun _ _ => ⟨rfl, rfl⟩, fun taken ds => ?_⟩
  induction ds generalizing taken with
  | nil => rfl
  | cons d ds ih =>
    rw [declare, collect]
    cases taken.find? fun first => first.name == d.name with
    | none => exact ih _
    | some first => simp only [ih]

lemma exists_distinctFields_eq_collect (path entity : String) :
    ∃ report : Document.Field → Document.Field → Diagnostic,
      (∀ first f, (report first f).report =
          (Diagnostic.duplicateField, entity, f.name, f.span.location path) ∧
        (report first f).related = [⟨first.span.location path, "first declared here"⟩]) ∧
      ∀ taken fs, distinctFields path entity taken fs = collect (·.name) report taken fs := by
  refine ⟨fun first f => (Diagnostic.make .error Diagnostic.duplicateField
    ("field " ++ Text.quoted f.name ++ " is declared more than once in " ++ entity)
      (f.span.location path)) |>.inEntity entity |>.onField f.name
        |>.withRelated (first.span.location path) "first declared here",
    fun _ _ => ⟨rfl, rfl⟩, fun taken fs => ?_⟩
  induction fs generalizing taken with
  | nil => rfl
  | cons f fs ih =>
    rw [distinctFields, collect]
    cases taken.find? fun first => first.name == f.name with
    | none => exact ih _
    | some first => simp only [ih]

/-- The first declaration of each name is taken and every other one is reported. -/
lemma declare_eq_firsts (path : String) (ds : List Declaration) :
    (declare path [] ds).1 = firsts Declaration.name ds ∧
      (declare path [] ds).2.map Diagnostic.report = (repetitions Declaration.name ds).map fun d =>
        (Diagnostic.duplicateDeclaration, d.name, "", d.span.location path) := by
  obtain ⟨report, about, eq⟩ := exists_declare_eq_collect path
  rw [eq]
  exact collect_eq Declaration.name (fun first d => (about first d).1) [] ds

/-- The first field of each name is taken and every other one is reported. -/
lemma distinctFields_eq_firsts (path entity : String) (fs : List Document.Field) :
    (distinctFields path entity [] fs).1 = firsts (·.name) fs ∧
      (distinctFields path entity [] fs).2.map Diagnostic.report =
        (repetitions (·.name) fs).map fun f =>
          (Diagnostic.duplicateField, entity, f.name, f.span.location path) := by
  obtain ⟨report, about, eq⟩ := exists_distinctFields_eq_collect path entity
  rw [eq]
  exact collect_eq (·.name) (fun first f => (about first f).1) [] fs

/-! ### Features -/

/-- Whether an entity may have a feature only once. -/
def isSingleton : Document.Feature → Bool
  | .partition .. | .ttl .. | .rls _ | .auditable | .softDelete _ => true
  | .fts .. | .policy _ => false

/-- Whether an entity has a feature already that it may have only once. -/
def hasFeature (e : Entity) : Document.Feature → Bool
  | .partition .. => e.partition.isSome
  | .ttl .. => e.ttl.isSome
  | .rls _ => e.rls.isSome
  | .auditable => e.auditable
  | .softDelete _ => e.softDelete.isSome
  | .fts .. | .policy _ => false

/-- A feature is refused exactly if the entity has it already. -/
lemma addFeature_eq_none_iff {e : Entity} {d : Document.Directive} :
    addFeature e d = none ↔ hasFeature e d.feature = true := by
  unfold addFeature
  split <;> rename_i h <;> simp [h, hasFeature, Option.isSome_iff_ne_none]

/-- A feature that was added is there, and the others are as before. -/
lemma hasFeature_of_addFeature {e e' : Entity} {d : Document.Directive} (h : addFeature e d = some e')
    (f : Document.Feature) : hasFeature e' f =
      (hasFeature e f || (isSingleton d.feature && d.feature.name == f.name)) := by
  unfold addFeature at h
  cases hd : d.feature <;> rw [hd] at h <;> dsimp only at h <;> (try split at h) <;> cases h <;>
    cases f <;> simp [hasFeature, isSingleton, Document.Feature.name, *]

/-- The lines of an entity for features that it may have only once. -/
def singletons (ds : List Document.Directive) : List Document.Directive :=
  ds.filter fun d => isSingleton d.feature

lemma singletons_concat (ds : List Document.Directive) (d : Document.Directive) :
    singletons (ds ++ [d]) =
      if isSingleton d.feature then singletons ds ++ [d] else singletons ds := by
  rw [singletons, List.filter_append, List.filter_singleton]
  cases isSingleton d.feature
  · exact List.append_nil _
  · rfl

/-- A feature that may stand only once is reported at every repetition. -/
lemma report_addFeatures {path : String} {e : Entity} {before : List Document.Directive}
    (h : ∀ f, hasFeature e f =
      (isSingleton f && (singletons before).any fun d => d.feature.name == f.name))
    (ds : List Document.Directive) :
    (repetitions (·.feature.name) (singletons before)).map (fun d =>
          (Diagnostic.duplicateConstraint, e.name, "", d.span.location path)) ++
        (addFeatures path e ds).2.map Diagnostic.report =
      (repetitions (·.feature.name) (singletons (before ++ ds))).map fun d =>
        (Diagnostic.duplicateConstraint, e.name, "", d.span.location path) := by
  -- the features that the entity has are those of the lines in front
  induction ds generalizing e before with
  | nil => simp [addFeatures]
  | cons d ds ih =>
    have step := h d.feature
    have whole : before ++ d :: ds = (before ++ [d]) ++ ds := by simp
    rw [addFeatures, whole]
    split
    · next e' added =>
      have absent : hasFeature e d.feature = false := by
        by_contra present
        rw [Bool.not_eq_false, ← addFeature_eq_none_iff, added] at present
        cases present
      have invariant : ∀ f, hasFeature e' f = (isSingleton f &&
          (singletons (before ++ [d])).any fun d => d.feature.name == f.name) := by
        intro f
        have same : (d.feature.name == f.name) = true → isSingleton f = isSingleton d.feature := by
          cases f <;> cases d.feature <;> simp [Document.Feature.name, isSingleton]
        rw [hasFeature_of_addFeature added, h, singletons_concat]
        cases single : isSingleton d.feature with
        | false => rw [if_neg Bool.false_ne_true, Bool.false_and, Bool.or_false]
        | true =>
          rw [if_pos rfl, List.any_append, List.any_cons, List.any_nil, Bool.or_false, Bool.true_and]
          cases named : d.feature.name == f.name with
          | false => rw [Bool.or_false, Bool.or_false]
          | true => rw [same named, single, Bool.or_true, Bool.or_true, Bool.and_true]
      have rest := ih invariant
      rw [(addFeature_frame added).2.1] at rest
      rw [← rest, singletons_concat]
      cases single : isSingleton d.feature with
      | false => rfl
      | true =>
        rw [absent, single, Bool.true_and] at step
        rw [if_pos rfl, repetitions_concat, ← step, if_neg Bool.false_ne_true]
    · next refused =>
      rw [addFeature_eq_none_iff.1 refused, eq_comm, Bool.and_eq_true] at step
      obtain ⟨single, taken⟩ := step
      have invariant : ∀ f, hasFeature e f = (isSingleton f &&
          (singletons (before ++ [d])).any fun d => d.feature.name == f.name) := by
        intro f
        rw [h, singletons_concat, if_pos single, List.any_append]
        cases named : d.feature.name == f.name with
        | false => simp [named]
        | true =>
          rw [eq_of_beq named] at taken
          rw [taken, Bool.true_or]
      rw [← ih invariant, singletons_concat, if_pos single, repetitions_concat, if_pos taken,
        List.map_append, List.append_assoc]
      rfl

/-! ### Keys -/

/-- The columns of all primary key lines of a block, in order. -/
def primaryColumns (node : Document.Entity) : List String :=
  node.keys.flatMap fun k =>
    match k.key with
    | .primary columns => columns
    | _ => []

lemma distinct_eq_firsts (xs : List String) : distinct xs = firsts id xs := by
  induction xs using List.reverseRecOn with
  | nil => rfl
  | append_singleton xs x ih =>
    have taken : ((firsts id xs).contains x) = xs.any fun y => id y == id x := by
      rw [← any_firsts, List.contains_eq_any_beq]
      exact congrArg (firsts id xs).any (funext fun y => BEq.comm)
    rw [distinct] at ih ⊢
    rw [List.foldl_append, ih, List.foldl_cons, List.foldl_nil, firsts_concat, taken]

/-- The primary key lines of a block give the merged key and the place of the first of them. -/
lemma primaryKeyLine?_eq {node : Document.Entity} {columns : List String} {span : Span}
    (h : primaryKeyLine? node.keys = some (columns, span)) :
    columns = firsts id (primaryColumns node) := by
  have merged : ∀ keys : List Document.KeyLine, (keys.filterMap fun k =>
      match k.key with
      | .primary columns => some (columns, k.span)
      | _ => none).flatMap (·.1) = keys.flatMap fun k =>
        match k.key with
        | .primary columns => columns
        | _ => [] := by
    intro keys
    induction keys with
    | nil => rfl
    | cons k ks ih =>
      rw [List.flatMap_cons, ← ih, List.filterMap_cons]
      cases k.key <;> rfl
  unfold primaryKeyLine? at h
  dsimp only at h
  split at h
  · cases h
  · next first span' others lines =>
    cases h
    exact (congrArg distinct (merged node.keys)).trans (distinct_eq_firsts _)

/-- The constraints of an entity: at most one composite key in front, which is the merged key, and
behind it lines of other kinds. -/
lemma buildKeys_constraints (fields : List Field) (node : Document.Entity) :
    ∃ key : Option EntityConstraint, (buildKeys fields node.keys).2 = key.toList ++ otherKeys node.keys ∧
      ∀ c ∈ key, c.clause = .compositeKey (firsts id (primaryColumns node)) := by
  unfold buildKeys
  split
  · exact ⟨none, rfl, nofun⟩
  · next column span line =>
    split
    · exact ⟨none, rfl, nofun⟩
    · refine ⟨some ⟨.compositeKey [column], span⟩, rfl, ?_⟩
      rintro _ ⟨⟩
      rw [← primaryKeyLine?_eq line]
  · next columns span _ line =>
    refine ⟨some ⟨.compositeKey columns, span⟩, rfl, ?_⟩
    rintro _ ⟨⟩
    rw [← primaryKeyLine?_eq line]

lemma kind_of_mem_otherKeys {keys : List Document.KeyLine} {c : EntityConstraint}
    (h : c ∈ otherKeys keys) : c.clause.kind ≠ .compositeKey := by
  obtain ⟨k, -, e⟩ := List.mem_filterMap.1 h
  split at e <;> cases e <;> nofun

/-! ### Names -/

/-- A position is found for a name exactly if the element there is the one of that name. -/
lemma findIdx?_name_eq_some_iff {α : Type} {key : α → String} {xs : List α}
    (nodup : (xs.map key).Nodup) {name : String} {i : Nat} :
    (xs.findIdx? fun x => key x == name) = some i ↔ (xs[i]?).map key = some name := by
  rw [List.findIdx?_eq_some_iff_getElem]
  constructor
  · rintro ⟨lt, same, -⟩
    rw [List.getElem?_eq_getElem lt]
    simpa using same
  · intro h
    obtain ⟨x, hx, rfl⟩ := Option.map_eq_some_iff.1 h
    obtain ⟨lt, rfl⟩ := List.getElem?_eq_some_iff.1 hx
    refine ⟨lt, by simp, fun j before => ?_⟩
    rw [Bool.not_eq_true, beq_eq_false_iff_ne]
    intro same
    have eq := (@List.Nodup.getElem_inj_iff _ _ nodup j (by simpa using before.trans lt) i
      (by simpa using lt)).1 (by simpa using same)
    omega

/-! ### Well-formed schemas -/

/-- The entity that a field constraint refers to; only foreign keys refer to one. -/
def Clause.target? : Clause → Option Nat
  | foreignKey target _ => target
  | _ => none

/-- What a type stands for that was written with a name: the entity or the enumeration of that name,
and otherwise a base type or nothing. -/
def Binds (s : Schema) (written : String) (t : FieldType) : Prop :=
  match t.binding with
  | .entity id => (s.entity? id).map (·.name) = some written ∧ t.name = written
  | .enum id => (s.enum? id).map (·.name) = some written ∧ t.name = written
  | .base => s.lookupEntity written = none ∧ s.lookupEnum written = none ∧
      t.name = BaseType.canonical written
  | .unresolved => s.lookupEntity written = none ∧ s.lookupEnum written = none ∧ t.name = written

/-- An entity of a schema is in order and comes from a block. -/
structure BuiltFrom (s : Schema) (node : Document.Entity) (e : Entity) : Prop where
  name : e.name = node.name
  fields : List.Forall₂ (fun (line : Document.Field) (f : Field) => f.name = line.name ∧
    s.Binds line.type.name f.type) (firsts (·.name) node.fields) e.fields
  fields_nodup : (e.fields.map (·.name)).Nodup
  targets : ∀ f ∈ e.fields, ∀ c ∈ f.constraints, ∀ id, c.clause.target? = some id →
    c.clause.kind = .foreignKey ∧ id < s.entities.length
  key_first : ∀ i c, e.constraints[i]? = some c → c.clause.kind = .compositeKey → i = 0
  key_columns : ∀ c ∈ e.constraints, c.clause.kind = .compositeKey →
    c.clause.columns = firsts id (primaryColumns node)

/-- A schema is in order and comes from a document. -/
structure Integrity (doc : Document) (s : Schema) : Prop where
  names_nodup : (s.entities.map (·.name) ++ s.enums.map (·.name)).Nodup
  entities : List.Forall₂ s.BuiltFrom
    ((firsts Declaration.name (declarations doc)).filterMap Declaration.entity?) s.entities
  enums : List.Forall₂ (fun (node : Document.Enum) (e : Enum) => e.name = node.name ∧
      e.variants = node.variants)
    ((firsts Declaration.name (declarations doc)).filterMap Declaration.enum?) s.enums
  entity_id : ∀ i (e : Entity), s.entities[i]? = some e → e.id = i
  enum_id : ∀ i (e : Enum), s.enums[i]? = some e → e.id = i
  lookupEntity : ∀ name i, s.lookupEntity name = some i ↔ (s.entity? i).map (·.name) = some name
  lookupEnum : ∀ name i, s.lookupEnum name = some i ↔ (s.enum? i).map (·.name) = some name
  variant_spans : ∀ e ∈ s.enums, (e.variants.map (·.span)).length = e.labels.length

/-- The reports about the declarations of a document: one for every repeated declaration, and for the
entities that were kept one for every repeated field and every repeated feature. -/
def reports (doc : Document) : List (String × String × String × Location) :=
  ((repetitions Declaration.name (declarations doc)).map fun d =>
      (Diagnostic.duplicateDeclaration, d.name, "", d.span.location doc.path)) ++
    ((firsts Declaration.name (declarations doc)).filterMap Declaration.entity?).flatMap fun node =>
      ((repetitions (·.name) node.fields).map fun f =>
        (Diagnostic.duplicateField, node.name, f.name, f.span.location doc.path)) ++
      ((repetitions (·.feature.name) (singletons node.directives)).map fun d =>
        (Diagnostic.duplicateConstraint, node.name, "", d.span.location doc.path))

section OfDocument
variable {doc : Document}

lemma declaredEntities_eq : declaredEntities doc =
    (firsts Declaration.name (declarations doc)).filterMap Declaration.entity? := by
  rw [← (declare_eq_firsts doc.path (declarations doc)).1]
  rfl

/-- The enumerations of a schema are those declared, in order. -/
lemma enums_ofDocument : (ofDocument doc).1.enums =
    ((firsts Declaration.name (declarations doc)).filterMap Declaration.enum?).mapIdx fun id e =>
      ⟨id, e.name, e.variants, e.span⟩ := by
  rw [← (declare_eq_firsts doc.path (declarations doc)).1]
  rfl

lemma declaredNames_eq : declaredNames doc =
    ⟨(ofDocument doc).1.entities.map (·.name), (ofDocument doc).1.enums.map (·.name)⟩ := by
  have enums : (ofDocument doc).1.enums.map (·.name) = (declaredNames doc).enums := by
    rw [enums_ofDocument, ← (declare_eq_firsts doc.path (declarations doc)).1]
    refine List.ext_getElem ?_ ?_
    · simp [declaredNames, declarations]
    · simp [declaredNames, declarations]
  rw [map_name_entities_ofDocument, enums]
  rfl

lemma names_entity? (name : String) :
    (declaredNames doc).entity? name = (ofDocument doc).1.lookupEntity name := by
  rw [declaredNames_eq, Names.entity?, List.findIdx?_map]
  rfl

lemma names_enum? (name : String) :
    (declaredNames doc).enum? name = (ofDocument doc).1.lookupEnum name := by
  rw [declaredNames_eq, Names.enum?, List.findIdx?_map]
  rfl

/-- The names of a list of declarations are those of its entities and those of its enumerations. -/
lemma perm_names (ds : List Declaration) :
    ((ds.filterMap Declaration.entity?).map (·.name) ++ (ds.filterMap Declaration.enum?).map (·.name)).Perm
      (ds.map Declaration.name) := by
  induction ds with
  | nil => exact .nil
  | cons d ds ih =>
    cases d with
    | entity e => exact ih.cons e.name
    | enum e => exact List.perm_middle.trans (ih.cons e.name)

lemma names_nodup_ofDocument :
    ((ofDocument doc).1.entities.map (·.name) ++ (ofDocument doc).1.enums.map (·.name)).Nodup := by
  have names := @declaredNames_eq doc
  have perm := perm_names (firsts Declaration.name (declarations doc))
  rw [← (declare_eq_firsts doc.path (declarations doc)).1] at perm
  have nodup := nodup_firsts Declaration.name (declarations doc)
  rw [← (declare_eq_firsts doc.path (declarations doc)).1, ← perm.nodup_iff] at nodup
  have entities := congrArg Names.entities names
  have enums := congrArg Names.enums names
  dsimp only at entities enums
  rw [← entities, ← enums]
  exact nodup

/-- A type is bound to what its name declares. -/
lemma binds_bindType (t : Document.TypeRef) :
    (ofDocument doc).1.Binds t.name (bindType (declaredNames doc) t) := by
  have nodup := @names_nodup_ofDocument doc
  rw [List.nodup_append] at nodup
  unfold bindType
  rw [names_entity?, names_enum?]
  cases entity : (ofDocument doc).1.lookupEntity t.name with
  | some id => exact ⟨(findIdx?_name_eq_some_iff nodup.1).1 entity, rfl⟩
  | none =>
    cases enum : (ofDocument doc).1.lookupEnum t.name with
    | some id => exact ⟨(findIdx?_name_eq_some_iff nodup.2.1).1 enum, rfl⟩
    | none =>
      dsimp only
      split
      · exact ⟨entity, enum, rfl⟩
      · exact ⟨entity, enum, rfl⟩

/-- A foreign key of a field, and no other constraint, points at an entity of the schema. -/
lemma target_of_marked {line : Document.Field} {f : Field}
    (h : Marked (buildField (declaredNames doc) line) f) {c : Constraint} (hc : c ∈ f.constraints)
    {id : Nat} (target : c.clause.target? = some id) :
    c.clause.kind = .foreignKey ∧ id < (ofDocument doc).1.entities.length := by
  obtain ⟨clause, span⟩ := c
  cases clause with
  | foreignKey explicit name =>
    cases target
    refine ⟨rfl, ?_⟩
    rw [length_entities_ofDocument]
    rcases h with rfl | ⟨span', rfl⟩
    · exact target_lt_of_mem_buildField hc
    · rcases List.mem_append.1 hc with hc | hc
      · exact target_lt_of_mem_buildField hc
      · cases List.mem_singleton.1 hc
  | _ => cases target

/-- Where two lists correspond, every element of the second one has a partner. -/
lemma exists_of_forall₂ {α β : Type} {R : α → β → Prop} {as : List α} {bs : List β}
    (h : List.Forall₂ R as bs) {b : β} (hb : b ∈ bs) : ∃ a ∈ as, R a b := by
  induction h with
  | nil => cases hb
  | @cons a b' as bs first _ ih =>
    rcases List.mem_cons.1 hb with rfl | hb
    · exact ⟨a, List.mem_cons_self, first⟩
    · obtain ⟨a', ha, hr⟩ := ih hb
      exact ⟨a', List.mem_cons_of_mem a ha, hr⟩

/-- The fields of an entity come from the first lines of each name, apart from the mark of a key. -/
lemma forall₂_marked_buildEntity (id : Nat) (node : Document.Entity) :
    List.Forall₂ (fun line f => Marked (buildField (declaredNames doc) line) f)
      (firsts (·.name) node.fields) (buildEntity doc.path (declaredNames doc) id node).entity.fields := by
  have marked := forall₂_buildKeys ((fieldLines doc.path node).map (buildField (declaredNames doc)))
    node.keys
  rwa [← @buildEntity_fields doc.path (declaredNames doc) id node, List.forall₂_map_left_iff,
    fieldLines, (distinctFields_eq_firsts doc.path node.name node.fields).1] at marked

/-- An entity is in order and comes from its block. -/
lemma builtFrom_buildEntity (id : Nat) (node : Document.Entity) :
    (ofDocument doc).1.BuiltFrom node
      (buildEntity doc.path (declaredNames doc) id node).entity := by
  have marked := @forall₂_marked_buildEntity doc id node
  obtain ⟨key, constraints, merged⟩ := buildKeys_constraints
    ((fieldLines doc.path node).map (buildField (declaredNames doc))) node
  rw [← @buildEntity_constraints doc.path (declaredNames doc) id node] at constraints
  refine ⟨buildEntity_name, marked.imp ?_, buildEntity_field_names_nodup, ?_, ?_, ?_⟩
  · intro line f hf
    have view : f.name = line.name ∧ f.type = bindType (declaredNames doc) line.type := by
      rcases hf with rfl | ⟨span, rfl⟩ <;> exact ⟨rfl, rfl⟩
    rw [view.2]
    exact ⟨view.1, binds_bindType line.type⟩
  · intro f hf c hc id target
    obtain ⟨line, -, hline⟩ := exists_of_forall₂ marked hf
    exact target_of_marked hline hc target
  · intro i c hc kind
    rw [constraints] at hc
    cases i with
    | zero => rfl
    | succ i =>
      -- only the first constraint can be a composite key
      have other : c ∈ otherKeys node.keys := by
        cases key with
        | none => exact List.mem_of_getElem? hc
        | some k => exact List.mem_of_getElem? hc
      exact absurd kind (kind_of_mem_otherKeys other)
  · intro c hc kind
    rw [constraints] at hc
    rcases List.mem_append.1 hc with hc | hc
    · rw [merged c (Option.mem_toList.1 hc)]
      rfl
    · exact absurd kind (kind_of_mem_otherKeys hc)

/-- Lists put together that do not depend on positions. -/
lemma flatMap_mapIdx {α β γ : Type} {f : Nat → α → β} {g : β → List γ} {h : α → List γ}
    (same : ∀ i a, g (f i a) = h a) (as : List α) : (as.mapIdx f).flatMap g = as.flatMap h := by
  rw [List.mapIdx_eq_zipIdx_map, List.flatMap_map]
  conv_rhs => rw [← List.zipIdx_map_fst 0 as, List.flatMap_map]
  exact congrArg List.flatten (List.map_congr_left fun p _ => same p.2 p.1)

/-- What is reported about an entity block. -/
lemma report_buildEntity (names : Names) (id : Nat) (node : Document.Entity) :
    (buildEntity doc.path names id node).diagnostics.map Diagnostic.report =
      ((repetitions (·.name) node.fields).map fun f =>
        (Diagnostic.duplicateField, node.name, f.name, f.span.location doc.path)) ++
      ((repetitions (·.feature.name) (singletons node.directives)).map fun d =>
        (Diagnostic.duplicateConstraint, node.name, "", d.span.location doc.path)) := by
  unfold buildEntity
  dsimp only
  rw [List.map_append, (distinctFields_eq_firsts doc.path node.name node.fields).2]
  congr 1
  refine @report_addFeatures doc.path _ [] ?_ node.directives
  intro f
  cases f <;> rfl

end OfDocument

/-- The schema of every document is in order, and the reports about building it are one for every
declaration that was skipped, one for every field that was dropped and one for every feature that may
stand only once and stood there already. -/
theorem ofDocument_integrity (doc : Document) :
    Integrity doc (ofDocument doc).1 ∧ (ofDocument doc).2.map Diagnostic.report = reports doc := by
  have nodup := List.nodup_append.1 (@names_nodup_ofDocument doc)
  refine ⟨⟨names_nodup_ofDocument, ?_, ?_, ?_, ?_, ?_, ?_, ?_⟩, ?_⟩
  · rw [entities_ofDocument, declaredEntities_eq, List.forall₂_iff_get]
    refine ⟨by simp, fun i _ _ => ?_⟩
    rw [List.get_eq_getElem, List.get_eq_getElem, List.getElem_mapIdx]
    exact builtFrom_buildEntity i _
  · rw [enums_ofDocument, List.forall₂_iff_get]
    refine ⟨by simp, fun i _ _ => ?_⟩
    rw [List.get_eq_getElem, List.get_eq_getElem, List.getElem_mapIdx]
    exact ⟨rfl, rfl⟩
  · intro i e he
    rw [entities_ofDocument, List.getElem?_mapIdx, Option.map_eq_some_iff] at he
    obtain ⟨node, -, rfl⟩ := he
    exact buildEntity_id
  · intro i e he
    rw [enums_ofDocument, List.getElem?_mapIdx, Option.map_eq_some_iff] at he
    obtain ⟨node, -, rfl⟩ := he
    rfl
  · exact fun name i => findIdx?_name_eq_some_iff nodup.1
  · exact fun name i => findIdx?_name_eq_some_iff nodup.2.1
  · intro e _
    rw [Enum.labels, List.length_map, List.length_map]
  · change ((declare doc.path [] (declarations doc)).2 ++ ((declaredEntities doc).mapIdx fun id node =>
      buildEntity doc.path (declaredNames doc) id node).flatMap (·.diagnostics)).map _ = _
    rw [List.map_append, (declare_eq_firsts doc.path (declarations doc)).2, declaredEntities_eq, reports,
      List.map_flatMap]
    congr 1
    apply flatMap_mapIdx
    exact report_buildEntity (declaredNames doc)

end Schema

end ErdSql
