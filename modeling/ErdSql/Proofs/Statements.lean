import ErdSql.Ddl.Generator
import Mathlib

/-!
# Statements of a script

Which tables, foreign keys and triggers for distinct elements the script of a schema holds.

* `tables_of_generate`: one table for each entity, in order.
* `foreignKeys_of_generate`: one foreign key for each column that refers to an entity, wherever the
  dialect writes it.
* `placedKeys_of_generate`: each stands in its table, or is added to it.
* `distinctPlaces_of_generate`: one trigger for each unique set.

Names are claimed from a table that is threaded through the generator. No result here depends on the
names that come out of it, so the lemmas about runs quantify over every state.
-/

namespace ErdSql.Ddl

open Schema

/-! ### Views of a script -/

namespace Table

/-- The columns of a table. -/
def columns (t : Table) : List Column :=
  t.elements.filterMap fun
    | .column c => some c
    | _ => none

/-- The columns that each primary key clause behind the columns of a table lists. -/
def primaryKeys (t : Table) : List (List String) :=
  t.elements.filterMap fun
    | .primaryKey columns => some columns
    | _ => none

/-- The columns that each uniqueness clause behind the columns of a table lists. -/
def uniques (t : Table) : List (List String) :=
  t.elements.filterMap fun
    | .unique columns => some columns
    | _ => none

/-- The expressions of the checks behind the columns of a table. -/
def checks (t : Table) : List String :=
  t.elements.filterMap fun
    | .check e => some e
    | _ => none

/-- The foreign keys within a table. -/
def foreignKeys (t : Table) : List ForeignKey :=
  t.elements.filterMap fun
    | .foreignKey k => some k
    | _ => none

end Table

/-- The table and column that a foreign key is on. -/
def ForeignKey.place (k : ForeignKey) : String × String := (k.table, k.column)

namespace Statement

/-- The table that a statement defines. -/
def table? : Statement → Option Table
  | table t => some t
  | _ => none

/-- The foreign keys that a statement defines, alone or within a table. -/
def foreignKeys : Statement → List ForeignKey
  | table t => t.foreignKeys
  | foreignKey k => [k]
  | _ => []

/-- The foreign keys that a statement defines, each with the table that it stands in or is added to. -/
def placedKeys : Statement → List (String × ForeignKey)
  | table t => t.foreignKeys.map fun k => (t.name, k)
  | foreignKey k => [(k.table, k)]
  | _ => []

/-- The table and the column whose elements a trigger keeps apart. -/
def distinctPlace? : Statement → Option (String × String)
  | distinctElements _ owner column => some (owner, column)
  | _ => none

/-- A statement that is none of the three: no table, no foreign key and no trigger for distinct
elements. -/
def IsOther (st : Statement) : Prop :=
  st.table? = none ∧ st.foreignKeys = [] ∧ st.distinctPlace? = none

/-- Statements of other kinds define no table. -/
lemma filterMap_table?_of_isOther {sts : List Statement} (h : ∀ st ∈ sts, st.IsOther) :
    sts.filterMap table? = [] :=
  List.filterMap_eq_nil_iff.2 fun st hst => (h st hst).1

/-- Statements of other kinds define no foreign key. -/
lemma flatMap_foreignKeys_of_isOther {sts : List Statement} (h : ∀ st ∈ sts, st.IsOther) :
    sts.flatMap foreignKeys = [] :=
  List.flatMap_eq_nil_iff.2 fun st hst => (h st hst).2.1

/-- Statements of other kinds are no trigger for distinct elements. -/
lemma filterMap_distinctPlace?_of_isOther {sts : List Statement} (h : ∀ st ∈ sts, st.IsOther) :
    sts.filterMap distinctPlace? = [] :=
  List.filterMap_eq_nil_iff.2 fun st hst => (h st hst).2.2

end Statement

namespace Output

/-- The tables of a script in order. -/
def tables (o : Output) : List Table := o.statements.filterMap Statement.table?

/-- The foreign keys of a script in order. -/
def foreignKeys (o : Output) : List ForeignKey := o.statements.flatMap Statement.foreignKeys

/-- The foreign keys of a script in order, each with the table that it stands in or is added to. -/
def placedKeys (o : Output) : List (String × ForeignKey) := o.statements.flatMap Statement.placedKeys

/-- The places whose elements the triggers of a script keep apart. -/
def distinctPlaces (o : Output) : List (String × String) :=
  o.statements.filterMap Statement.distinctPlace?

end Output

/-! ### Runs -/

section Runs
variable {α β σ : Type} {f : α → StateM σ β}

/-- What each step relates, a run over a list relates item by item. -/
lemma forall₂_mapM {R : α → β → Prop} (h : ∀ a s, R a ((f a).run s).1) (as : List α) (s : σ) :
    List.Forall₂ R as ((as.mapM f).run s).1 := by
  induction as generalizing s with
  | nil => exact .nil
  | cons a as ih =>
    rw [List.mapM_cons]
    exact .cons (h a s) (ih _)

/-- What holds of the result of the step for each item holds of all results of a run. -/
lemma forall_mem_mapM_of_mem {P : β → Prop} {as : List α} (h : ∀ a ∈ as, ∀ s, P ((f a).run s).1)
    (s : σ) : ∀ b ∈ ((as.mapM f).run s).1, P b := by
  induction as generalizing s with
  | nil => exact fun b hb => nomatch hb
  | cons a as ih =>
    rw [List.mapM_cons]
    intro b hb
    rcases List.mem_cons.1 hb with rfl | hb
    · exact h a List.mem_cons_self s
    · exact ih (fun x hx => h x (List.mem_cons_of_mem a hx)) _ b hb

/-- What holds of the result of every step holds of all results of a run. -/
lemma forall_mem_mapM {P : β → Prop} (h : ∀ a s, P ((f a).run s).1) (as : List α) (s : σ) :
    ∀ b ∈ ((as.mapM f).run s).1, P b :=
  forall_mem_mapM_of_mem (fun a _ => h a) s

/-- Where each step fixes a view of its result, a run fixes the views of its results. -/
lemma map_mapM {γ : Type} {view : β → γ} {g : α → γ} (h : ∀ a s, view ((f a).run s).1 = g a)
    (as : List α) (s : σ) : ((as.mapM f).run s).1.map view = as.map g := by
  have all := @forall₂_mapM _ _ _ f (fun a b => view b = g a) h as s
  rw [← List.forall₂_eq_eq_eq, List.forall₂_map_left_iff, List.forall₂_map_right_iff]
  exact all.flip

end Runs

/-! ### Foreign keys -/

/-- Whether a field is a column that refers to an entity of the schema. -/
def isReference (s : Schema) (f : Field) : Bool :=
  f.isColumn && (f.foreignKey?.bind fun key => s.entity? key.1).isSome

/-- The references of an entity: its columns that refer to an entity of the schema. -/
def references (s : Schema) (e : Entity) : List (String × Entity) :=
  e.fields.filterMap fun f =>
    match f.foreignKey? with
    | some (id, _) =>
      if f.isColumn then (s.entity? id).map fun target => (f.name, target) else none
    | none => none

/-- The columns of a schema with a property, as names of entities and fields. -/
def places (s : Schema) (p : Field → Bool) : List (String × String) :=
  s.entities.flatMap fun e => (e.fields.filter p).map fun f => (e.name, f.name)

/-- The foreign keys of an entity are on its references. -/
lemma collectForeignKeys_places (s : Schema) (e : Entity) (names : NameTable) :
    ((collectForeignKeys s e).run names).1.map ForeignKey.place =
      (e.fields.filter (isReference s)).map fun f => (e.name, f.name) := by
  rw [collectForeignKeys, map_mapM (fun a _ => (rfl : _ = (e.name, a.1))), List.map_filterMap,
    ← List.filterMap_eq_filter, List.map_filterMap]
  refine List.filterMap_congr fun f _ => ?_
  cases hf : f.foreignKey? with
  | none => simp [isReference, hf]
  | some key =>
    cases ht : s.entity? key.1 with
    | none => simp [isReference, hf, ht]
    | some target => cases hc : f.isColumn <;> simp [isReference, hf, ht, hc]

/-- The foreign keys of an entity name it as their table. -/
lemma table_eq_of_mem_collectForeignKeys (s : Schema) (e : Entity) (names : NameTable) :
    ∀ k ∈ ((collectForeignKeys s e).run names).1, k.table = e.name :=
  forall_mem_mapM (fun _ _ => rfl) _ _

/-! ### Entities -/

section Entities
variable (opts : Options) (s : Schema) (keys : List ForeignKey) (e : Entity) (names : NameTable)

/-- The table of an entity. -/
def tableOf : Table :=
  ⟨opts.ifNotExists, e.name, tableElements opts.dialect s keys e,
    if opts.dialect.supports .partitioning then partitionOf opts.overlay e else none⟩

/-- The statements of an entity, one group after another. -/
lemma entityStatements_run : ∃ searchNames auditNames softNames,
    ((entityStatements opts s e keys).run names).1 =
      tableStatements opts s keys e ++ ((distinctStatements e).run names).1 ++
        (e.ttl.toList.map fun t => .expiry e.name t.column t.interval.value) ++
        ((searchStatements opts e).run searchNames).1 ++ securityStatements opts.overlay e ++
        (e.policies.map fun p => .policy e.name p.policy) ++ ((auditStatements e).run auditNames).1 ++
        ((softDeleteStatements e).run softNames).1 ++ migrationStatements opts.overlay e :=
  ⟨_, _, _, rfl⟩

/-- The table statements of an entity are its table and others. -/
lemma tableStatements_eq : ∃ others, (∀ st ∈ others, st.IsOther) ∧
    tableStatements opts s keys e = .table (tableOf opts s keys e) :: others := by
  rw [tableStatements, tableOf]
  split
  · exact ⟨[], List.forall_mem_nil _, rfl⟩
  · refine ⟨_, ?_, rfl⟩
    intro st hst
    obtain ⟨p, -, rfl⟩ := List.mem_map.1 hst
    exact ⟨rfl, rfl, rfl⟩

/-- Full-text indexes are other statements. -/
lemma isOther_of_mem_searchStatements :
    ∀ st ∈ ((searchStatements opts e).run names).1, st.IsOther :=
  forall_mem_mapM (fun _ _ => ⟨rfl, rfl, rfl⟩) _ _

/-- Audit triggers are other statements. -/
lemma isOther_of_mem_auditStatements : ∀ st ∈ ((auditStatements e).run names).1, st.IsOther :=
  forall_mem_mapM (fun _ _ => ⟨rfl, rfl, rfl⟩) _ _

/-- Views of live rows are other statements. -/
lemma isOther_of_mem_softDeleteStatements :
    ∀ st ∈ ((softDeleteStatements e).run names).1, st.IsOther :=
  forall_mem_mapM (fun _ _ => ⟨rfl, rfl, rfl⟩) _ _

/-- The statements of row-level security are other statements. -/
lemma isOther_of_mem_securityStatements {o : Overlay} :
    ∀ st ∈ securityStatements o e, st.IsOther := by
  intro st hst
  unfold securityStatements at hst
  split at hst
  · cases hst
  · obtain rfl | rfl : st = _ ∨ st = _ := by simpa using hst
    · exact ⟨rfl, rfl, rfl⟩
    · exact ⟨rfl, rfl, rfl⟩
  · rw [List.mem_singleton.1 hst]
    exact ⟨rfl, rfl, rfl⟩

/-- The SQL of the overlay is another statement. -/
lemma isOther_of_mem_migrationStatements {o : Overlay} :
    ∀ st ∈ migrationStatements o e, st.IsOther := by
  intro st hst
  unfold migrationStatements at hst
  split at hst
  · split at hst
    · cases hst
    · rw [List.mem_singleton.1 hst]
      exact ⟨rfl, rfl, rfl⟩
  · cases hst

/-- The statements of an entity: its table, its triggers for distinct elements, and others. -/
lemma entityStatements_eq : ∃ before after, (∀ st ∈ before, st.IsOther) ∧
    (∀ st ∈ after, st.IsOther) ∧ ((entityStatements opts s e keys).run names).1 =
      .table (tableOf opts s keys e) :: before ++ ((distinctStatements e).run names).1 ++ after := by
  obtain ⟨before, hb, eq⟩ := tableStatements_eq opts s keys e
  obtain ⟨searchNames, auditNames, softNames, run⟩ := entityStatements_run opts s keys e names
  simp only [List.append_assoc] at run
  refine ⟨before, _, hb, ?_, by rw [run, eq]; simp only [List.cons_append, List.append_assoc]; rfl⟩
  intro st hst
  rcases List.mem_append.1 hst with h | hst
  · obtain ⟨t, -, rfl⟩ := List.mem_map.1 h
    exact ⟨rfl, rfl, rfl⟩
  rcases List.mem_append.1 hst with h | hst
  · exact isOther_of_mem_searchStatements opts e _ st h
  rcases List.mem_append.1 hst with h | hst
  · exact isOther_of_mem_securityStatements e st h
  rcases List.mem_append.1 hst with h | hst
  · obtain ⟨p, -, rfl⟩ := List.mem_map.1 h
    exact ⟨rfl, rfl, rfl⟩
  rcases List.mem_append.1 hst with h | hst
  · exact isOther_of_mem_auditStatements e _ st h
  rcases List.mem_append.1 hst with h | hst
  · exact isOther_of_mem_softDeleteStatements e _ st h
  · exact isOther_of_mem_migrationStatements e st hst

/-- A trigger for distinct elements defines no table and no foreign key. -/
lemma distinctStatements_frame : ∀ st ∈ ((distinctStatements e).run names).1,
    st.table? = none ∧ st.foreignKeys = [] :=
  forall_mem_mapM (fun _ _ => ⟨rfl, rfl⟩) _ _

/-- The triggers for distinct elements are on the unique sets of an entity. -/
lemma distinctStatements_places :
    ((distinctStatements e).run names).1.filterMap Statement.distinctPlace? =
      (e.fields.filter fun f => f.cardinality == .set && f.carries .unique).map
        fun f => (e.name, f.name) := by
  have views : ((distinctStatements e).run names).1.map Statement.distinctPlace? =
      (e.fields.filter fun f => f.cardinality == .set && f.carries .unique).map
        fun f => some (e.name, f.name) :=
    map_mapM (fun _ _ => rfl) _ _
  have flat := congrArg (List.filterMap id) views
  rw [List.filterMap_map, List.filterMap_map] at flat
  rw [← List.filterMap_eq_map]
  exact flat

/-- The statements of an entity define its table and no other. -/
lemma entityStatements_tables :
    ((entityStatements opts s e keys).run names).1.filterMap Statement.table? =
      [tableOf opts s keys e] := by
  obtain ⟨before, after, hb, ha, eq⟩ := entityStatements_eq opts s keys e names
  have distinct := List.filterMap_eq_nil_iff.2 fun st hst => (distinctStatements_frame e names st hst).1
  rw [eq, List.filterMap_append, List.filterMap_append, List.filterMap_cons,
    Statement.filterMap_table?_of_isOther hb, distinct, Statement.filterMap_table?_of_isOther ha]
  rfl

/-- The statements of an entity define the foreign keys of its table. -/
lemma entityStatements_foreignKeys :
    ((entityStatements opts s e keys).run names).1.flatMap Statement.foreignKeys =
      (tableOf opts s keys e).foreignKeys := by
  obtain ⟨before, after, hb, ha, eq⟩ := entityStatements_eq opts s keys e names
  have distinct := List.flatMap_eq_nil_iff.2 fun st hst => (distinctStatements_frame e names st hst).2
  rw [eq, List.flatMap_append, List.flatMap_append, List.flatMap_cons,
    Statement.flatMap_foreignKeys_of_isOther hb, distinct,
    Statement.flatMap_foreignKeys_of_isOther ha]
  simp [Statement.foreignKeys]

/-- The statements of an entity keep the elements of its unique sets apart. -/
lemma entityStatements_distinctPlaces :
    ((entityStatements opts s e keys).run names).1.filterMap Statement.distinctPlace? =
      (e.fields.filter fun f => f.cardinality == .set && f.carries .unique).map
        fun f => (e.name, f.name) := by
  obtain ⟨before, after, hb, ha, eq⟩ := entityStatements_eq opts s keys e names
  rw [eq, List.filterMap_append, List.filterMap_append, List.filterMap_cons,
    Statement.filterMap_distinctPlace?_of_isOther hb, distinctStatements_places,
    Statement.filterMap_distinctPlace?_of_isOther ha]
  exact List.append_nil _

end Entities

/-! ### Tables -/

/-- The column lists of the `UNIQUE` lines of an entity. -/
def uniqueKeys (e : Entity) : List (List String) :=
  e.constraints.filterMap fun c =>
    match c.clause with
    | .unique columns => some columns
    | _ => none

/-- The expressions of the `CHECK` lines of an entity. -/
def checkKeys (e : Entity) : List String :=
  e.constraints.filterMap fun c =>
    match c.clause with
    | .check expr => some expr
    | _ => none

/-- The definitions of a table stand in groups. -/
lemma tableElements_eq (d : Dialect) (s : Schema) (keys : List ForeignKey) (e : Entity) :
    tableElements d s keys e =
      ((e.fields.filter (·.isColumn)).map (column d s (inlineKey? e))).map .column ++
        e.compositeKey?.toList.map .primaryKey ++ (uniqueKeys e).map .unique ++
        (checkKeys e).map .check ++
        (if d.supports .alterConstraints then [] else keys).map .foreignKey := by
  rw [tableElements, uniqueKeys, checkKeys, List.map_map, List.map_filterMap, List.map_filterMap]
  congr 1
  · congr 1
    · congr 1
      refine List.filterMap_congr fun c _ => ?_
      cases c.clause <;> rfl
    · refine List.filterMap_congr fun c _ => ?_
      cases c.clause <;> rfl
  · split <;> rfl

/-- The views of a table are its groups. -/
lemma tableOf_views (opts : Options) (s : Schema) (keys : List ForeignKey) (e : Entity) :
    (tableOf opts s keys e).columns =
        (e.fields.filter (·.isColumn)).map (column opts.dialect s (inlineKey? e)) ∧
      (tableOf opts s keys e).primaryKeys = e.compositeKey?.toList ∧
      (tableOf opts s keys e).uniques = uniqueKeys e ∧
      (tableOf opts s keys e).checks = checkKeys e ∧
      (tableOf opts s keys e).foreignKeys =
        if opts.dialect.supports .alterConstraints then [] else keys := by
  simp only [Table.columns, Table.primaryKeys, Table.uniques, Table.checks, Table.foreignKeys, tableOf,
    tableElements_eq, List.filterMap_append, List.filterMap_map]
  refine ⟨?_, ?_, ?_, ?_, ?_⟩ <;>
    simp [Function.comp_def]

/-! ### Schemas -/

/-- The foreign keys of each entity of a schema. -/
def keyGroups (s : Schema) : List (List ForeignKey) :=
  ((s.entities.mapM (collectForeignKeys s)).run NameTable.empty).1

/-- There is one group of foreign keys for each entity. -/
lemma length_keyGroups (s : Schema) : (keyGroups s).length = s.entities.length :=
  (forall₂_mapM (R := fun _ _ => True) (fun _ _ => trivial) _ _).length_eq.symm

/-- Every entity has its group of foreign keys. -/
lemma exists_keys_of_mem {s : Schema} {e : Entity} (he : e ∈ s.entities) :
    ∃ keys, (e, keys) ∈ s.entities.zip (keyGroups s) := by
  rw [← List.map_fst_zip (length_keyGroups s).ge] at he
  obtain ⟨⟨e, keys⟩, mem, rfl⟩ := List.mem_map.1 he
  exact ⟨keys, mem⟩

/-- The foreign keys that stand with an entity name it as their table. -/
lemma table_eq_of_mem_keyGroups {s : Schema} {e : Entity} {keys : List ForeignKey}
    (mem : (e, keys) ∈ s.entities.zip (keyGroups s)) : ∀ k ∈ keys, k.table = e.name :=
  (List.forall₂_iff_zip.1 (forall₂_mapM (R := fun e keys => ∀ k ∈ keys, k.table = e.name)
    (table_eq_of_mem_collectForeignKeys s) s.entities NameTable.empty)).2 mem

/-- The foreign keys of a schema are on its references. -/
lemma keyGroups_places (s : Schema) :
    (keyGroups s).flatten.map ForeignKey.place = places s (isReference s) := by
  rw [List.map_flatten, keyGroups, map_mapM (fun e names => collectForeignKeys_places s e names)]
  rfl

/-- Indexes, views and triggers of a document are other statements. -/
lemma isOther_of_mem_sourceStatements {opts : Options} {s : Schema} :
    ∀ st ∈ sourceStatements opts s, st.IsOther := by
  intro st hst
  obtain ⟨placed, hp, rfl⟩ := List.mem_map.1 hst
  rw [List.mem_mergeSort] at hp
  rcases List.mem_append.1 hp with hp | hp
  · rcases List.mem_append.1 hp with hp | hp
    · obtain ⟨i, -, rfl⟩ := List.mem_map.1 hp
      exact ⟨rfl, rfl, rfl⟩
    · obtain ⟨v, -, rfl⟩ := List.mem_map.1 hp
      exact ⟨rfl, rfl, rfl⟩
  · obtain ⟨t, -, rfl⟩ := List.mem_map.1 hp
    exact ⟨rfl, rfl, rfl⟩

/-- Plugin blocks give rise to statements of their own kind only. -/
lemma exists_plugin_of_mem_blockStatements {plugins : Plugin.Registry} {seen : List String}
    {bs : List Document.Block} {sts : List Statement} (h : blockStatements plugins seen bs = .ok sts) :
    ∀ st ∈ sts, ∃ keyword ordinal sql, st = .plugin keyword ordinal sql := by
  induction bs generalizing seen sts with
  | nil =>
    cases h
    exact List.forall_mem_nil _
  | cons b bs ih =>
    rw [blockStatements] at h
    split at h
    · cases h
    · split at h
      · cases h
      · dsimp only at h
        cases rest : blockStatements plugins (b.block.keyword :: seen) bs with
        | error e =>
          rw [rest] at h
          cases h
        | ok more =>
          rw [rest] at h
          change (if _ then Except.ok more else Except.ok (_ :: more)) = Except.ok sts at h
          split at h
          · cases h
            exact ih rest
          · cases h
            intro st hst
            rcases List.mem_cons.1 hst with rfl | hst
            · exact ⟨_, _, _, rfl⟩
            · exact ih rest st hst

/-- The statements of plugin blocks are other statements. -/
lemma isOther_of_mem_blockStatements {plugins : Plugin.Registry} {seen : List String}
    {bs : List Document.Block} {sts : List Statement}
    (h : blockStatements plugins seen bs = .ok sts) : ∀ st ∈ sts, st.IsOther := by
  intro st hst
  obtain ⟨keyword, ordinal, sql, rfl⟩ := exists_plugin_of_mem_blockStatements h st hst
  exact ⟨rfl, rfl, rfl⟩

/-- The statements of the entities, one group for each. -/
def entityGroups (opts : Options) (s : Schema) : List (List Statement) :=
  (((s.entities.zip (keyGroups s)).mapM fun (e, keys) => entityStatements opts s e keys).run
    ((s.entities.mapM (collectForeignKeys s)).run NameTable.empty).2).1

/-- The statements of a schema, with its foreign keys and those of its entities in groups. -/
lemma schemaStatements_eq (opts : Options) (s : Schema) : schemaStatements opts s =
    (s.extensions.map fun x => Statement.extension x.name) ++
      (if opts.dialect.supports .enumTypes then s.enums.map fun e => Statement.enum e.name e.labels else []) ++
      (entityGroups opts s).flatten ++
      (if opts.dialect.supports .alterConstraints then (keyGroups s).flatten.map Statement.foreignKey else []) ++
      sourceStatements opts s :=
  rfl

/-- A script is the statements of the schema, and then those of the plugin blocks. -/
lemma exists_blocks_of_generate {opts : Options} {s : Schema} {out : Output} (h : generate opts s = .ok out) :
    ∃ blocks, blockStatements opts.plugins [] s.blocks = .ok blocks ∧
      out = ⟨opts.dialect, opts.header, schemaStatements opts s ++ blocks⟩ := by
  unfold generate at h
  cases blocks : blockStatements opts.plugins [] s.blocks with
  | error e =>
    rw [blocks] at h
    cases h
  | ok sts =>
    rw [blocks] at h
    cases h
    exact ⟨sts, rfl, rfl⟩

/-- The statements of a script: others, those of the entities, foreign keys, and others. -/
lemma generate_eq {opts : Options} {s : Schema} {out : Output} (h : generate opts s = .ok out) :
    ∃ before after, (∀ st ∈ before, st.IsOther) ∧ (∀ st ∈ after, st.IsOther) ∧
      out.statements = before ++ (entityGroups opts s).flatten ++
        (if opts.dialect.supports .alterConstraints then (keyGroups s).flatten else []).map
          .foreignKey ++ after := by
  obtain ⟨blocks, found, rfl⟩ := exists_blocks_of_generate h
  refine ⟨(s.extensions.map fun x => Statement.extension x.name) ++
    (if opts.dialect.supports .enumTypes then s.enums.map fun e => Statement.enum e.name e.labels else []),
    sourceStatements opts s ++ blocks, ?_, ?_, ?_⟩
  · intro st hst
    rcases List.mem_append.1 hst with hst | hst
    · obtain ⟨x, -, rfl⟩ := List.mem_map.1 hst
      exact ⟨rfl, rfl, rfl⟩
    · split at hst
      · obtain ⟨x, -, rfl⟩ := List.mem_map.1 hst
        exact ⟨rfl, rfl, rfl⟩
      · cases hst
  · intro st hst
    rcases List.mem_append.1 hst with hst | hst
    · exact isOther_of_mem_sourceStatements st hst
    · exact isOther_of_mem_blockStatements found st hst
  · rw [← List.append_assoc, apply_ite (List.map Statement.foreignKey)]
    rfl

section Generate
variable {opts : Options} {s : Schema} {out : Output}

/-- A script has the dialect that it was generated for. -/
lemma dialect_of_generate (h : generate opts s = .ok out) : out.dialect = opts.dialect := by
  obtain ⟨blocks, -, rfl⟩ := exists_blocks_of_generate h
  rfl

/-- A script has one table for each entity, in order. -/
lemma tables_of_generate (h : generate opts s = .ok out) :
    out.tables = (s.entities.zip (keyGroups s)).map fun p => tableOf opts s p.2 p.1 := by
  obtain ⟨before, after, hb, ha, eq⟩ := generate_eq h
  have keys (ks : List ForeignKey) : (ks.map Statement.foreignKey).filterMap Statement.table? = [] := by
    simp [Statement.table?]
  have groups := map_mapM (fun (p : Entity × List ForeignKey) names =>
    entityStatements_tables opts s p.2 p.1 names) (s.entities.zip (keyGroups s))
  rw [Output.tables, eq, List.filterMap_append, List.filterMap_append, List.filterMap_append,
    Statement.filterMap_table?_of_isOther hb, Statement.filterMap_table?_of_isOther ha, keys,
    List.filterMap_flatten, entityGroups, groups, ← List.flatMap_def, List.nil_append,
    List.append_nil, List.append_nil, List.map_eq_flatMap]

/-- The tables of a script have the names of the entities. -/
lemma map_name_tables_of_generate (h : generate opts s = .ok out) :
    out.tables.map (·.name) = s.entities.map (·.name) := by
  have same : (s.entities.zip (keyGroups s)).map Prod.fst = s.entities :=
    List.map_fst_zip (length_keyGroups s).ge
  rw [tables_of_generate h, List.map_map]
  conv_rhs => rw [← same, List.map_map]
  rfl

/-- A script has the foreign keys of all entities, within the tables or behind them. -/
lemma foreignKeys_eq_of_generate (h : generate opts s = .ok out) :
    out.foreignKeys = (keyGroups s).flatten := by
  obtain ⟨before, after, hb, ha, eq⟩ := generate_eq h
  have keys (ks : List ForeignKey) : (ks.map Statement.foreignKey).flatMap Statement.foreignKeys = ks := by
    simp [List.flatMap_map, Statement.foreignKeys]
  have groups : (entityGroups opts s).map (List.flatMap Statement.foreignKeys) =
      (s.entities.zip (keyGroups s)).map fun p =>
        if opts.dialect.supports .alterConstraints then [] else p.2 := by
    refine map_mapM (fun p names => ?_) _ _
    rw [entityStatements_foreignKeys, (tableOf_views _ _ _ _).2.2.2.2]
  have flat : (entityGroups opts s).flatten.flatMap Statement.foreignKeys =
      ((entityGroups opts s).map (List.flatMap Statement.foreignKeys)).flatten := by
    rw [List.flatMap_def, List.map_flatten, List.flatten_flatten, List.map_map]
    rfl
  have all : (s.entities.zip (keyGroups s)).map Prod.snd = keyGroups s :=
    List.map_snd_zip (length_keyGroups s).le
  rw [Output.foreignKeys, eq, List.flatMap_append, List.flatMap_append,
    List.flatMap_append, Statement.flatMap_foreignKeys_of_isOther hb,
    Statement.flatMap_foreignKeys_of_isOther ha, keys, flat, groups]
  split
  · simp
  · rw [all]
    simp

/-- A script has one foreign key for each reference. -/
lemma foreignKeys_of_generate (h : generate opts s = .ok out) :
    out.foreignKeys.map ForeignKey.place = places s (isReference s) := by
  rw [foreignKeys_eq_of_generate h, keyGroups_places]

/-- A foreign key of a script stands in the table that it names, or is added to it. -/
lemma placedKeys_of_generate (h : generate opts s = .ok out) :
    out.placedKeys = out.foreignKeys.map fun k => (k.table, k) := by
  rw [Output.placedKeys, Output.foreignKeys, List.map_flatMap]
  refine List.flatMap_congr fun st hst => ?_
  cases st with
  | table t =>
    have mem : t ∈ out.tables := List.mem_filterMap.2 ⟨_, hst, rfl⟩
    rw [tables_of_generate h] at mem
    obtain ⟨⟨e, keys⟩, pair, rfl⟩ := List.mem_map.1 mem
    refine List.map_congr_left fun k hk => ?_
    rw [(tableOf_views _ _ _ _).2.2.2.2] at hk
    split at hk
    · cases hk
    · rw [table_eq_of_mem_keyGroups pair k hk]
      rfl
  | _ => rfl

/-- A script has one trigger for each unique set. -/
lemma distinctPlaces_of_generate (h : generate opts s = .ok out) :
    out.distinctPlaces = places s fun f => f.cardinality == .set && f.carries .unique := by
  obtain ⟨before, after, hb, ha, eq⟩ := generate_eq h
  have keys (ks : List ForeignKey) :
      (ks.map Statement.foreignKey).filterMap Statement.distinctPlace? = [] := by
    simp [Statement.distinctPlace?]
  have groups := map_mapM (fun (p : Entity × List ForeignKey) names =>
    entityStatements_distinctPlaces opts s p.2 p.1 names) (s.entities.zip (keyGroups s))
  have same : (s.entities.zip (keyGroups s)).map Prod.fst = s.entities :=
    List.map_fst_zip (length_keyGroups s).ge
  rw [Output.distinctPlaces, eq, List.filterMap_append, List.filterMap_append, List.filterMap_append,
    Statement.filterMap_distinctPlace?_of_isOther hb,
    Statement.filterMap_distinctPlace?_of_isOther ha, keys, List.filterMap_flatten, entityGroups,
    groups, places]
  conv_rhs => rw [← same, List.flatMap_map]
  simp [List.flatMap_def]

end Generate

end ErdSql.Ddl
