import ErdSql.Proofs.References

/-!
# Lists of columns

The column lists that the statements of a script write out: keys, uniqueness, partitioning, full-text
indexes, expiry and soft deletion.

* `Schema.Entity.columnLists`: the lists that the lines of an entity give.
* `Ddl.columnLists_of_mem_entityGroups`: a statement writes the lists of its own entity and no others.
* `Check.columns_of_mem_columnLists`: the lists of a schema that keeps the rules.
* `Compilation.listed_columns_exist`: the lists in the script of an accepted document.

The checks go through the lists of the schema and the generator writes them in five places. Both refer
to the same lists, so what the checks say about one holds wherever it is written.
-/

namespace ErdSql

open Schema

/-! ### Lists of a schema -/

/-- The column lists of an entity: those of its keys and of the features that name columns. -/
def Schema.Entity.columnLists (e : Entity) : List (List String) :=
  (e.constraints.filter fun c => c.clause.kind != .check).map (·.clause.columns) ++
    (Check.columnFeatures e).map (·.2.1)

/-- Every list of an entity of a schema without errors names at least one column, and columns only. -/
lemma Check.columns_of_mem_columnLists {s : Schema} (h : Diagnostic.hasErrors (run s) = false)
    {e : Entity} (he : e ∈ s.entities) {columns : List String} (hc : columns ∈ e.columnLists) :
    columns ≠ [] ∧ ∀ column ∈ columns, e.hasColumn column = true := by
  rcases List.mem_append.1 hc with hc | hc
  · obtain ⟨c, listed, rfl⟩ := List.mem_map.1 hc
    obtain ⟨hc, kind⟩ := List.mem_filter.1 listed
    exact columns_of_mem_constraints h he hc (by simpa using kind)
  · obtain ⟨feature, hf, rfl⟩ := List.mem_map.1 hc
    exact columns_of_mem_columnFeatures h he hf

/-! ### Lists of a script -/

namespace Ddl

/-- The column lists that a statement writes out. -/
def Statement.columnLists : Statement → List (List String)
  | table t => t.primaryKeys ++ t.uniques ++ t.partition.toList.map (·.columns)
  | partition _ p => [p.columns]
  | expiry _ column _ => [[column]]
  | search _ _ _ _ columns => [columns]
  | softDelete _ _ column => [[column]]
  | _ => []

/-- A statement writes lists of an entity only, and belongs to it if it writes any. -/
def Statement.ListsOf (e : Entity) (st : Statement) : Prop :=
  ∀ columns ∈ st.columnLists, st.entity = e.name ∧ columns ∈ e.columnLists

/-- A statement without lists writes lists of any entity only. -/
lemma Statement.listsOf_of_eq_nil {e : Entity} {st : Statement} (none : st.columnLists = []) :
    st.ListsOf e := by
  intro columns hc
  rw [none] at hc
  cases hc

section Entities
variable {opts : Options} {s : Schema} {keys : List ForeignKey} {e : Entity}

/-- The columns of a key or a uniqueness line are one of the lists of an entity. -/
lemma mem_columnLists_of_constraint {c : EntityConstraint} (hc : c ∈ e.constraints)
    (kind : c.clause.kind ≠ .check) : c.clause.columns ∈ e.columnLists :=
  List.mem_append_left _ (List.mem_map.2 ⟨c, List.mem_filter.2 ⟨hc, by simpa using kind⟩, rfl⟩)

/-- The columns of a feature are one of the lists of an entity. -/
lemma mem_columnLists_of_feature {name : String} {columns : List String} {span : Span}
    (hf : (name, columns, span) ∈ Check.columnFeatures e) : columns ∈ e.columnLists :=
  List.mem_append_right _ (List.mem_map_of_mem hf)

/-- The composite key is one of the lists of an entity. -/
lemma mem_columnLists_of_compositeKey? {key : List String} (composite : e.compositeKey? = some key) :
    key ∈ e.columnLists := by
  obtain ⟨c, hc, found⟩ := List.exists_of_findSome?_eq_some composite
  split at found
  · next columns clause =>
    cases found
    have listed := mem_columnLists_of_constraint hc (by simp [clause, EntityClause.kind])
    rwa [clause] at listed
  · cases found

/-- The uniqueness lines are among the lists of an entity. -/
lemma mem_columnLists_of_uniqueKeys {columns : List String} (hc : columns ∈ uniqueKeys e) :
    columns ∈ e.columnLists := by
  obtain ⟨c, hc, found⟩ := List.mem_filterMap.1 hc
  split at found
  · next columns clause =>
    cases found
    have listed := mem_columnLists_of_constraint hc (by simp [clause, EntityClause.kind])
    rwa [clause] at listed
  · cases found

/-- Without overrides the partitioning is by one of the lists of an entity. -/
lemma mem_columnLists_of_partitionOf {p : PartitionBy} (hp : partitionOf Overlay.empty e = some p) :
    p.columns ∈ e.columnLists := by
  obtain ⟨given, -⟩ := Option.filter_eq_some_iff.1 hp
  obtain ⟨line, written, rfl⟩ := Option.map_eq_some_iff.1 given
  have listed : ("PARTITION", line.columns, line.span) ∈ Check.columnFeatures e := by
    simp [Check.columnFeatures, written]
  exact mem_columnLists_of_feature listed

/-- A table with the definitions of an entity writes lists of that entity only. -/
lemma listsOf_table {t : Table} (name : t.name = e.name)
    (elements : t.elements = tableElements opts.dialect s keys e)
    (partition : ∀ p, t.partition = some p → p.columns ∈ e.columnLists) :
    (Statement.table t).ListsOf e := by
  obtain ⟨-, primary, unique, -⟩ := tableOf_views opts s keys e
  intro columns hc
  refine ⟨name, ?_⟩
  rw [Statement.columnLists, Table.primaryKeys, Table.uniques, elements] at hc
  rcases List.mem_append.1 hc with hc | hc
  · rcases List.mem_append.1 hc with hc | hc
    · refine mem_columnLists_of_compositeKey? ?_
      rwa [← Option.mem_toList, ← primary]
    · refine mem_columnLists_of_uniqueKeys ?_
      rwa [← unique]
  · obtain ⟨p, hp, rfl⟩ := List.mem_map.1 hc
    exact partition p (Option.mem_toList.1 hp)

/-- The full-text indexes of an entity write lists of that entity only. -/
lemma listsOf_of_mem_searchStatements (names : NameTable) :
    ∀ st ∈ ((searchStatements opts e).run names).1, st.ListsOf e := by
  refine forall_mem_mapM_of_mem (P := Statement.ListsOf e) ?_ names
  rintro ⟨line, i⟩ hl table columns hc
  obtain rfl := List.mem_singleton.1 hc
  have listed : ("FTS", line.columns, line.span) ∈ Check.columnFeatures e := by
    simp only [Check.columnFeatures, List.mem_append, List.mem_map]
    exact .inl (.inr ⟨line, List.fst_mem_of_mem_zipIdx hl, rfl⟩)
  exact ⟨rfl, mem_columnLists_of_feature listed⟩

/-- The view of the live rows of an entity writes lists of that entity only. -/
lemma listsOf_of_mem_softDeleteStatements (names : NameTable) :
    ∀ st ∈ ((softDeleteStatements e).run names).1, st.ListsOf e := by
  refine forall_mem_mapM_of_mem (P := Statement.ListsOf e) ?_ names
  intro line hl table columns hc
  obtain rfl := List.mem_singleton.1 hc
  have listed : ("SOFT_DELETE", [line.field], line.span) ∈ Check.columnFeatures e :=
    List.mem_append_right _ (List.mem_map.2 ⟨line, hl, rfl⟩)
  exact ⟨rfl, mem_columnLists_of_feature listed⟩

/-- The expiry of an entity writes lists of that entity only. -/
lemma listsOf_of_mem_expiry {st : Statement}
    (hst : st ∈ e.ttl.toList.map fun t => .expiry e.name t.column t.interval.value) : st.ListsOf e := by
  obtain ⟨line, hl, rfl⟩ := List.mem_map.1 hst
  intro columns hc
  obtain rfl := List.mem_singleton.1 hc
  have listed : ("TTL", [line.column], line.span) ∈ Check.columnFeatures e := by
    simp only [Check.columnFeatures, List.mem_append, List.mem_map]
    exact .inl (.inl (.inr ⟨line, hl, rfl⟩))
  exact ⟨rfl, mem_columnLists_of_feature listed⟩

/-- Row-level security writes no lists. -/
lemma columnLists_of_mem_securityStatements {o : Overlay} {st : Statement}
    (hst : st ∈ securityStatements o e) : st.columnLists = [] := by
  unfold securityStatements at hst
  split at hst
  · cases hst
  · obtain rfl | rfl : st = _ ∨ st = _ := by simpa using hst
    · rfl
    · rfl
  · rw [List.mem_singleton.1 hst]
    rfl

/-- The SQL of the overlay writes no lists. -/
lemma columnLists_of_mem_migrationStatements {o : Overlay} {st : Statement}
    (hst : st ∈ migrationStatements o e) : st.columnLists = [] := by
  unfold migrationStatements at hst
  split at hst
  · split at hst
    · cases hst
    · rw [List.mem_singleton.1 hst]
      rfl
  · cases hst

/-- Indexes, views and triggers of a document write no lists. -/
lemma columnLists_of_mem_sourceStatements {st : Statement} (hst : st ∈ sourceStatements opts s) :
    st.columnLists = [] := by
  obtain ⟨placed, hp, rfl⟩ := List.mem_map.1 hst
  rw [List.mem_mergeSort, List.mem_append, List.mem_append] at hp
  rcases hp with (hp | hp) | hp
  · obtain ⟨i, -, rfl⟩ := List.mem_map.1 hp
    rfl
  · obtain ⟨v, -, rfl⟩ := List.mem_map.1 hp
    rfl
  · obtain ⟨t, -, rfl⟩ := List.mem_map.1 hp
    rfl

section Plain
variable (plain : opts.overlay = Overlay.empty)
include plain

/-- The table statements of an entity write lists of that entity only. -/
lemma listsOf_of_mem_tableStatements :
    ∀ st ∈ tableStatements opts s keys e, st.ListsOf e := by
  intro st hst
  rw [tableStatements, plain] at hst
  split at hst
  · obtain rfl := List.mem_singleton.1 hst
    exact listsOf_table rfl rfl fun p hp => mem_columnLists_of_partitionOf hp
  · rcases List.mem_cons.1 hst with rfl | hst
    · exact listsOf_table rfl rfl (by simp)
    · obtain ⟨p, hp, rfl⟩ := List.mem_map.1 hst
      intro columns hc
      obtain rfl := List.mem_singleton.1 hc
      exact ⟨rfl, mem_columnLists_of_partitionOf (Option.mem_toList.1 hp)⟩

/-- The statements of an entity write lists of that entity only. -/
lemma listsOf_of_mem_entityStatements (names : NameTable) :
    ∀ st ∈ ((entityStatements opts s e keys).run names).1, st.ListsOf e := by
  obtain ⟨searchNames, auditNames, softNames, run⟩ := entityStatements_run opts s keys e names
  rw [run]
  simp only [List.forall_mem_append]
  refine ⟨⟨⟨⟨⟨⟨⟨⟨listsOf_of_mem_tableStatements plain, ?_⟩, fun _ => listsOf_of_mem_expiry⟩,
    listsOf_of_mem_searchStatements _⟩, fun _ hst => ?_⟩, ?_⟩, ?_⟩, listsOf_of_mem_softDeleteStatements _⟩,
    fun _ hst => ?_⟩
  · exact forall_mem_mapM (fun _ _ => Statement.listsOf_of_eq_nil rfl) _ _
  · exact Statement.listsOf_of_eq_nil (columnLists_of_mem_securityStatements hst)
  · intro st hst
    obtain ⟨p, -, rfl⟩ := List.mem_map.1 hst
    exact Statement.listsOf_of_eq_nil rfl
  · exact forall_mem_mapM (fun _ _ => Statement.listsOf_of_eq_nil rfl) _ _
  · exact Statement.listsOf_of_eq_nil (columnLists_of_mem_migrationStatements hst)

/-- A statement among those of the entities writes lists of one of the entities. -/
lemma exists_listsOf_of_mem_entityGroups {st : Statement} (hst : st ∈ (entityGroups opts s).flatten) :
    ∃ e ∈ s.entities, st.ListsOf e := by
  obtain ⟨group, hgroup, hst⟩ := List.mem_flatten.1 hst
  refine forall_mem_mapM_of_mem (P := fun sts => ∀ st ∈ sts, ∃ e ∈ s.entities, Statement.ListsOf e st)
    ?_ _ group hgroup st hst
  rintro ⟨e, keys⟩ mem names st hst
  exact ⟨e, (List.of_mem_zip mem).1, listsOf_of_mem_entityStatements plain names st hst⟩

/-- A statement of a script that writes a list belongs to the entity that the list is from. -/
lemma exists_entity_of_mem_columnLists {out : Output} (generated : generate opts s = .ok out)
    {st : Statement} (hst : st ∈ out.statements) {columns : List String} (hc : columns ∈ st.columnLists) :
    ∃ e ∈ s.entities, st.entity = e.name ∧ columns ∈ e.columnLists := by
  obtain ⟨blocks, found, rfl⟩ := exists_blocks_of_generate generated
  rcases List.mem_append.1 hst with hst | hst
  · rw [schemaStatements_eq] at hst
    simp only [List.mem_append] at hst
    rcases hst with (((hst | hst) | hst) | hst) | hst
    · obtain ⟨x, -, rfl⟩ := List.mem_map.1 hst
      cases hc
    · split at hst
      · obtain ⟨x, -, rfl⟩ := List.mem_map.1 hst
        cases hc
      · cases hst
    · obtain ⟨e, he, lists⟩ := exists_listsOf_of_mem_entityGroups plain hst
      exact ⟨e, he, lists columns hc⟩
    · split at hst
      · obtain ⟨k, -, rfl⟩ := List.mem_map.1 hst
        cases hc
      · cases hst
    · rw [columnLists_of_mem_sourceStatements hst] at hc
      cases hc
  · obtain ⟨keyword, ordinal, sql, rfl⟩ := exists_plugin_of_mem_blockStatements found st hst
    cases hc

end Plain

end Entities

end Ddl

namespace Compilation

open Ddl

/-- A document without errors, compiled without overrides, writes only columns that exist: each list of
columns in its script, of a key, a uniqueness clause, a partitioning, a full-text index, an expiry or a
view of live rows, has at least one column, and all of them are columns of the table of its entity. -/
theorem listed_columns_exist {path : String} {src : List UInt8} {o : CompileOptions}
    (plain : o.overlay = Overlay.empty) (accepted : (run path src o).valid = true) :
    ∃ out, (run path src o).output = some out ∧ out.dialect = o.dialect ∧
      (out.tables.map (·.name)).Nodup ∧
      ∀ st ∈ out.statements, ∀ columns ∈ st.columnLists, columns ≠ [] ∧
        ∃ t ∈ out.tables, t.name = st.entity ∧
          ∀ column ∈ columns, column ∈ t.columns.map (·.name) := by
  obtain ⟨out, output, generated⟩ := exists_output_of_valid accepted
  have checked := check_of_valid accepted
  rw [run_schema] at generated checked
  refine ⟨out, output, dialect_of_generate generated, ?_, fun st hst columns hc => ?_⟩
  · rw [map_name_tables_of_generate generated]
    exact entity_names_nodup _
  · obtain ⟨e, he, owner, listed⟩ := exists_entity_of_mem_columnLists plain generated hst hc
    obtain ⟨nonempty, exist⟩ := Check.columns_of_mem_columnLists checked he listed
    obtain ⟨keys, mem⟩ := exists_keys_of_mem he
    refine ⟨nonempty, tableOf (generateOptions o) (ofDocument (document path src o)).1 keys e, ?_,
      owner.symm, fun column hcolumn => ?_⟩
    · rw [tables_of_generate generated]
      exact List.mem_map.2 ⟨_, mem, rfl⟩
    · rw [map_name_columns_tableOf]
      exact (Entity.hasColumn_eq_true_iff (field_names_nodup _ _ he)).1 (exist column hcolumn)

/-- A block with a list of each kind. -/
def chronicle : List UInt8 :=
  Text.bytes (":Entry\n  INT $.book\n  INT $.nr\n  TEXT $.title\n  TIMESTAMP $.made\n" ++
    "  TIMESTAMP $.gone\n  PK(book, nr)\n  UNIQUE(book, title)\n  PARTITION BY RANGE (made)\n" ++
    "  FTS(title)\n  TTL(made, '30 days')\n  SOFT_DELETE(gone)\n")

/-- The lists of the block stand in its script. -/
theorem listed_columns_exist_of_chronicle :
    (run "chronicle.erd" chronicle {}).valid = true ∧
      (run "chronicle.erd" chronicle {}).output.map (fun out => out.statements.map Statement.columnLists) =
        some [[["book", "nr"], ["book", "title"], ["made"]], [["made"]], [["title"]], [["gone"]]] ∧
      ∃ out, (run "chronicle.erd" chronicle {}).output = some out ∧ out.dialect = .postgresql ∧
        (out.tables.map (·.name)).Nodup ∧
        ∀ st ∈ out.statements, ∀ columns ∈ st.columnLists, columns ≠ [] ∧
          ∃ t ∈ out.tables, t.name = st.entity ∧
            ∀ column ∈ columns, column ∈ t.columns.map (·.name) := by
  have facts : (run "chronicle.erd" chronicle {}).valid = true ∧
      (run "chronicle.erd" chronicle {}).output.map (fun out => out.statements.map Statement.columnLists) =
        some [[["book", "nr"], ["book", "title"], ["made"]], [["made"]], [["title"]], [["gone"]]] := by
    rw [run, analyse, chronicle, read_bytes, String.toList_append, String.toList_append]
    decide +kernel
  exact ⟨facts.1, facts.2, listed_columns_exist rfl facts.1⟩

end Compilation

end ErdSql
