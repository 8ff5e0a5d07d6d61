import ErdSql.Proofs.Constraints
import ErdSql.Proofs.Findings

/-!
# Primary keys of tables

How many primary keys a table defines, and what the checks say about it.

* `Ddl.keyCount_le_one`: a table never has more than one key, whatever the document says.
* `Ddl.keyCount_eq_iff`: an entity with one key gives a table with one key, unless the key is marked
  on a list, which has no column.
* `Compilation.keyCount_of_run`: the tables of a script, entity by entity.

The checks count the marks of an entity, and the generator looks for the first mark and writes it with
its column. The two agree as long as every marked field has a column.
-/

namespace ErdSql

open Schema

/-! ### Columns by name -/

/-- An entity has a column of a name exactly if a field of that name is one, where names differ. -/
lemma Schema.Entity.hasColumn_eq_true_iff {e : Entity} (nodup : (e.fields.map (·.name)).Nodup)
    {name : String} :
    e.hasColumn name = true ↔ name ∈ (e.fields.filter (·.isColumn)).map (·.name) := by
  rw [List.mem_map]
  unfold hasColumn field?
  constructor
  · intro h
    split at h
    · next f found =>
      have same : f.name = name := by simpa using List.find?_some found
      exact ⟨f, List.mem_filter.2 ⟨List.mem_of_find?_eq_some found, h⟩, same⟩
    · cases h
  · rintro ⟨f, hf, rfl⟩
    obtain ⟨hf, column⟩ := List.mem_filter.1 hf
    cases found : e.fields.find? fun g => g.name == f.name with
    | none => exact absurd (List.find?_eq_none.1 found f hf) (by simp)
    | some g =>
      have same : g.name = f.name := by simpa using List.find?_some found
      rwa [List.inj_on_of_nodup_map nodup (List.mem_of_find?_eq_some found) hf same]

/-- The composite key of an entity lists at least one column, and columns only. -/
lemma Check.columns_of_compositeKey? {s : Schema} (h : Diagnostic.hasErrors (Check.run s) = false)
    {e : Entity} (he : e ∈ s.entities) {key : List String} (composite : e.compositeKey? = some key) :
    key ≠ [] ∧ ∀ name ∈ key, e.hasColumn name = true := by
  obtain ⟨c, hc, found⟩ := List.exists_of_findSome?_eq_some composite
  split at found
  · next columns clause =>
    cases found
    have columns := columns_of_mem_constraints h he hc (by rw [clause]; nofun)
    rwa [clause] at columns
  · cases found

/-! ### Keys that a table defines -/

namespace Ddl

/-- Whether a definition makes a primary key: a column that is marked as key, or a clause behind the
columns. -/
def TableElement.isPrimaryKey : TableElement → Bool
  | column c => c.primaryKey
  | primaryKey _ => true
  | _ => false

/-- How many primary keys the definitions of a table make. -/
def Table.keyCount (t : Table) : Nat :=
  t.elements.countP (·.isPrimaryKey)

section Count
variable (opts : Options) (s : Schema) (keys : List ForeignKey) (e : Entity)

/-- The keys of a table are the columns of the name that the entity writes inline and its composite
key. -/
lemma keyCount_tableOf : (tableOf opts s keys e).keyCount =
    (e.fields.filter (·.isColumn)).countP (fun f => inlineKey? e == some f.name) +
      e.compositeKey?.toList.length := by
  have columns : ((e.fields.filter (·.isColumn)).map (column opts.dialect s (inlineKey? e))).countP
      (TableElement.isPrimaryKey ∘ TableElement.column) =
        (e.fields.filter (·.isColumn)).countP fun f => inlineKey? e == some f.name := by
    rw [List.countP_map]
    rfl
  have clauses : e.compositeKey?.toList.countP (TableElement.isPrimaryKey ∘ TableElement.primaryKey) =
      e.compositeKey?.toList.length :=
    List.countP_eq_length.2 fun _ _ => rfl
  rw [Table.keyCount, tableOf, tableElements_eq]
  simp only [List.countP_append, List.countP_map] at columns ⊢
  rw [columns, clauses]
  simp [Function.comp_def, TableElement.isPrimaryKey]

variable {e} (nodup : (e.fields.map (·.name)).Nodup)
include nodup

/-- A name stands once among the columns if there is such a column, and else not at all. -/
lemma countP_columns (key : String) :
    (e.fields.filter (·.isColumn)).countP (fun f => some key == some f.name) =
      if e.hasColumn key then 1 else 0 := by
  have columns : ((e.fields.filter (·.isColumn)).map (·.name)).Nodup :=
    nodup.sublist (List.filter_sublist.map _)
  have count : (e.fields.filter (·.isColumn)).countP (fun f => some key == some f.name) =
      ((e.fields.filter (·.isColumn)).map (·.name)).count key := by
    rw [List.count, List.countP_map]
    refine List.countP_congr fun f _ => ?_
    rw [Function.comp_apply, beq_iff_eq, beq_iff_eq, Option.some_inj, eq_comm]
  rw [count, columns.count]
  simp only [Entity.hasColumn_eq_true_iff nodup]

/-- A table never has more than one primary key. -/
lemma keyCount_le_one : (tableOf opts s keys e).keyCount ≤ 1 := by
  rw [keyCount_tableOf]
  cases composite : e.compositeKey? with
  | some key => simp [inlineKey?, composite]
  | none =>
    cases inline : inlineKey? e with
    | none => simp
    | some key =>
      rw [countP_columns nodup key]
      split <;> simp

/-- An entity with at most one key, whose composite key lists columns only, gives a table with as many
keys, exactly if no marked field is without column. -/
lemma keyCount_eq_iff (one : Check.primaryKeyCount e ≤ 1)
    (listed : ∀ key, e.compositeKey? = some key → ∀ name ∈ key, e.hasColumn name = true) :
    (tableOf opts s keys e).keyCount = Check.primaryKeyCount e ↔
      ∀ f ∈ e.fields, f.carries .primaryKey = true → f.isColumn = true := by
  have isColumn {f : Field} (hf : f ∈ e.fields) (column : e.hasColumn f.name = true) :
      f.isColumn = true := by
    obtain ⟨g, hg, same⟩ := List.mem_map.1 ((Entity.hasColumn_eq_true_iff nodup).1 column)
    obtain ⟨hg, column⟩ := List.mem_filter.1 hg
    rwa [← List.inj_on_of_nodup_map nodup hg hf same]
  rw [keyCount_tableOf]
  cases composite : e.compositeKey? with
  | some key =>
    -- the marked fields stand in the composite key
    have count : Check.primaryKeyCount e = 1 := by
      refine le_antisymm one ?_
      rw [Check.primaryKeyCount, composite]
      simp
    rw [count, inlineKey?, composite]
    refine iff_of_true (by simp) fun f hf marked => ?_
    exact isColumn hf (listed key composite _ (mem_compositeKey one hf composite marked))
  | none =>
    have count : Check.primaryKeyCount e = e.fields.countP (·.carries .primaryKey) := by
      rw [Check.primaryKeyCount, composite]
      simp
    have inline := inlineKey?_eq_map composite
    cases found : e.fields.find? (·.carries .primaryKey) with
    | none =>
      have unmarked := List.find?_eq_none.1 found
      have zero : e.fields.countP (·.carries .primaryKey) = 0 := List.countP_eq_zero.2 unmarked
      rw [inline, found, count, zero]
      exact iff_of_true (by simp) fun f hf marked => absurd marked (unmarked f hf)
    | some f =>
      have hf := List.mem_of_find?_eq_some found
      have marked : f.carries .primaryKey = true := by simpa using List.find?_some found
      have single : e.fields.countP (·.carries .primaryKey) = 1 := by
        rw [count] at one
        exact le_antisymm one (List.countP_pos_iff.2 ⟨f, hf, marked⟩)
      have only : ∀ g ∈ e.fields, g.carries .primaryKey = true → g.name = f.name := by
        intro g hg marked
        have key := (inlineKey?_eq_some_iff one hg nodup).2 ⟨marked, composite⟩
        rw [inline, found] at key
        exact (Option.some_inj.1 key).symm
      rw [inline, found, count, single, Option.map_some, countP_columns nodup]
      constructor
      · intro h g hg marked
        refine isColumn hg ?_
        rw [only g hg marked]
        by_contra none
        rw [if_neg none] at h
        cases h
      · intro h
        have column := (Entity.hasColumn_eq_true_iff nodup).2
          (List.mem_map_of_mem (List.mem_filter.2 ⟨hf, h f hf marked⟩))
        rw [if_pos column]
        rfl

end Count

end Ddl

/-- Whether a block marks a list as key, which has no column. -/
def Document.Entity.marksList (node : Document.Entity) : Bool :=
  node.fields.any fun f => node.marks f && f.cardinality == .list

namespace Compilation

open Ddl

/-! ### Tables of a script -/

section Tables
variable {path : String} {src : List UInt8} {o : CompileOptions} {out : Output}

/-- The script of a compilation is generated from the schema of its document. -/
lemma generate_of_output (h : (run path src o).output = some out) :
    generate (generateOptions o) (ofDocument (document path src o)).1 = .ok out := by
  rw [run_eq] at h
  split at h
  · next output generated =>
    cases h
    exact generated
  · cases h

/-- What holds of each block and the table of its entity holds of the blocks and tables in order,
where building reported nothing. -/
lemma forall₂_tables {doc : Document} (reported : (ofDocument doc).2 = []) {opts : Options}
    (generated : generate opts (ofDocument doc).1 = .ok out) {R : Document.Entity → Table → Prop}
    (h : ∀ id node keys, (declaredEntities doc)[id]? = some node →
      (keyGroups (ofDocument doc).1)[id]? = some keys →
      R node (tableOf opts (ofDocument doc).1 keys (builtEntity doc id node))) :
    List.Forall₂ R doc.entities out.tables := by
  have length : (ofDocument doc).1.entities.length = (declaredEntities doc).length := by
    rw [entities_ofDocument, List.length_mapIdx]
  rw [← declaredEntities_of_snd_eq_nil reported, tables_of_generate generated, List.forall₂_iff_get]
  refine ⟨by simp [length_keyGroups, length], fun i hi ht => ?_⟩
  have hk : i < (keyGroups (ofDocument doc).1).length := by
    rw [length_keyGroups, length]
    exact hi
  have table := h i _ _ (List.getElem?_eq_getElem hi) (List.getElem?_eq_getElem hk)
  simpa [entities_ofDocument, builtEntity] using table

end Tables

section Accepted
variable {doc : Document} (reported : (ofDocument doc).2 = [])
  (checked : Diagnostic.hasErrors (Check.run (ofDocument doc).1) = false)
  {id : Nat} {node : Document.Entity} (hn : (declaredEntities doc)[id]? = some node)
include reported checked hn

/-- The marked fields of an accepted block have columns exactly if none of them is a list. -/
lemma marked_isColumn_iff :
    (∀ f ∈ (builtEntity doc id node).fields, f.carries .primaryKey = true → f.isColumn = true) ↔
      node.marksList = false := by
  obtain ⟨⟨span, fields⟩, -⟩ := builtEntity_keys reported checked hn
  rw [fields, Document.Entity.marksList, List.any_eq_false]
  simp only [List.mem_map, forall_exists_index, and_imp, forall_apply_eq_imp_iff₂]
  refine forall₂_congr fun f _ => ?_
  rw [carries_keyed_primaryKey, (carries_buildField_simple _ _).1, Field.isColumn, keyed_cardinality]
  change (node.marks f = true → _) ↔ _
  simp

end Accepted

/-- One primary key reaches the table. No table of a script has more than one, whatever the document
says. In a document without errors, the table of an entity has one key, and none where the checks warn
that there is none, exactly if no list is marked as key. -/
theorem keyCount_of_run (path : String) (src : List UInt8) (o : CompileOptions) :
    (∀ out, (run path src o).output = some out → ∀ t ∈ out.tables, t.keyCount ≤ 1) ∧
      ((run path src o).valid = true → ∃ out, (run path src o).output = some out ∧
        List.Forall₂ (fun node t => t.name = node.name ∧
          (t.keyCount =
              (if Check.reports (run path src o).schema Diagnostic.noPrimaryKey node.name then 0 else 1) ↔
            node.marksList = false))
          (document path src o).entities out.tables) := by
  constructor
  · intro out output t ht
    rw [tables_of_generate (generate_of_output output)] at ht
    obtain ⟨⟨e, keys⟩, mem, rfl⟩ := List.mem_map.1 ht
    exact keyCount_le_one _ _ _ (field_names_nodup _ e (List.of_mem_zip mem).1)
  · intro accepted
    obtain ⟨out, output, generated⟩ := exists_output_of_valid accepted
    have reported := ofDocument_snd_eq_nil accepted
    have checked := check_of_valid accepted
    rw [run_schema] at generated checked ⊢
    refine ⟨out, output, forall₂_tables reported generated fun id node keys hn _ => ?_⟩
    have he := builtEntity_mem hn
    have one := Check.primaryKeyCount_le_one checked he
    have warned := Check.reports_noPrimaryKey_iff (entity_names_nodup _) he
    rw [builtEntity, buildEntity_name, ← builtEntity] at warned
    refine ⟨buildEntity_name, ?_⟩
    have count : (if Check.reports (ofDocument (document path src o)).1 Diagnostic.noPrimaryKey node.name
        then 0 else 1) = Check.primaryKeyCount (builtEntity (document path src o) id node) := by
      simp only [warned]
      split <;> omega
    rw [count, ← marked_isColumn_iff reported checked hn]
    exact keyCount_eq_iff _ _ _ (field_names_nodup _ _ he) one
      fun key composite => (Check.columns_of_compositeKey? checked he composite).2

/-- Blocks with a key in a column, with a composite key and without key. -/
def ledger : List UInt8 :=
  Text.bytes (":Team\n  INT $.id PK\n  Team @.rivals\n:Member\n  INT $.team\n  INT $.nr PK\n" ++
    "  PK(team, nr)\n:Note\n  TEXT $.text\n")

/-- The tables of the three blocks have one key, one key and none. -/
theorem keyCount_of_run_of_ledger :
    let o : CompileOptions := { dialect := .sqlite }
    (run "ledger.erd" ledger o).valid = true ∧
      (document "ledger.erd" ledger o).entities.map (·.marksList) = [false, false, false] ∧
      ∃ out, (run "ledger.erd" ledger o).output = some out ∧
        List.Forall₂ (fun node t => t.name = node.name ∧
          (t.keyCount = (if Check.reports (run "ledger.erd" ledger o).schema Diagnostic.noPrimaryKey
              node.name then 0 else 1) ↔ node.marksList = false))
          (document "ledger.erd" ledger o).entities out.tables := by
  have facts : (run "ledger.erd" ledger { dialect := .sqlite }).valid = true ∧
      (document "ledger.erd" ledger { dialect := .sqlite }).entities.map (·.marksList) =
        [false, false, false] := by
    rw [run, analyse, document, ledger, read_bytes, String.toList_append]
    decide +kernel
  exact ⟨facts.1, facts.2, (keyCount_of_run _ _ _).2 facts.1⟩

/-- A block whose only key is marked on a list. -/
def listKeyed : List UInt8 :=
  Text.bytes ":A\n  INT @.ids PK\n  TEXT $.x\n"

/-- The document of a block whose key is a list has no errors and no warning about a missing key, and
yet the table of the block has no key. -/
theorem keyCount_of_listKeyed :
    (run "a.erd" listKeyed {}).valid = true ∧
      Check.reports (run "a.erd" listKeyed {}).schema Diagnostic.noPrimaryKey "A" = false ∧
      (run "a.erd" listKeyed {}).output.map (fun out => out.tables.map fun t => (t.name, t.keyCount)) =
        some [("A", 0)] := by
  rw [run, analyse, listKeyed, read_bytes]
  decide +kernel

end Compilation

end ErdSql
