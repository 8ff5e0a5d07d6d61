import ErdSql.Proofs.Overrides
import ErdSql.Proofs.StatementKeys
import ErdSql.Proofs.StatementTexts

/-!
# Adding a field

What a new field changes in a script. A scalar field of a base type that nothing refers to becomes a
column of the table of its entity, and every other statement stays as it is.

* `Schema.Entity.Admits`: what makes a field of that sort.
* `Ddl.generate_insertField`: the script with the field, from the script without it.
* `Ddl.insertField_changes_one_table`: the two scripts side by side.

Other statements could notice the field in three ways: as the key that gives a reference its type, as a
reference that claims a name, or as a set whose trigger claims one. A field that an entity admits is none
of these, so the generator claims the same names in the same order with the field and without it.
-/

namespace ErdSql

namespace Schema

/-- A new field of an entity that nothing refers to: a scalar of a base type with a name of its own, which
is neither key nor reference and is not found where the key of the entity is looked up. -/
structure Entity.Admits (e : Entity) (f : Field) : Prop where
  scalar : f.cardinality = .scalar
  base : f.type.binding = .base
  fresh : f.name ∉ e.fields.map (·.name)
  unmarked : f.carries .primaryKey = false
  unbound : f.carries .foreignKey = false
  unlisted : f.name ∉ e.primaryKey
  unassumed : e.primaryKey = [] → f.name ≠ "id"

instance (e : Entity) (f : Field) : Decidable (e.Admits f) :=
  decidable_of_iff (f.cardinality = .scalar ∧ f.type.binding = .base ∧ f.name ∉ e.fields.map (·.name) ∧
      f.carries .primaryKey = false ∧ f.carries .foreignKey = false ∧ f.name ∉ e.primaryKey ∧
      (e.primaryKey = [] → f.name ≠ "id"))
    ⟨fun ⟨a, b, c, d, g, h, i⟩ => ⟨a, b, c, d, g, h, i⟩, fun ⟨a, b, c, d, g, h, i⟩ => ⟨a, b, c, d, g, h, i⟩⟩

/-- The entity with one more field behind its first ones. -/
def Entity.insertField (e : Entity) (i : Nat) (f : Field) : Entity :=
  { e with fields := e.fields.take i ++ f :: e.fields.drop i }

/-- The schema in which an entity has one more field. -/
def insertField (s : Schema) (e : Entity) (i : Nat) (f : Field) : Schema :=
  s.mapEntities fun x => if x = e then e.insertField i f else x

end Schema

namespace Ddl

open Schema

section Fields
variable {e : Entity} {f : Field} {i : Nat}

/-! ### Entities with one more field -/

lemma filterMap_insertField {α : Type} {g : Field → Option α} (nothing : g f = none) :
    (e.insertField i f).fields.filterMap g = e.fields.filterMap g := by
  show (e.fields.take i ++ f :: e.fields.drop i).filterMap g = e.fields.filterMap g
  rw [List.filterMap_append, List.filterMap_cons_none nothing, ← List.filterMap_append,
    List.take_append_drop]

lemma find?_insertField {p : Field → Bool} (no : p f = false) :
    (e.insertField i f).fields.find? p = e.fields.find? p := by
  show (e.fields.take i ++ f :: e.fields.drop i).find? p = e.fields.find? p
  rw [List.find?_append, List.find?_cons_of_neg (by simp [no]), ← List.find?_append,
    List.take_append_drop]

lemma primaryKey_insertField (unmarked : f.carries .primaryKey = false) :
    (e.insertField i f).primaryKey = e.primaryKey := by
  unfold Entity.primaryKey
  rw [find?_insertField unmarked]
  rfl

lemma inlineKey?_insertField (unmarked : f.carries .primaryKey = false) :
    inlineKey? (e.insertField i f) = inlineKey? e := by
  rw [inlineKey?, inlineKey?, primaryKey_insertField unmarked]
  rfl

/-- The column that is marked as key stands in the key. -/
lemma mem_primaryKey_of_inlineKey? {name : String} (h : inlineKey? e = some name) : name ∈ e.primaryKey := by
  rw [inlineKey?] at h
  split at h
  · cases h
  · exact List.mem_of_mem_head? h

lemma foreignKey?_of_unbound (unbound : f.carries .foreignKey = false) : f.foreignKey? = none := by
  have none : f.constraint? .foreignKey = none := by
    rw [Field.constraint?, List.find?_eq_none]
    exact List.any_eq_false.1 unbound
  rw [Field.foreignKey?, none]

end Fields

namespace Admitted

variable {s : Schema} {e : Entity} {f : Field} (new : e.Admits f) (i : Nat)
include new

/-- What is looked up of an entity, by itself or by a reference to it, is there as before. -/
lemma keepsKeys : KeepsKeys fun x => if x = e then e.insertField i f else x := by
  have kept {α : Type} (view : Entity → α) (x : Entity) (same : view (e.insertField i f) = view e) :
      view (if x = e then e.insertField i f else x) = view x := by
    split
    · next here => rw [same, here]
    · rfl
  have key : (e.insertField i f).primaryKey = e.primaryKey := primaryKey_insertField new.unmarked
  have other : f.name ≠ e.primaryKey.headD "id" := by
    cases columns : e.primaryKey with
    | nil => exact new.unassumed columns
    | cons column _ =>
      intro same
      apply new.unlisted
      rw [columns, same]
      exact List.mem_cons_self
  refine ⟨fun x => kept (·.name) x rfl, fun x => kept (·.primaryKey) x key, fun x => ?_,
    fun s x => kept (references s) x ?_⟩
  · split
    · next here =>
      rw [here]
      exact find?_insertField (by simpa using other)
    · rfl
  · apply filterMap_insertField
    rw [foreignKey?_of_unbound new.unbound]

lemma column_insertField (d : Dialect) (key : Option String) :
    column d (s.insertField e i f) key = column d s key :=
  column_mapEntities (keepsKeys new i) d key

/-- The column of the field carries no key. -/
lemma column_eq (d : Dialect) (s : Schema) : column d s (inlineKey? e) f = column d s none f := by
  have apart : (inlineKey? e == some f.name) = false :=
    beq_eq_false_iff_ne.2 fun key => new.unlisted (mem_primaryKey_of_inlineKey? key)
  rw [column, column, apart]
  rfl

/-- Only unique sets have triggers of their own. -/
lemma distinctStatements_insertField :
    distinctStatements (e.insertField i f) = distinctStatements e := by
  have single : (f.cardinality == .set && f.carries .unique) = false := by
    rw [new.scalar]
    rfl
  have fields : (e.insertField i f).fields.filter (fun f => f.cardinality == .set && f.carries .unique) =
      e.fields.filter (fun f => f.cardinality == .set && f.carries .unique) := by
    rw [← List.filterMap_eq_filter]
    exact filterMap_insertField (by simp [single])
  rw [distinctStatements, distinctStatements, fields]
  rfl

end Admitted

/-! ### Tables with one more column -/

/-- The columns of the first fields of an entity. -/
def columnsBefore (d : Dialect) (s : Schema) (e : Entity) (i : Nat) : List Column :=
  ((e.fields.take i).filter (·.isColumn)).map (column d s (inlineKey? e))

/-- A table with one more definition behind its first ones. -/
def Table.insertElement (n : Nat) (x : TableElement) (t : Table) : Table :=
  { t with elements := t.elements.take n ++ x :: t.elements.drop n }

/-- A statement, with one more definition if it is the table of a name. -/
def Statement.insertElement (name : String) (n : Nat) (x : TableElement) : Statement → Statement
  | table t => if t.name = name then table (t.insertElement n x) else table t
  | st => st

/-- A script with one more definition in the table of a name. -/
def Output.insertElement (name : String) (n : Nat) (x : TableElement) (out : Output) : Output :=
  { out with statements := out.statements.map (Statement.insertElement name n x) }

namespace Statement

variable {name : String} {n : Nat} {x : TableElement}

lemma insertElement_of_entity_ne {st : Statement} (other : st.entity ≠ name) :
    st.insertElement name n x = st := by
  cases st with
  | table t => exact if_neg other
  | _ => rfl

lemma map_insertElement_of_no_table {sts : List Statement} (none : ∀ st ∈ sts, st.table? = none) :
    sts.map (insertElement name n x) = sts := by
  rw [List.map_congr_left, List.map_id]
  intro st hst
  cases st with
  | table t => cases none _ hst
  | _ => rfl

end Statement

section Statements
variable {opts : Options} {s : Schema} {e : Entity} {f : Field}

/-- The statements of an entity behind its table. -/
def behindTable (opts : Options) (e : Entity) : StateM NameTable (List Statement) := do
  let distinct ← distinctStatements e
  let search ← searchStatements opts e
  let audit ← auditStatements e
  let soft ← softDeleteStatements e
  let partition :=
    if opts.dialect.supports .partitioning then []
    else (partitionOf opts.overlay e).toList.map (.partition e.name)
  return partition ++ distinct ++
    (e.ttl.toList.map fun t => .expiry e.name t.column t.interval.value) ++ search ++
    securityStatements opts.overlay e ++ (e.policies.map fun p => .policy e.name p.policy) ++ audit ++
    soft ++ migrationStatements opts.overlay e

lemma tableStatements_eq_cons (opts : Options) (s : Schema) (keys : List ForeignKey) (e : Entity) :
    tableStatements opts s keys e = .table (tableOf opts s keys e) ::
      if opts.dialect.supports .partitioning then []
      else (partitionOf opts.overlay e).toList.map (.partition e.name) := by
  unfold tableStatements tableOf
  dsimp only
  split <;> rfl

/-- Only the table of an entity reads its columns. -/
lemma run_entityStatements (opts : Options) (s : Schema) (e : Entity) (keys : List ForeignKey)
    (t : NameTable) : (entityStatements opts s e keys).run t =
      (.table (tableOf opts s keys e) :: ((behindTable opts e).run t).1, ((behindTable opts e).run t).2) := by
  rw [entityStatements, tableStatements_eq_cons]
  rfl

lemma table?_of_mem_behindTable {e : Entity} {t : NameTable} :
    ∀ st ∈ ((behindTable opts e).run t).1, st.table? = none := by
  -- the schema and the keys have no part in these statements, so any will do
  obtain ⟨before, after, hb, ha, run⟩ := entityStatements_eq opts default [] e t
  rw [run_entityStatements, List.cons_append, List.cons_append] at run
  rw [(List.cons.inj run).2]
  simp only [List.forall_mem_append]
  exact ⟨⟨fun st hst => (hb st hst).1, fun st hst => (distinctStatements_frame e t st hst).1⟩,
    fun st hst => (ha st hst).1⟩

/-- The definitions of a table are its columns and then the clauses of its keys, which no field has a
part in. -/
lemma exists_clauses (d : Dialect) (keys : List ForeignKey) (e : Entity) : ∃ clauses, ∀ s e',
    e'.constraints = e.constraints → tableElements d s keys e' =
      ((e'.fields.filter (·.isColumn)).map (column d s (inlineKey? e'))).map .column ++ clauses := by
  refine ⟨e.compositeKey?.toList.map .primaryKey ++ (uniqueKeys e).map .unique ++
    (checkKeys e).map .check ++
    (if d.supports .alterConstraints then [] else keys).map .foreignKey, fun s e' same => ?_⟩
  rw [tableElements_eq, Entity.compositeKey?, uniqueKeys, checkKeys, same]
  simp only [List.append_assoc]
  rfl

/-- The table of the entity gains the column of the field, behind the columns of the fields in front. -/
lemma tableOf_insertField (new : e.Admits f) (i : Nat) (keys : List ForeignKey) :
    (tableOf opts s keys e).elements.take (columnsBefore opts.dialect s e i).length =
        (columnsBefore opts.dialect s e i).map .column ∧
      tableOf opts (s.insertField e i f) keys (e.insertField i f) =
        (tableOf opts s keys e).insertElement (columnsBefore opts.dialect s e i).length
          (.column (column opts.dialect s none f)) := by
  have single : f.isColumn = true := by
    rw [Field.isColumn, new.scalar]
    rfl
  obtain ⟨clauses, elements⟩ := exists_clauses opts.dialect keys e
  have old : tableElements opts.dialect s keys e = (columnsBefore opts.dialect s e i).map .column ++
      ((((e.fields.drop i).filter (·.isColumn)).map (column opts.dialect s (inlineKey? e))).map .column ++
        clauses) := by
    rw [elements s e rfl, ← List.append_assoc, columnsBefore, ← List.map_append, ← List.map_append,
      ← List.filter_append, List.take_append_drop]
  have gained : tableElements opts.dialect (s.insertField e i f) keys (e.insertField i f) =
      (columnsBefore opts.dialect s e i).map .column ++ .column (column opts.dialect s none f) ::
        ((((e.fields.drop i).filter (·.isColumn)).map (column opts.dialect s (inlineKey? e))).map .column ++
          clauses) := by
    have fields : (e.insertField i f).fields.filter (·.isColumn) =
        (e.fields.take i).filter (·.isColumn) ++ f :: (e.fields.drop i).filter (·.isColumn) := by
      rw [← List.filter_cons_of_pos (p := Field.isColumn) single, ← List.filter_append]
      rfl
    rw [elements _ (e.insertField i f) rfl, fields, inlineKey?_insertField new.unmarked,
      Admitted.column_insertField new, List.map_append, List.map_cons, Admitted.column_eq new,
      List.map_append, List.map_cons, List.append_assoc, List.cons_append]
    rfl
  have length : ((columnsBefore opts.dialect s e i).map TableElement.column).length =
      (columnsBefore opts.dialect s e i).length := List.length_map _
  constructor
  · rw [tableOf, old, List.take_left' length]
  · rw [tableOf, tableOf, Table.insertElement, old, gained, List.take_left' length,
      List.drop_left' length]
    rfl

/-- One step: the entity has the same statements, but for the column, and claims the same names. -/
lemma entityStatements_insertField (new : e.Admits f) (i : Nat) (keys : List ForeignKey) (t : NameTable) :
    ((entityStatements opts (s.insertField e i f) (e.insertField i f) keys).run t).1 =
        ((entityStatements opts s e keys).run t).1.map
          (Statement.insertElement e.name (columnsBefore opts.dialect s e i).length
            (.column (column opts.dialect s none f))) ∧
      ((entityStatements opts (s.insertField e i f) (e.insertField i f) keys).run t).2 =
        ((entityStatements opts s e keys).run t).2 := by
  have behind : behindTable opts (e.insertField i f) = behindTable opts e := by
    rw [behindTable, Admitted.distinctStatements_insertField new]
    rfl
  rw [run_entityStatements, run_entityStatements, behind, (tableOf_insertField new i keys).2, List.map_cons,
    Statement.map_insertElement_of_no_table table?_of_mem_behindTable]
  exact ⟨congrArg (· :: _) (if_pos rfl).symm, rfl⟩

/-- Another entity has the same statements. -/
lemma entityStatements_of_other (new : e.Admits f) (i : Nat) (x : Entity) (keys : List ForeignKey) :
    entityStatements opts (s.insertField e i f) x keys = entityStatements opts s x keys := by
  have table : tableStatements opts (s.insertField e i f) keys x = tableStatements opts s keys x := by
    simp only [tableStatements, tableElements, Admitted.column_insertField new]
  rw [entityStatements, entityStatements, table]

lemma keyGroups_insertField (new : e.Admits f) (i : Nat) :
    (s.insertField e i f).entities.mapM (collectForeignKeys (s.insertField e i f)) =
      s.entities.mapM (collectForeignKeys s) :=
  keyRun_mapEntities (Admitted.keepsKeys new i)

/-- The run: every group of statements is the same, but for the column. -/
lemma entityGroups_insertField (apart : (s.entities.map (·.name)).Nodup) (he : e ∈ s.entities)
    (new : e.Admits f) (i : Nat) : entityGroups opts (s.insertField e i f) =
      (entityGroups opts s).map (List.map (Statement.insertElement e.name
        (columnsBefore opts.dialect s e i).length (.column (column opts.dialect s none f)))) := by
  have step : ∀ p ∈ s.entities.zip (keyGroups s), ∀ t,
      id ((entityStatements opts (s.insertField e i f)
          (if p.1 = e then e.insertField i f else p.1) p.2).run t).1 =
          ((entityStatements opts s p.1 p.2).run t).1.map (Statement.insertElement e.name
            (columnsBefore opts.dialect s e i).length (.column (column opts.dialect s none f))) ∧
        ((entityStatements opts (s.insertField e i f)
          (if p.1 = e then e.insertField i f else p.1) p.2).run t).2 =
          ((entityStatements opts s p.1 p.2).run t).2 := by
    rintro ⟨x, keys⟩ mem t
    dsimp only [id]
    split
    · next here =>
      subst here
      exact entityStatements_insertField new i keys t
    · next other =>
      rw [entityStatements_of_other new]
      refine ⟨?_, rfl⟩
      rw [List.map_congr_left, List.map_id]
      intro st hst
      apply Statement.insertElement_of_entity_ne
      rw [entity_of_mem_entityStatements st hst]
      exact fun same => other (List.inj_on_of_nodup_map apart (List.of_mem_zip mem).1 he same)
  have run := (map_mapM_eq (f := fun p : Entity × List ForeignKey => entityStatements opts
    (s.insertField e i f) (if p.1 = e then e.insertField i f else p.1) p.2) id _ step
    ((s.entities.mapM (collectForeignKeys s)).run NameTable.empty).2).1
  rw [List.map_id] at run
  rw [entityGroups, keyGroups, keyGroups_insertField new]
  rw [insertField, entities_mapEntities, List.zip_map_left, List.mapM_map]
  exact run

/-! ### Scripts with one more column -/

/-- The script with the field is the script without it, but for the column in its table. And one is
refused as the other is. -/
lemma generate_insertField (apart : (s.entities.map (·.name)).Nodup) (he : e ∈ s.entities)
    (new : e.Admits f) (i : Nat) : generate opts (s.insertField e i f) =
      (generate opts s).map (Output.insertElement e.name (columnsBefore opts.dialect s e i).length
        (.column (column opts.dialect s none f))) := by
  generalize gained : Statement.insertElement e.name (columnsBefore opts.dialect s e i).length
    (.column (column opts.dialect s none f)) = gain
  have kept {sts : List Statement} (none : ∀ st ∈ sts, st.table? = none) : sts.map gain = sts := by
    rw [← gained]
    exact Statement.map_insertElement_of_no_table none
  have keys : (keyGroups s).flatten.map (gain ∘ Statement.foreignKey) =
      (keyGroups s).flatten.map Statement.foreignKey := by
    rw [← List.map_map]
    exact kept (List.forall_mem_map.2 fun _ _ => rfl)
  have statements : schemaStatements opts (s.insertField e i f) =
      (schemaStatements opts s).map gain := by
    rw [schemaStatements_eq, schemaStatements_eq, entityGroups_insertField apart he new i, gained,
      keyGroups, keyGroups_insertField new, ← keyGroups, ← List.map_flatten]
    simp only [List.map_append, apply_ite (List.map gain), List.map_map, keys]
    rw [kept fun st hst => (isOther_of_mem_sourceStatements st hst).1, ← gained]
    rfl
  rw [generate, generate, statements]
  show (blockStatements opts.plugins [] s.blocks >>= _) = _
  cases blocks : blockStatements opts.plugins [] s.blocks with
  | error refused => rfl
  | ok sts =>
    have same := kept fun st hst => (isOther_of_mem_blockStatements blocks st hst).1
    show Except.ok _ = Except.ok (Output.insertElement _ _ _ _)
    rw [Output.insertElement, gained, List.map_append, same]

/-! ### The two scripts side by side -/

/-- What one more column makes of a table: its definition stands behind those of the columns in front,
in the table and in its SQL. -/
structure Table.Gains (d : Dialect) (front : List Column) (c : Column) (t t' : Table) : Prop where
  frame : t' = { t with elements := t'.elements }
  elements : ∃ behind, t.elements = front.map .column ++ behind ∧
    t'.elements = front.map .column ++ .column c :: behind
  sql : ∃ behind, t.sql d = t.sqlWith (front.map (·.sql d) ++ behind) ∧
    t'.sql d = t.sqlWith (front.map (·.sql d) ++ c.sql d :: behind)

lemma Table.gains_insertElement (d : Dialect) (c : Column) {front : List Column} {t : Table}
    (starts : t.elements.take front.length = front.map .column) :
    t.Gains d front c (t.insertElement front.length (.column c)) := by
  have split : t.elements = front.map .column ++ t.elements.drop front.length := by
    rw [← starts, List.take_append_drop]
  have gained : (t.insertElement front.length (.column c)).elements =
      front.map .column ++ .column c :: t.elements.drop front.length := by
    rw [insertElement, starts]
  have columns : (front.map TableElement.column).map (·.sql d) = front.map (·.sql d) := List.map_map
  refine ⟨rfl, ⟨_, split, gained⟩, (t.elements.drop front.length).map (·.sql d), ?_, ?_⟩
  · rw [← columns, ← List.map_append, ← split]
    rfl
  · show t.sqlWith ((t.insertElement front.length (.column c)).elements.map (·.sql d)) = _
    rw [gained, List.map_append, columns]
    rfl

lemma Statement.eq_table_of_key {t : Table} {st : Statement} (same : st.key = (table t).key) :
    ∃ t', st = table t' ∧ t'.name = t.name := by
  obtain ⟨word, label⟩ := key_eq_key_iff.1 same
  cases st with
  | table t' => exact ⟨t', rfl, label⟩
  | _ => simp [kind, Kind.keyWord] at word

/-- A script has one table of an entity. -/
lemma exists_table_of_generate (apart : (s.entities.map (·.name)).Nodup) (he : e ∈ s.entities)
    {out : Output} (generated : generate opts s = .ok out) : ∃ front keys back,
      out.statements = front ++ .table (tableOf opts s keys e) :: back ∧
      ∀ st ∈ front ++ back, st.key ≠ (Statement.table (tableOf opts s keys e)).key := by
  have names := map_name_tables_of_generate generated
  obtain ⟨t, ht, name⟩ := List.mem_map.1 (names ▸ List.mem_map_of_mem he :
    e.name ∈ out.tables.map (·.name))
  obtain ⟨keys, rfl⟩ : ∃ keys, t = tableOf opts s keys e := by
    rw [tables_of_generate generated] at ht
    obtain ⟨⟨x, keys⟩, mem, rfl⟩ := List.mem_map.1 ht
    obtain rfl : x = e := List.inj_on_of_nodup_map apart (List.of_mem_zip mem).1 he name
    exact ⟨keys, rfl⟩
  obtain ⟨front, back, split⟩ := List.append_of_mem (mem_tables_iff.1 ht)
  refine ⟨front, keys, back, split, fun st hst same => ?_⟩
  obtain ⟨other, rfl, twice⟩ := Statement.eq_table_of_key same
  -- a second table of the name would make the name occur twice among the entities
  have unique : e.name ∉ ((front ++ back).filterMap Statement.table?).map (·.name) := by
    rw [← names, Output.tables, split, List.filterMap_append, List.map_append] at apart
    rw [List.filterMap_append, List.map_append]
    exact (List.nodup_cons.1 (List.nodup_middle.1 apart)).1
  exact unique (List.mem_map.2 ⟨other, List.mem_filterMap.2 ⟨_, hst, rfl⟩, twice⟩)

lemma Statement.map_insertElement_of_key_ne {t : Table} {n : Nat} {x : TableElement}
    {sts : List Statement} (other : ∀ st ∈ sts, st.key ≠ (table t).key) :
    sts.map (insertElement t.name n x) = sts := by
  rw [List.map_congr_left, List.map_id]
  intro st hst
  cases st with
  | table t' =>
    refine if_neg fun same => other _ hst ?_
    rw [key, key, same]
  | _ => rfl

end Statements

/-- A new field of an entity that nothing refers to changes one statement of the script: the table of the
entity gains the definition of its column, behind those of the fields in front. Whatever the options,
there is a script with the field just when there is one without it. -/
theorem insertField_changes_one_table (doc : Document) (opts : Options) {e : Entity}
    (he : e ∈ (ofDocument doc).1.entities) {f : Field} (new : e.Admits f) (i : Nat) :
    let s := (ofDocument doc).1
    (∀ refused, generate opts s = .error refused →
      generate opts (s.insertField e i f) = .error refused) ∧
    ∀ out, generate opts s = .ok out → ∃ front t t' back,
      out.statements = front ++ .table t :: back ∧
      generate opts (s.insertField e i f) =
        .ok { out with statements := front ++ .table t' :: back } ∧
      t.name = e.name ∧ (∀ st ∈ front ++ back, st.key ≠ (Statement.table t).key) ∧
      t.Gains opts.dialect (columnsBefore opts.dialect s e i) (column opts.dialect s none f) t' := by
  intro s
  have changed : generate opts (s.insertField e i f) = _ :=
    generate_insertField (entity_names_nodup doc) he new i
  refine ⟨fun refused h => by rw [changed, h]; rfl, fun out generated => ?_⟩
  obtain ⟨front, keys, back, split, other⟩ := exists_table_of_generate (entity_names_nodup doc) he generated
  have ⟨others, others'⟩ := List.forall_mem_append.1 other
  refine ⟨front, _, _, back, split, ?_, rfl, other,
    Table.gains_insertElement _ _ (tableOf_insertField new i keys).1⟩
  have name : e.name = (tableOf opts s keys e).name := rfl
  rw [changed, generated]
  show Except.ok (Output.insertElement _ _ _ _) = _
  rw [Output.insertElement, split, name, List.map_append, List.map_cons,
    Statement.map_insertElement_of_key_ne others, Statement.map_insertElement_of_key_ne others']
  congr 4
  exact if_pos rfl

/-- A line of text that has to be filled in. -/
def note : Field :=
  { (default : Field) with
    name := "note"
    type := ⟨"TEXT", [], .base, default⟩
    constraints := [⟨.notNull, default⟩] }

/-- A note in front of the reference of a branch: its column is in front of that of the reference, and all
else is as before. -/
theorem insertField_changes_one_table_of_branches :
    let s := (ofDocument branches).1
    ∃ e ∈ s.entities, ∃ out out', e.name = "Branch" ∧ e.Admits note ∧
      generate {} s = .ok out ∧ generate {} (s.insertField e 0 note) = .ok out' ∧
      (out.statement? "table:Branch").map (·.sql .postgresql) =
        some "CREATE TABLE Branch (firm VARCHAR(20) PRIMARY KEY)" ∧
      (out'.statement? "table:Branch").map (·.sql .postgresql) =
        some "CREATE TABLE Branch (note TEXT NOT NULL, firm VARCHAR(20) PRIMARY KEY)" ∧
      ∃ front t t' back, out.statements = front ++ .table t :: back ∧
        out' = { out with statements := front ++ .table t' :: back } ∧
        t.name = e.name ∧ (∀ st ∈ front ++ back, st.key ≠ (Statement.table t).key) ∧
        t.Gains .postgresql (columnsBefore .postgresql s e 0) (column .postgresql s none note) t' := by
  have facts : ∃ e ∈ (ofDocument branches).1.entities,
      ∃ out ∈ (generate {} (ofDocument branches).1).toOption,
      ∃ out' ∈ (generate {} ((ofDocument branches).1.insertField e 0 note)).toOption,
        e.name = "Branch" ∧ e.Admits note ∧
        (out.statement? "table:Branch").map (·.sql .postgresql) =
          some "CREATE TABLE Branch (firm VARCHAR(20) PRIMARY KEY)" ∧
        (out'.statement? "table:Branch").map (·.sql .postgresql) =
          some "CREATE TABLE Branch (note TEXT NOT NULL, firm VARCHAR(20) PRIMARY KEY)" := by
    rw [branches, Compilation.document, Compilation.read_bytes, String.toList_append]
    decide +kernel
  obtain ⟨e, he, out, found, out', found', name, new, sql, sql'⟩ := facts
  obtain ⟨front, t, t', back, old, gained, rest⟩ :=
    (insertField_changes_one_table branches {} he new 0).2 out (generate_of_mem_toOption found)
  have generated := generate_of_mem_toOption found'
  exact ⟨e, he, out, out', name, new, generate_of_mem_toOption found, generated, sql, sql', front, t, t', back,
    old, Except.ok.inj (generated.symm.trans gained), rest⟩

end Ddl

end ErdSql
