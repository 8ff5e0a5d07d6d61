import ErdSql.Proofs.TableKeys

/-!
# References between tables

What the foreign keys of a script point at.

* `Ddl.column?_of_generate`: where the column of a field stands in a script.
* `Ddl.refers_of_mem_foreignKeys`: a foreign key comes from a field and points at the entity that the
  field refers to.
* `Ddl.exists_entity_of_mem_foreignKeys`: where the foreign keys of a script stand.
* `Schema.columns_of_primaryKey`: the key of an accepted entity lists columns, unless it is a list.
* `Compilation.references_hold`: the foreign keys of an accepted document hold.

A foreign key names the columns of the key of its target. An entity without key is referred to by the
column `id`, whether it has such a column or not, and the checks warn about it.
-/

namespace ErdSql

open Schema

/-! ### The columns of a key -/

namespace Schema

variable {s : Schema} (checked : Diagnostic.hasErrors (Check.run s) = false) {e : Entity}
  (he : e ∈ s.entities)
include checked he

/-- An entity has no key columns exactly if it has no key. -/
lemma primaryKey_eq_nil_iff : e.primaryKey = [] ↔ Check.primaryKeyCount e = 0 := by
  rw [Check.primaryKeyCount, Entity.primaryKey]
  cases composite : e.compositeKey? with
  | some key =>
    have columns := Check.columns_of_compositeKey? checked he composite
    simp [columns.1]
  | none =>
    cases found : e.fields.find? (·.carries .primaryKey) with
    | none => simpa using List.find?_eq_none.1 found
    | some f =>
      have marked := List.find?_some found
      refine iff_of_false (by simp) ?_
      simpa using ⟨f, List.mem_of_find?_eq_some found, marked⟩

/-- The key of an entity lists columns, where every marked field has one. -/
lemma columns_of_primaryKey (nodup : (e.fields.map (·.name)).Nodup)
    (marked : ∀ f ∈ e.fields, f.carries .primaryKey = true → f.isColumn = true) :
    ∀ name ∈ e.primaryKey, e.hasColumn name = true := by
  intro name hname
  unfold Entity.primaryKey at hname
  cases composite : e.compositeKey? with
  | some key =>
    rw [composite] at hname
    exact (Check.columns_of_compositeKey? checked he composite).2 name hname
  | none =>
    rw [composite] at hname
    dsimp only at hname
    split at hname
    · next f found =>
      have hf := List.mem_of_find?_eq_some found
      obtain rfl := List.mem_singleton.1 hname
      have column := marked f hf (by simpa using List.find?_some found)
      exact (Entity.hasColumn_eq_true_iff nodup).2
        (List.mem_map_of_mem (List.mem_filter.2 ⟨hf, column⟩))
    · cases hname

end Schema

/-! ### Where foreign keys come from -/

namespace Ddl

/-- The columns that a reference to an entity names. -/
def referencedColumns (target : Entity) : List String :=
  if target.primaryKey.isEmpty then ["id"] else target.primaryKey

/-- A foreign key comes from a column of an entity and points at the key of another one. -/
structure Refers (e : Entity) (k : ForeignKey) (target : Entity) : Prop where
  table_eq : k.table = e.name
  column_mem : k.column ∈ (e.fields.filter (·.isColumn)).map (·.name)
  target_eq : k.target = target.name
  columns_eq : k.columns = referencedColumns target

/-- A foreign key of an entity comes from a field and points at the entity that the field refers to. -/
lemma refers_of_mem_collectForeignKeys (s : Schema) (e : Entity) (names : NameTable) :
    ∀ k ∈ ((collectForeignKeys s e).run names).1, ∃ f ∈ e.fields, k.column = f.name ∧
      ∃ id span target, f.foreignKey? = some (id, span) ∧ s.entity? id = some target ∧
        Refers e k target := by
  refine forall_mem_mapM_of_mem ?_ names
  rintro ⟨field, target⟩ mem table
  obtain ⟨f, hf, found⟩ := List.mem_filterMap.1 mem
  split at found
  · next id span key =>
    split at found
    · next column =>
      obtain ⟨entity, known, same⟩ := Option.map_eq_some_iff.1 found
      cases same
      exact ⟨f, hf, rfl, id, span, target, key, known, rfl,
        List.mem_map_of_mem (List.mem_filter.2 ⟨hf, column⟩), rfl, rfl⟩
    · cases found
  · cases found

/-- The foreign keys that stand with an entity are its own. -/
lemma refers_of_mem_keyGroups {s : Schema} {e : Entity} {keys : List ForeignKey}
    (mem : (e, keys) ∈ s.entities.zip (keyGroups s)) {k : ForeignKey} (hk : k ∈ keys) :
    ∃ f ∈ e.fields, k.column = f.name ∧ ∃ id span target, f.foreignKey? = some (id, span) ∧
      s.entity? id = some target ∧ Refers e k target := by
  have groups := forall₂_mapM (R := fun e keys => ∀ k ∈ keys, ∃ f ∈ e.fields, k.column = f.name ∧
      ∃ id span target, f.foreignKey? = some (id, span) ∧ s.entity? id = some target ∧
        Refers e k target)
    (refers_of_mem_collectForeignKeys s) s.entities NameTable.empty
  exact (List.forall₂_iff_zip.1 groups).2 mem k hk

/-- A foreign key of a script comes from a field and points at the entity that the field refers to. -/
lemma refers_of_mem_foreignKeys {opts : Options} {s : Schema} {out : Output}
    (generated : generate opts s = .ok out) {k : ForeignKey} (hk : k ∈ out.foreignKeys) :
    ∃ e ∈ s.entities, ∃ f ∈ e.fields, k.column = f.name ∧ ∃ id span target,
      f.foreignKey? = some (id, span) ∧ s.entity? id = some target ∧ Refers e k target := by
  rw [foreignKeys_eq_of_generate generated] at hk
  obtain ⟨keys, group, hk⟩ := List.mem_flatten.1 hk
  rw [← List.map_snd_zip (length_keyGroups s).le] at group
  obtain ⟨⟨e, keys⟩, mem, rfl⟩ := List.mem_map.1 group
  exact ⟨e, (List.of_mem_zip mem).1, refers_of_mem_keyGroups mem hk⟩

/-- The columns of the table of an entity have the names of its fields. -/
lemma map_name_columns_tableOf (opts : Options) (s : Schema) (keys : List ForeignKey) (e : Entity) :
    (tableOf opts s keys e).columns.map (·.name) = (e.fields.filter (·.isColumn)).map (·.name) := by
  rw [(tableOf_views _ _ _ _).1, List.map_map]
  rfl

/-- The column of a script by the names of its table and itself. -/
def Output.column? (out : Output) (table column : String) : Option Column :=
  (out.tables.find? fun t => t.name == table).bind fun t => t.columns.find? fun c => c.name == column

/-- The first element of a key, where keys differ. -/
lemma find?_eq_some_of_nodup {α : Type} {key : α → String} {xs : List α} (nodup : (xs.map key).Nodup)
    {x : α} (hx : x ∈ xs) : (xs.find? fun y => key y == key x) = some x := by
  cases found : xs.find? fun y => key y == key x with
  | none => exact absurd (List.find?_eq_none.1 found x hx) (by simp)
  | some y =>
    have same : key y = key x := by simpa using List.find?_some found
    rw [List.inj_on_of_nodup_map nodup (List.mem_of_find?_eq_some found) hx same]

/-- The column of a field stands in the table of its entity, where names differ. -/
lemma column?_of_generate {opts : Options} {s : Schema} {out : Output}
    (generated : generate opts s = .ok out) (apart : (s.entities.map (·.name)).Nodup) {e : Entity}
    (he : e ∈ s.entities) (nodup : (e.fields.map (·.name)).Nodup) {f : Field} (hf : f ∈ e.fields)
    (single : f.isColumn = true) :
    out.column? e.name f.name = some (column opts.dialect s (inlineKey? e) f) := by
  obtain ⟨keys, mem⟩ := exists_keys_of_mem he
  have table : tableOf opts s keys e ∈ out.tables := by
    rw [tables_of_generate generated]
    exact List.mem_map_of_mem mem
  have tables : (out.tables.map (·.name)).Nodup := by
    rw [map_name_tables_of_generate generated]
    exact apart
  have column : column opts.dialect s (inlineKey? e) f ∈ (tableOf opts s keys e).columns := by
    rw [(tableOf_views _ _ _ _).1]
    exact List.mem_map_of_mem (List.mem_filter.2 ⟨hf, single⟩)
  have columns : ((tableOf opts s keys e).columns.map (·.name)).Nodup := by
    rw [map_name_columns_tableOf]
    exact nodup.sublist (List.filter_sublist.map _)
  have found : out.tables.find? (fun t => t.name == e.name) = some (tableOf opts s keys e) :=
    find?_eq_some_of_nodup tables table
  rw [Output.column?, found]
  exact find?_eq_some_of_nodup columns column

/-! ### Where foreign keys stand -/

section Places
variable {opts : Options} {s : Schema} {out : Output}

/-- A script defines a table exactly if the table is one of its statements. -/
lemma mem_tables_iff {t : Table} : t ∈ out.tables ↔ .table t ∈ out.statements := by
  rw [Output.tables, List.mem_filterMap]
  constructor
  · rintro ⟨st, hst, found⟩
    cases st <;> cases found
    exact hst
  · exact fun h => ⟨_, h, rfl⟩

/-- Among the statements of the entities, only tables define foreign keys, and only where constraints
cannot be added later. -/
lemma table_of_mem_entityGroups {st : Statement} (hst : st ∈ (entityGroups opts s).flatten)
    {k : ForeignKey} (hk : k ∈ st.foreignKeys) :
    opts.dialect.supports .alterConstraints = false ∧ ∃ p ∈ s.entities.zip (keyGroups s),
      st = .table (tableOf opts s p.2 p.1) ∧ k ∈ p.2 := by
  obtain ⟨group, hgroup, hst⟩ := List.mem_flatten.1 hst
  refine forall_mem_mapM_of_mem (P := fun sts => ∀ st ∈ sts, ∀ k ∈ st.foreignKeys,
    opts.dialect.supports .alterConstraints = false ∧ ∃ p ∈ s.entities.zip (keyGroups s),
      st = .table (tableOf opts s p.2 p.1) ∧ k ∈ p.2) ?_ _ group hgroup st hst k hk
  rintro ⟨e, keys⟩ mem names st hst k hk
  obtain ⟨before, after, hb, ha, eq⟩ := entityStatements_eq opts s keys e names
  rw [eq] at hst
  rcases List.mem_append.1 hst with hst | hst
  · rcases List.mem_append.1 hst with hst | hst
    · rcases List.mem_cons.1 hst with rfl | hst
      · rw [Statement.foreignKeys, (tableOf_views _ _ _ _).2.2.2.2] at hk
        split at hk
        · cases hk
        · next unsupported => exact ⟨by simpa using unsupported, (e, keys), mem, rfl, hk⟩
      · rw [(hb st hst).2.1] at hk
        cases hk
    · rw [(distinctStatements_frame e names st hst).2] at hk
      cases hk
  · rw [(ha st hst).2.1] at hk
    cases hk

/-- What stands in front of an element that is not in the first part of a list starts with that
part. -/
lemma isPrefix_of_append_cons {α : Type} {as bs front back : List α} {a : α}
    (h : as ++ bs = front ++ a :: back) (apart : a ∉ as) : as <+: front := by
  rcases List.append_eq_append_iff.1 h with ⟨more, rfl, -⟩ | ⟨more, rfl, rest⟩
  · exact List.prefix_append _ _
  · cases more with
    | nil => simp
    | cons b more =>
      obtain ⟨rfl, -⟩ := List.cons.inj rest
      exact absurd (List.mem_append_right front List.mem_cons_self) apart

/-- A foreign key of a script stands in the table of its entity, or alone behind all tables where
constraints can be added later. -/
lemma exists_entity_of_mem_foreignKeys (generated : generate opts s = .ok out)
    {front back : List Statement} {st : Statement} (here : out.statements = front ++ st :: back)
    {k : ForeignKey} (hk : k ∈ st.foreignKeys) :
    ∃ p ∈ s.entities.zip (keyGroups s), k ∈ p.2 ∧
      (st = .table (tableOf opts s p.2 p.1) ∨ st = .foreignKey k) ∧
      (opts.dialect.supports .alterConstraints = true → ∀ t ∈ out.tables, .table t ∈ front) := by
  obtain ⟨before, after, hb, ha, eq⟩ := generate_eq generated
  have mem : st ∈ out.statements := by rw [here]; simp
  have notOther : ¬ st.IsOther := by
    intro other
    rw [other.2.1] at hk
    cases hk
  cases supported : opts.dialect.supports .alterConstraints with
  | false =>
    rw [supported] at eq
    simp only [Bool.false_eq_true, if_false, List.map_nil, List.append_nil] at eq
    rw [eq] at mem
    rcases List.mem_append.1 mem with mem | mem
    · rcases List.mem_append.1 mem with mem | mem
      · exact absurd (hb st mem) notOther
      · obtain ⟨-, p, hp, table, hk⟩ := table_of_mem_entityGroups mem hk
        exact ⟨p, hp, hk, .inl table, nofun⟩
    · exact absurd (ha st mem) notOther
  | true =>
    rw [supported, if_pos rfl, List.append_assoc] at eq
    -- the statements up to the last entity define no foreign keys here
    have apart : st ∉ before ++ (entityGroups opts s).flatten := by
      intro mem
      rcases List.mem_append.1 mem with mem | mem
      · exact notOther (hb st mem)
      · have := (table_of_mem_entityGroups mem hk).1
        rw [supported] at this
        cases this
    have first := isPrefix_of_append_cons (eq.symm.trans here) apart
    have alone : st ∈ (keyGroups s).flatten.map Statement.foreignKey := by
      rw [eq] at mem
      rcases List.mem_append.1 mem with mem | mem
      · exact absurd mem apart
      · rcases List.mem_append.1 mem with mem | mem
        · exact mem
        · exact absurd (ha st mem) notOther
    obtain ⟨k', hk', rfl⟩ := List.mem_map.1 alone
    obtain rfl := List.mem_singleton.1 hk
    obtain ⟨keys, hkeys, hk⟩ := List.mem_flatten.1 hk'
    have pairs : (s.entities.zip (keyGroups s)).map Prod.snd = keyGroups s :=
      List.map_snd_zip (length_keyGroups s).le
    rw [← pairs] at hkeys
    obtain ⟨p, hp, rfl⟩ := List.mem_map.1 hkeys
    refine ⟨p, hp, hk, .inr rfl, fun _ t ht => first.subset ?_⟩
    rw [mem_tables_iff, eq] at ht
    rcases List.mem_append.1 ht with ht | ht
    · exact ht
    · rcases List.mem_append.1 ht with ht | ht
      · obtain ⟨k', -, e⟩ := List.mem_map.1 ht
        cases e
      · cases (ha _ ht).1

end Places

end Ddl

namespace Compilation

open Ddl

/-! ### Foreign keys of accepted documents -/

/-- A foreign key of a script holds at its place. It is on a column of its own table, as the text of its
statement says, and points at the table of a block, which stands in front of it where constraints are
added later. The columns it names
are columns of that table; where the block has no key, it names the column `id`. What it names where
the key of the block is a list is left open. -/
structure ReferenceHolds (doc : Document) (out : Output) (front : List Statement) (st : Statement)
    (k : ForeignKey) : Prop where
  own : ∃ t ∈ out.tables, t.name = k.table ∧ (st = .table t ∨ st = .foreignKey k) ∧
    st.PutsOn out.dialect t.name k ∧ k.column ∈ t.columns.map (·.name)
  target : ∃ node ∈ doc.entities, ∃ t ∈ out.tables, node.name = k.target ∧ t.name = k.target ∧
    (out.dialect = .postgresql → .table t ∈ front) ∧
    if Check.reports (ofDocument doc).1 Diagnostic.noPrimaryKey node.name then k.columns = ["id"]
    else node.marksList = false →
      k.columns ≠ [] ∧ ∀ column ∈ k.columns, column ∈ t.columns.map (·.name)

section Accepted
variable {doc : Document} (reported : (ofDocument doc).2 = [])
  (checked : Diagnostic.hasErrors (Check.run (ofDocument doc).1) = false)
include reported checked

/-- The columns that a reference to an accepted block names. -/
lemma referencedColumns_of_accepted {id : Nat} {node : Document.Entity}
    (hn : (declaredEntities doc)[id]? = some node) (opts : Options) (keys : List ForeignKey) :
    if Check.reports (ofDocument doc).1 Diagnostic.noPrimaryKey node.name then
      referencedColumns (builtEntity doc id node) = ["id"]
    else node.marksList = false → referencedColumns (builtEntity doc id node) ≠ [] ∧
      ∀ column ∈ referencedColumns (builtEntity doc id node),
        column ∈ (tableOf opts (ofDocument doc).1 keys (builtEntity doc id node)).columns.map (·.name) := by
  have he := builtEntity_mem hn
  have nodup := field_names_nodup _ _ he
  have warned := Check.reports_noPrimaryKey_iff (entity_names_nodup doc) he
  rw [builtEntity, buildEntity_name, ← builtEntity, ← primaryKey_eq_nil_iff checked he] at warned
  rw [map_name_columns_tableOf, referencedColumns]
  simp only [warned, List.isEmpty_iff]
  split
  · rfl
  · next key =>
    intro unlisted
    have marked := (marked_isColumn_iff reported checked hn).2 unlisted
    refine ⟨key, fun column hc => ?_⟩
    exact (Entity.hasColumn_eq_true_iff nodup).1 (columns_of_primaryKey checked he nodup marked column hc)

variable {opts : Options} {out : Output} (generated : generate opts (ofDocument doc).1 = .ok out)
include generated

/-- Every foreign key of an accepted document holds. -/
lemma referenceHolds_of_accepted {front back : List Statement} {st : Statement}
    (here : out.statements = front ++ st :: back) {k : ForeignKey} (hk : k ∈ st.foreignKeys) :
    ReferenceHolds doc out front st k := by
  obtain ⟨⟨e, keys⟩, mem, own, stands, behind⟩ := exists_entity_of_mem_foreignKeys generated here hk
  obtain ⟨-, -, -, id, -, target, -, known, refers⟩ := refers_of_mem_keyGroups mem own
  have tables := tables_of_generate generated
  have text : st.PutsOn out.dialect e.name k := by
    rcases stands with rfl | rfl
    · exact Statement.putsOn_of_mem_foreignKeys _ hk
    · have added := (Statement.spelled out.dialect (.foreignKey k)).keys (k.table, k) List.mem_cons_self
      exact refers.table_eq ▸ added
  constructor
  · refine ⟨tableOf opts (ofDocument doc).1 keys e, ?_, refers.table_eq.symm, stands, text, ?_⟩
    · rw [tables]
      exact List.mem_map_of_mem mem
    · rw [map_name_columns_tableOf]
      exact refers.column_mem
  · -- the block of the target and the table at the same position
    obtain ⟨node, hn, rfl⟩ : ∃ node, (declaredEntities doc)[id]? = some node ∧
        builtEntity doc id node = target := by
      rw [entity?, entities_ofDocument, List.getElem?_mapIdx, Option.map_eq_some_iff] at known
      exact known
    have lt : id < (keyGroups (ofDocument doc).1).length := by
      rw [length_keyGroups]
      exact (List.getElem?_eq_some_iff.1 known).1
    have pair : (builtEntity doc id node, (keyGroups (ofDocument doc).1)[id]) ∈
        (ofDocument doc).1.entities.zip (keyGroups (ofDocument doc).1) := by
      refine List.mem_of_getElem? (i := id) ?_
      rw [List.getElem?_zip_eq_some]
      exact ⟨known, List.getElem?_eq_getElem lt⟩
    have table : tableOf opts (ofDocument doc).1 (keyGroups (ofDocument doc).1)[id]
        (builtEntity doc id node) ∈ out.tables := by
      rw [tables]
      exact List.mem_map_of_mem pair
    refine ⟨node, ?_, _, table, ?_, refers.target_eq.symm, ?_, ?_⟩
    · rw [← declaredEntities_of_snd_eq_nil reported]
      exact List.mem_of_getElem? hn
    · rw [refers.target_eq, builtEntity, buildEntity_name]
    · intro dialect
      refine behind ?_ _ table
      rw [← dialect_of_generate generated, dialect]
      rfl
    · rw [refers.columns_eq]
      exact referencedColumns_of_accepted reported checked hn _ _

end Accepted

/-- The foreign keys of a document without errors point at something that exists: each is on a column
of its own table and points at a table of the script, in PostgreSQL one in front of it, and at columns
of that table, unless the block of the table has no key. -/
theorem references_hold {path : String} {src : List UInt8} {o : CompileOptions}
    (accepted : (run path src o).valid = true) :
    ∃ out, (run path src o).output = some out ∧ out.dialect = o.dialect ∧
      (out.tables.map (·.name)).Nodup ∧
      ∀ front st back, out.statements = front ++ st :: back → ∀ k ∈ st.foreignKeys,
        ReferenceHolds (document path src o) out front st k := by
  obtain ⟨out, output, generated⟩ := exists_output_of_valid accepted
  have reported := ofDocument_snd_eq_nil accepted
  have checked := check_of_valid accepted
  rw [run_schema] at generated checked
  refine ⟨out, output, dialect_of_generate generated, ?_, ?_⟩
  · rw [map_name_tables_of_generate generated]
    exact entity_names_nodup _
  · intro front st back here k hk
    exact referenceHolds_of_accepted reported checked generated here hk

/-- Blocks that refer to a key in a column, to a composite key and to a block without key. -/
def notebook : List UInt8 :=
  Text.bytes (":Team\n  INT $.id PK\n:Member\n  INT $.team FK\n  INT $.nr\n  PK(team, nr)\n" ++
    ":Note\n  Member $.member FK\n  TEXT $.text\n:Remark\n  INT $.note FK(Note)\n")

/-- The three foreign keys of the blocks hold. -/
theorem references_hold_of_notebook :
    (run "notebook.erd" notebook {}).valid = true ∧
      (run "notebook.erd" notebook {}).output.map
          (fun out => out.foreignKeys.map fun k => (k.place, k.target, k.columns)) =
        some [(("Member", "team"), "Team", ["id"]), (("Note", "member"), "Member", ["team", "nr"]),
          (("Remark", "note"), "Note", ["id"])] ∧
      ∃ out, (run "notebook.erd" notebook {}).output = some out ∧ out.dialect = .postgresql ∧
        (out.tables.map (·.name)).Nodup ∧
        ∀ front st back, out.statements = front ++ st :: back → ∀ k ∈ st.foreignKeys,
          ReferenceHolds (document "notebook.erd" notebook {}) out front st k := by
  have facts : (run "notebook.erd" notebook {}).valid = true ∧
      (run "notebook.erd" notebook {}).output.map
          (fun out => out.foreignKeys.map fun k => (k.place, k.target, k.columns)) =
        some [(("Member", "team"), "Team", ["id"]), (("Note", "member"), "Member", ["team", "nr"]),
          (("Remark", "note"), "Note", ["id"])] := by
    rw [run, analyse, notebook, read_bytes, String.toList_append]
    decide +kernel
  exact ⟨facts.1, facts.2, references_hold facts.1⟩

/-- A block that refers to a block without key and without the column `id`. -/
def untied : List UInt8 :=
  Text.bytes ":A\n  INT $.x\n:B\n  INT $.id PK\n  INT $.a FK(A)\n"

/-- The document has no errors, and yet its foreign key names a column that its target has not. -/
theorem references_dangle :
    (run "untied.erd" untied {}).valid = true ∧
      (run "untied.erd" untied {}).output.map
          (fun out => out.foreignKeys.map fun k => (k.place, k.target, k.columns)) =
        some [(("B", "a"), "A", ["id"])] ∧
      (run "untied.erd" untied {}).output.map
          (fun out => out.tables.map fun t => (t.name, t.columns.map (·.name))) =
        some [("A", ["x"]), ("B", ["id", "a"])] := by
  rw [run, analyse, untied, read_bytes]
  decide +kernel

end Compilation

end ErdSql
