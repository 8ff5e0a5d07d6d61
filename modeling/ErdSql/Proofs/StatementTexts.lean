import ErdSql.Proofs.Statements

/-!
# Texts of statements

What the SQL text of a statement says of the foreign keys that it defines, of the elements that it keeps
apart and of the table that it creates.

* `Statement.spelled`: foreign keys and triggers for distinct elements.
* `sql_tableOf`: the definitions of a table, one group behind another.

Other modules give a foreign key the table that its statement is about. By the results here that table is
the one in the text, whatever the record of the key says.
-/

namespace ErdSql.Ddl

/-! ### Foreign keys -/

/-- The clause that defines a foreign key. -/
def ForeignKey.clause (k : ForeignKey) : String :=
  "CONSTRAINT " ++ k.name ++ " FOREIGN KEY (" ++ Sql.name k.column ++ ") REFERENCES " ++
    Sql.name k.target ++ " (" ++ Sql.nameList k.columns ++ ")"

lemma ForeignKey.clause_eq (k : ForeignKey) : k.clause = "CONSTRAINT " ++ k.sql := by
  unfold clause sql
  simp only [String.append_assoc]

/-- The SQL of a table with other definitions. -/
def Table.sqlWith (t : Table) (definitions : List String) : String :=
  "CREATE TABLE " ++ guardWords t.ifNotExists ++ Sql.name t.name ++ " (" ++
    Text.join ", " definitions ++ ")" ++
    (match t.partition with
      | some p => " " ++ p.sql
      | none => "")

namespace Statement

/-- The text of a statement puts a foreign key on a table: it adds the clause of the key to the table, or
it creates the table and has the clause among the definitions. -/
inductive PutsOn (d : Dialect) (st : Statement) (table : String) (k : ForeignKey) : Prop where
  | added (text : st.sql d = "ALTER TABLE " ++ Sql.name table ++ " ADD " ++ k.clause)
  | within (t : Table) (name : t.name = table) (front back : List String)
    (text : st.sql d = t.sqlWith (front ++ k.clause :: back))

/-- The text of a statement makes a trigger that keeps the elements of a column apart. -/
def KeepsApart (d : Dialect) (st : Statement) (table column : String) : Prop :=
  ∃ name, st.sql d = "CREATE TRIGGER " ++ name ++ " BEFORE INSERT OR UPDATE ON " ++ Sql.name table ++
    " FOR EACH ROW EXECUTE PROCEDURE check_distinct_elements(" ++ d.quoteString column ++ ")"

/-- The text of a statement says what the statement defines. -/
structure Spelled (d : Dialect) (st : Statement) : Prop where
  keys : ∀ p ∈ st.placedKeys, st.PutsOn d p.1 p.2
  distinct : ∀ table column, st.distinctPlace? = some (table, column) → st.KeepsApart d table column

/-- The foreign keys of a table have their clauses among its definitions. -/
lemma putsOn_of_mem_foreignKeys (d : Dialect) {t : Table} {k : ForeignKey} (hk : k ∈ t.foreignKeys) :
    (table t).PutsOn d t.name k := by
  obtain ⟨element, mem, found⟩ := List.mem_filterMap.1 hk
  cases element <;> cases found
  obtain ⟨front, back, split⟩ := List.append_of_mem mem
  refine .within t rfl (front.map (·.sql d)) (back.map (·.sql d)) ?_
  have text : (table t).sql d = t.sqlWith (t.elements.map (·.sql d)) := rfl
  rw [text, split, List.map_append, List.map_cons, k.clause_eq]
  rfl

/-- Every statement says what it defines. -/
lemma spelled (d : Dialect) (st : Statement) : st.Spelled d := by
  constructor
  · intro p hp
    cases st with
    | table t =>
      obtain ⟨k, hk, rfl⟩ := List.mem_map.1 hp
      exact putsOn_of_mem_foreignKeys d hk
    | foreignKey k =>
      obtain rfl := List.mem_singleton.1 hp
      refine .added ?_
      have words : " ADD " ++ ("CONSTRAINT " ++ k.sql) = " ADD CONSTRAINT " ++ k.sql :=
        String.append_assoc.symm
      rw [k.clause_eq, String.append_assoc, words]
      exact String.append_assoc
    | _ => cases hp
  · intro owner column place
    cases st <;> cases place
    exact ⟨_, rfl⟩

end Statement

/-! ### Tables -/

/-- The definitions of keys and checks behind the columns of a table. -/
def keyTexts (primaryKeys uniques : List (List String)) (checks : List String) : List String :=
  (primaryKeys.map fun columns => "PRIMARY KEY (" ++ Sql.nameList columns ++ ")") ++
    (uniques.map fun columns => "UNIQUE (" ++ Sql.nameList columns ++ ")") ++
    (checks.map fun e => "CHECK (" ++ e ++ ")")

/-- The definitions of the table of an entity are its columns, its keys and checks, and its foreign keys. -/
lemma sql_tableOf (opts : Options) (s : Schema) (keys : List ForeignKey) (e : Schema.Entity) (d : Dialect) :
    let t := tableOf opts s keys e
    t.sql d = t.sqlWith (t.columns.map (·.sql d) ++ keyTexts t.primaryKeys t.uniques t.checks ++
      t.foreignKeys.map ForeignKey.clause) := by
  intro t
  obtain ⟨columns, primaryKeys, uniques, checks, foreignKeys⟩ := tableOf_views opts s keys e
  have clauses (ks : List ForeignKey) :
      ks.map ForeignKey.clause = (ks.map TableElement.foreignKey).map (·.sql d) := by
    rw [List.map_map]
    exact List.map_congr_left fun k _ => k.clause_eq
  refine congrArg t.sqlWith ?_
  rw [columns, primaryKeys, uniques, checks, foreignKeys, clauses, keyTexts]
  have grouped : t.elements = tableElements opts.dialect s keys e := rfl
  rw [grouped, tableElements_eq]
  simp only [List.map_append, List.map_map, List.append_assoc]
  rfl

end ErdSql.Ddl
