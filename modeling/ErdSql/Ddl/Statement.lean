import ErdSql.Dialect
import ErdSql.Schema

/-!
# DDL statements

The statements that a schema gives rise to, by what they define. Their SQL text, their key within an
output and the feature that they need follow from that.
-/

namespace ErdSql.Ddl

/-- The type of a column, or of an element of a set. -/
inductive ElementType where
  /-- A type as the document writes it. -/
  | written (type : Schema.FieldType)
  /-- An enumeration type that the same output creates. -/
  | enum (name : String)
  /-- Text: for labels where there are no enumeration types, and for references whose key type is not
  known. -/
  | text
  deriving DecidableEq, Inhabited

/-- The SQL of an element type. -/
def ElementType.sql : ElementType → String
  | written t => t.text
  | enum name => Sql.name name
  | text => "TEXT"

/-- A column of a table. -/
structure Column where
  name : String
  element : ElementType
  isSet : Bool
  primaryKey : Bool
  unique : Bool
  notNull : Bool
  /-- The default as an SQL expression. -/
  default : Option String
  check : Option String
  /-- The labels that the column may hold, where there are no enumeration types. -/
  labels : Option (List String)
  deriving DecidableEq, Inhabited

/-- The SQL of the type of a column. -/
def Column.typeSql (d : Dialect) (c : Column) : String :=
  if c.isSet then d.setType c.element.sql else c.element.sql

/-- The SQL of a column definition. -/
def Column.sql (d : Dialect) (c : Column) : String :=
  Text.join " " ([Sql.name c.name, c.typeSql d] ++
    (if c.primaryKey then ["PRIMARY KEY"] else []) ++
    (if c.unique then ["UNIQUE"] else []) ++
    (if c.notNull then ["NOT NULL"] else []) ++
    (c.default.toList.map fun e => "DEFAULT " ++ e) ++
    (c.check.toList.map fun e => "CHECK (" ++ e ++ ")") ++
    (c.labels.toList.map fun ls => "CHECK (" ++ Sql.name c.name ++ " IN (" ++ d.stringList ls ++ "))"))

/-- A named foreign key of a table. -/
structure ForeignKey where
  name : String
  table : String
  column : String
  target : String
  columns : List String
  deriving DecidableEq, Inhabited

/-- The SQL of a foreign key behind the word `CONSTRAINT`. -/
def ForeignKey.sql (k : ForeignKey) : String :=
  k.name ++ " FOREIGN KEY (" ++ Sql.name k.column ++ ") REFERENCES " ++ Sql.name k.target ++ " (" ++
    Sql.nameList k.columns ++ ")"

/-- A definition in the list of a table. -/
inductive TableElement where
  | column (column : Column)
  | primaryKey (columns : List String)
  | unique (columns : List String)
  | check (expr : String)
  | foreignKey (key : ForeignKey)
  deriving DecidableEq, Inhabited

/-- The SQL of a definition. -/
def TableElement.sql (d : Dialect) : TableElement → String
  | column c => c.sql d
  | primaryKey columns => "PRIMARY KEY (" ++ Sql.nameList columns ++ ")"
  | unique columns => "UNIQUE (" ++ Sql.nameList columns ++ ")"
  | check expr => "CHECK (" ++ expr ++ ")"
  | foreignKey key => "CONSTRAINT " ++ key.sql

/-- How a table is partitioned. -/
structure PartitionBy where
  strategy : String
  columns : List String
  deriving DecidableEq, Inhabited

/-- The SQL of a partitioning. -/
def PartitionBy.sql (p : PartitionBy) : String :=
  "PARTITION BY " ++ p.strategy ++ " (" ++ Sql.nameList p.columns ++ ")"

/-- A table definition. -/
structure Table where
  ifNotExists : Bool
  name : String
  elements : List TableElement
  partition : Option PartitionBy
  deriving DecidableEq, Inhabited

/-- The words that guard a statement against what exists already. -/
def guardWords (ifNotExists : Bool) : String :=
  if ifNotExists then "IF NOT EXISTS " else ""

/-- The SQL of a table definition. -/
def Table.sql (d : Dialect) (t : Table) : String :=
  "CREATE TABLE " ++ guardWords t.ifNotExists ++ Sql.name t.name ++ " (" ++
    Text.join ", " (t.elements.map (·.sql d)) ++ ")" ++
    (match t.partition with
      | some p => " " ++ p.sql
      | none => "")

/-- What an audit trigger watches. -/
inductive AuditEvent where
  | created
  | updated
  deriving DecidableEq, Inhabited

/-- The word for an audit event. -/
def AuditEvent.word : AuditEvent → String
  | created => "created"
  | updated => "updated"

/-- The operation that an audit event follows. -/
def AuditEvent.operation : AuditEvent → String
  | created => "INSERT"
  | updated => "UPDATE"

/-- The kinds of statements. -/
inductive Kind where
  | extension
  | enum
  | table
  | partition
  | ttl
  | fullText
  | rowSecurity
  | policy
  | audit
  | softDelete
  | migration
  | foreignKey
  | index
  | view
  | trigger
  | plugin
  | distinctElements
  deriving DecidableEq, Inhabited

namespace Kind

/-- Every kind. -/
def all : List Kind :=
  [extension, enum, table, partition, ttl, fullText, rowSecurity, policy, audit, softDelete, migration,
    foreignKey, index, view, trigger, plugin, distinctElements]

/-- The name of a kind. -/
def name : Kind → String
  | extension => "extension"
  | enum => "enum"
  | table => "table"
  | partition => "partition"
  | ttl => "ttl"
  | fullText => "fts"
  | rowSecurity => "rls"
  | policy => "policy"
  | audit => "audit"
  | softDelete => "soft_delete"
  | migration => "migration"
  | foreignKey => "foreign_key"
  | index => "index"
  | view => "view"
  | trigger => "trigger"
  | plugin => "plugin"
  | distinctElements => "distinct_elements"

end Kind

/-- A statement of an output. -/
inductive Statement where
  | extension (name : String)
  | enum (name : String) (labels : List String)
  | table (table : Table)
  /-- The partitioning of a table, where the dialect has none. -/
  | partition (table : String) (by_ : PartitionBy)
  | expiry (table column interval : String)
  | search (ifNotExists : Bool) (name table method : String) (columns : List String)
  | security (table : String) (mode : SecurityMode)
  | policy (table : String) (policy : Policy)
  | audit (name table : String) (event : AuditEvent)
  | distinctElements (name table column : String)
  | softDelete (name table column : String)
  /-- SQL of the user's own that follows a table. -/
  | migration (table sql : String)
  | foreignKey (key : ForeignKey)
  | index (ifNotExists : Bool) (index : Document.Index)
  | view (ifNotExists : Bool) (view : Document.View)
  | trigger (trigger : Document.Trigger)
  /-- The SQL of a plugin for the `ordinal`-th block of its keyword. -/
  | plugin (keyword : String) (ordinal : Nat) (sql : String)
  deriving DecidableEq, Inhabited

namespace Statement

/-- The kind of a statement. -/
def kind : Statement → Kind
  | extension _ => .extension
  | enum _ _ => .enum
  | table _ => .table
  | partition _ _ => .partition
  | expiry _ _ _ => .ttl
  | search _ _ _ _ _ => .fullText
  | security _ _ => .rowSecurity
  | policy _ _ => .policy
  | audit _ _ _ => .audit
  | distinctElements _ _ _ => .distinctElements
  | softDelete _ _ _ => .softDelete
  | migration _ _ => .migration
  | foreignKey _ => .foreignKey
  | index _ _ => .index
  | view _ _ => .view
  | trigger _ => .trigger
  | plugin _ _ _ => .plugin

/-- The key that names a statement within an output. -/
def key : Statement → String
  | extension name => "extension:" ++ name
  | enum name _ => "type:" ++ name
  | table t => "table:" ++ t.name
  | partition owner _ => "partition:" ++ owner
  | expiry owner _ _ => "ttl:" ++ owner
  | search _ name _ _ _ => "index:" ++ name
  | security owner mode => "rls:" ++ owner ++ (if mode == .force then ":force" else "")
  | policy owner p => "policy:" ++ owner ++ "." ++ p.name
  | audit name _ _ => "trigger:" ++ name
  | distinctElements name _ _ => "trigger:" ++ name
  | softDelete name _ _ => "view:" ++ name
  | migration owner _ => "migration:" ++ owner
  | foreignKey k => "constraint:" ++ k.name
  | index _ i => "index:" ++ i.name
  | view _ v => "view:" ++ v.name
  | trigger t => "trigger:" ++ t.name
  | plugin keyword ordinal _ => "block:" ++ keyword ++ ":" ++ toString ordinal

/-- The entity that a statement belongs to; empty if there is none. -/
def entity : Statement → String
  | table t => t.name
  | partition owner _ => owner
  | expiry owner _ _ => owner
  | search _ _ owner _ _ => owner
  | security owner _ => owner
  | policy owner _ => owner
  | audit _ owner _ => owner
  | distinctElements _ owner _ => owner
  | softDelete _ owner _ => owner
  | migration owner _ => owner
  | foreignKey k => k.table
  | index _ i => i.table
  | _ => ""

/-- The feature without which a statement is only a comment. -/
def feature? : Statement → Option Feature
  | extension _ => some .extensions
  | partition _ _ => some .partitioning
  | expiry _ _ _ => some .tableComments
  | search _ _ _ _ _ => some .fullTextSearch
  | security _ _ => some .rowLevelSecurity
  | policy _ _ => some .rowLevelSecurity
  | audit _ _ _ => some .triggerProcedures
  | distinctElements _ _ _ => some .triggerProcedures
  | trigger _ => some .triggerProcedures
  | _ => none

/-- Whether a dialect lacks the feature that a statement needs. -/
def disabled (d : Dialect) (s : Statement) : Bool :=
  match s.feature? with
  | some f => !d.supports f
  | none => false

/-- The document that a full-text index covers: the column, or several columns with blanks between
them. -/
def searchDocument (columns : List String) : String :=
  match columns with
  | [column] => Sql.name column
  | _ => Text.join " || ' ' || " (columns.map fun c => "coalesce(" ++ Sql.name c ++ ", '')")

/-- A clause of a policy, left out when its text is empty. -/
def optionalClause (words text tail : String) : String :=
  if text == "" then "" else words ++ text ++ tail

/-- The SQL of a policy. -/
def policySql (owner : String) (p : Policy) : String :=
  "CREATE POLICY " ++ Sql.name p.name ++ " ON " ++ Sql.name owner ++
    optionalClause " FOR " p.command "" ++
    (if p.role == "" then "" else " TO " ++ Sql.name p.role) ++
    optionalClause " USING (" p.usingExpr ")" ++
    optionalClause " WITH CHECK (" p.withCheck ")"

/-- The SQL of an index. -/
def indexSql (ifNotExists : Bool) (i : Document.Index) : String :=
  let tail := Text.trim i.tail
  "CREATE " ++ (if i.unique then "UNIQUE " else "") ++ "INDEX " ++ guardWords ifNotExists ++
    Sql.name i.name ++ " ON " ++ Sql.name i.table ++ " (" ++ Sql.nameList i.columns ++ ")" ++
    (if tail == "" then "" else " " ++ tail)

/-- The SQL of a statement, without the semicolon that ends it. -/
def sql (d : Dialect) : Statement → String
  | extension name => "CREATE EXTENSION IF NOT EXISTS " ++ Sql.name name
  | enum name labels => "CREATE TYPE " ++ Sql.name name ++ " AS ENUM (" ++ d.stringList labels ++ ")"
  | table t => t.sql d
  | partition _ p => p.sql
  | expiry owner column interval =>
    "-- ttl: rows of " ++ owner ++ " expire " ++ interval ++ " after " ++ column ++
      "\nCOMMENT ON TABLE " ++ Sql.name owner ++ " IS " ++
      d.quoteString ("ttl: " ++ column ++ " + " ++ interval)
  | search ifNotExists name owner method columns =>
    "CREATE INDEX " ++ guardWords ifNotExists ++ name ++ " ON " ++ Sql.name owner ++ " USING " ++
      method ++ " (to_tsvector('simple', " ++ searchDocument columns ++ "))"
  | security owner mode =>
    "ALTER TABLE " ++ Sql.name owner ++ " " ++ mode.word ++ " ROW LEVEL SECURITY"
  | policy owner p => policySql owner p
  | audit name owner event =>
    "CREATE TRIGGER " ++ name ++ " BEFORE " ++ event.operation ++ " ON " ++ Sql.name owner ++
      " FOR EACH ROW EXECUTE PROCEDURE set_" ++ event.word ++ "_at()"
  | distinctElements name owner column =>
    "CREATE TRIGGER " ++ name ++ " BEFORE INSERT OR UPDATE ON " ++ Sql.name owner ++
      " FOR EACH ROW EXECUTE PROCEDURE check_distinct_elements(" ++ d.quoteString column ++ ")"
  | softDelete name owner column =>
    "CREATE VIEW " ++ name ++ " AS SELECT * FROM " ++ Sql.name owner ++ " WHERE " ++ Sql.name column ++
      " IS NULL"
  | migration _ sql => sql
  | foreignKey k => "ALTER TABLE " ++ Sql.name k.table ++ " ADD CONSTRAINT " ++ k.sql
  | index ifNotExists i => indexSql ifNotExists i
  | view ifNotExists v =>
    "CREATE " ++ (if d.supports .materializedViews then "MATERIALIZED VIEW " else "VIEW ") ++
      guardWords ifNotExists ++ Sql.name v.name ++ " AS " ++ Text.trim v.body
  | trigger t =>
    "CREATE TRIGGER " ++ Sql.name t.name ++ " " ++ Text.trim t.timing ++ " EXECUTE PROCEDURE " ++
      Text.trim t.procedure
  | plugin _ _ sql => sql

end Statement

end ErdSql.Ddl
