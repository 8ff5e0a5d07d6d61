import ErdSql.BaseType
import ErdSql.Diagnostic
import ErdSql.Document

/-!
# Schemas

The resolved model of a document. Entities and enumerations stand in order of declaration and refer
to each other by position, so a field may refer to a declaration further down.
-/

namespace ErdSql

namespace Schema

/-- What the type name of a field stands for. -/
inductive TypeBinding where
  | unresolved
  | base
  | enum (id : Nat)
  | entity (id : Nat)
  deriving DecidableEq, Inhabited

/-- The name of a binding. -/
def TypeBinding.name : TypeBinding → String
  | unresolved => "unresolved"
  | base => "base"
  | enum _ => "enum"
  | entity _ => "entity"

/-- The type of a field after resolution. -/
structure FieldType where
  name : String
  args : List Literal
  binding : TypeBinding
  span : Span
  deriving DecidableEq, Inhabited

/-- A type as written, with its arguments. -/
def FieldType.text (t : FieldType) : String :=
  if t.args.isEmpty then t.name
  else t.name ++ "(" ++ Text.join ", " (t.args.map (·.text)) ++ ")"

/-- The kinds of constraints. -/
inductive ConstraintKind where
  | primaryKey
  | compositeKey
  | unique
  | notNull
  | default
  | foreignKey
  | check
  deriving DecidableEq, Inhabited

/-- The name of a kind of constraint. -/
def ConstraintKind.name : ConstraintKind → String
  | primaryKey => "PK"
  | compositeKey => "PK(...)"
  | unique => "UNIQUE"
  | notNull => "NOT NULL"
  | default => "DEFAULT"
  | foreignKey => "FK"
  | check => "CHECK"

/-- What a field constraint says. A foreign key has the entity it refers to, if there is one, and the
name that was looked up. -/
inductive Clause where
  | primaryKey
  | unique
  | notNull
  | default (value : Literal)
  | foreignKey (target : Option Nat) (name : String)
  | check (expr : String)
  deriving DecidableEq, Inhabited

/-- The kind of a field constraint. -/
def Clause.kind : Clause → ConstraintKind
  | primaryKey => .primaryKey
  | unique => .unique
  | notNull => .notNull
  | default _ => .default
  | foreignKey _ _ => .foreignKey
  | check _ => .check

/-- A constraint of a field. -/
structure Constraint where
  clause : Clause
  span : Span
  deriving DecidableEq, Inhabited

/-- A field of an entity. -/
structure Field where
  name : String
  cardinality : Cardinality
  type : FieldType
  has : Bool
  constraints : List Constraint
  span : Span
  deriving DecidableEq, Inhabited

namespace Field

/-- Whether a field carries a constraint of a kind. -/
def carries (f : Field) (kind : ConstraintKind) : Bool :=
  f.constraints.any fun c => c.clause.kind == kind

/-- How many constraints of a kind a field carries. -/
def count (f : Field) (kind : ConstraintKind) : Nat :=
  f.constraints.countP fun c => c.clause.kind == kind

/-- The first constraint of a kind. -/
def constraint? (f : Field) (kind : ConstraintKind) : Option Constraint :=
  f.constraints.find? fun c => c.clause.kind == kind

/-- Whether a field becomes a column; list fields do not. -/
def isColumn (f : Field) : Bool :=
  f.cardinality != .list

/-- The first default of a field. -/
def default? (f : Field) : Option Literal :=
  match f.constraint? .default with
  | some ⟨.default v, _⟩ => some v
  | _ => none

/-- The first check of a field. -/
def check? (f : Field) : Option String :=
  match f.constraint? .check with
  | some ⟨.check e, _⟩ => some e
  | _ => none

/-- The entity that the first foreign key of a field refers to, with the place of the key. -/
def foreignKey? (f : Field) : Option (Nat × Span) :=
  match f.constraint? .foreignKey with
  | some ⟨.foreignKey (some target) _, span⟩ => some (target, span)
  | _ => none

end Field

/-- What a constraint of a whole entity says. -/
inductive EntityClause where
  | compositeKey (columns : List String)
  | unique (columns : List String)
  | check (expr : String)
  deriving DecidableEq, Inhabited

/-- The kind of an entity constraint. -/
def EntityClause.kind : EntityClause → ConstraintKind
  | compositeKey _ => .compositeKey
  | unique _ => .unique
  | check _ => .check

/-- The columns that an entity constraint lists. -/
def EntityClause.columns : EntityClause → List String
  | compositeKey columns => columns
  | unique columns => columns
  | check _ => []

/-- A constraint of a whole entity. -/
structure EntityConstraint where
  clause : EntityClause
  span : Span
  deriving DecidableEq, Inhabited

/-- How a table is partitioned. -/
structure Partition where
  strategy : String
  columns : List String
  span : Span
  deriving DecidableEq, Inhabited

/-- When rows expire. -/
structure Expiry where
  column : String
  interval : Literal
  span : Span
  deriving DecidableEq, Inhabited

/-- A full-text search index. -/
structure Search where
  columns : List String
  method : String
  span : Span
  deriving DecidableEq, Inhabited

/-- Row-level security of a table. -/
structure Security where
  mode : SecurityMode
  span : Span
  deriving DecidableEq, Inhabited

/-- A policy with its place. -/
structure PolicyLine where
  policy : Policy
  span : Span
  deriving DecidableEq, Inhabited

/-- The field whose `NULL` marks a live row. -/
structure SoftDelete where
  field : String
  span : Span
  deriving DecidableEq, Inhabited

/-- A declared table. -/
structure Entity where
  id : Nat
  name : String
  fields : List Field
  constraints : List EntityConstraint
  partition : Option Partition
  ttl : Option Expiry
  fts : List Search
  rls : Option Security
  policies : List PolicyLine
  auditable : Bool
  softDelete : Option SoftDelete
  span : Span
  deriving DecidableEq, Inhabited

namespace Entity

/-- The field of a name. -/
def field? (e : Entity) (name : String) : Option Field :=
  e.fields.find? fun f => f.name == name

/-- Whether an entity has a column of a name. -/
def hasColumn (e : Entity) (name : String) : Bool :=
  match e.field? name with
  | some f => f.isColumn
  | none => false

/-- The columns of the composite primary key. -/
def compositeKey? (e : Entity) : Option (List String) :=
  e.constraints.findSome? fun c =>
    match c.clause with
    | .compositeKey columns => some columns
    | _ => none

/-- The columns of the primary key: the composite key if there is one, else the first field marked as
key; none without a key. -/
def primaryKey (e : Entity) : List String :=
  match e.compositeKey? with
  | some columns => columns
  | none =>
    match e.fields.find? (·.carries .primaryKey) with
    | some f => [f.name]
    | none => []

end Entity

/-- A declared enumeration. -/
structure Enum where
  id : Nat
  name : String
  variants : List Document.Variant
  span : Span
  deriving DecidableEq, Inhabited

/-- The labels of an enumeration. -/
def Enum.labels (e : Enum) : List String :=
  e.variants.map (·.name)

/-- Whether a text is a label of an enumeration. -/
def Enum.hasVariant (e : Enum) (label : String) : Bool :=
  e.labels.contains label

/-- An index and the entity that it is on, if that is declared. -/
structure Index where
  index : Document.Index
  entity : Option Nat
  deriving DecidableEq, Inhabited

/-- What an unresolved name should have been. -/
inductive ReferenceKind where
  | foreignKey
  | type
  deriving DecidableEq, Inhabited

/-- A name that no declaration has. -/
structure Unresolved where
  kind : ReferenceKind
  entity : String
  field : String
  name : String
  span : Span
  deriving DecidableEq, Inhabited

end Schema

/-- The resolved model of a document. -/
structure Schema where
  path : String
  entities : List Schema.Entity
  enums : List Schema.Enum
  indexes : List Schema.Index
  views : List Document.View
  triggers : List Document.Trigger
  extensions : List Document.Extension
  blocks : List Document.Block
  unresolved : List Schema.Unresolved
  deriving DecidableEq, Inhabited

namespace Schema

/-- The position of the entity of a name. -/
def lookupEntity (s : Schema) (name : String) : Option Nat :=
  s.entities.findIdx? fun e => e.name == name

/-- The position of the enumeration of a name. -/
def lookupEnum (s : Schema) (name : String) : Option Nat :=
  s.enums.findIdx? fun e => e.name == name

/-- The entity at a position. -/
def entity? (s : Schema) (id : Nat) : Option Entity := s.entities[id]?

/-- The enumeration at a position. -/
def enum? (s : Schema) (id : Nat) : Option Enum := s.enums[id]?

/-- The entity of a name. -/
def entityNamed? (s : Schema) (name : String) : Option Entity :=
  s.entities.find? fun e => e.name == name

/-- The enumeration that types a field. -/
def enumOf? (s : Schema) (f : Field) : Option Enum :=
  match f.type.binding with
  | .enum id => s.enum? id
  | _ => none

end Schema

end ErdSql
