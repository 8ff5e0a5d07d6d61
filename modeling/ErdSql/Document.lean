import ErdSql.Plugin

/-!
# Documents

The statements of a document as they were written. Names are not resolved yet, and repeated
constraints are kept, so that later stages can report them.
-/

namespace ErdSql

/-- What a literal is. -/
inductive Literal.Kind where
  | number
  | string
  | identifier
  | call
  | list
  | null
  deriving DecidableEq, Inhabited

/-- The name of a kind of literal. -/
def Literal.Kind.name : Literal.Kind → String
  | number => "number"
  | string => "string"
  | identifier => "identifier"
  | call => "call"
  | list => "list"
  | null => "null"

/-- A constant as written: strings keep their quotes, calls their arguments. -/
structure Literal where
  kind : Literal.Kind
  text : String
  span : Span
  deriving DecidableEq, Inhabited

/-- The value of a string literal, and the text of any other one. -/
def Literal.value (l : Literal) : String :=
  if l.kind == .string then Token.unquote l.text else l.text

/-- Whether a literal is a string in double quotes. -/
def Literal.isDoubleQuoted (l : Literal) : Bool :=
  l.kind == .string && l.text.toList.head? == some '"'

/-- How row-level security of a table is set. -/
inductive SecurityMode where
  | enable
  | disable
  | force
  deriving DecidableEq, Inhabited

/-- The word for a mode. -/
def SecurityMode.word : SecurityMode → String
  | enable => "ENABLE"
  | disable => "DISABLE"
  | force => "FORCE"

/-- The mode that a word names, in any case. -/
def SecurityMode.ofText? (s : String) : Option SecurityMode :=
  [enable, disable, force].find? fun m => m.word == Text.upper s

/-- A row-level security policy; an empty text stands for a clause that was not written. -/
structure Policy where
  name : String
  command : String
  role : String
  usingExpr : String
  withCheck : String
  deriving DecidableEq, Inhabited

namespace Document

/-- The type of a field as written. -/
structure TypeRef where
  name : String
  args : List Literal
  span : Span
  deriving DecidableEq, Inhabited

/-- What a field constraint says. -/
inductive Clause where
  | primaryKey
  | unique
  | notNull
  | default (value : Literal)
  | foreignKey (target : Option String)
  | check (expr : String)
  deriving DecidableEq, Inhabited

/-- The name of a field constraint. -/
def Clause.name : Clause → String
  | primaryKey => "PK"
  | unique => "UNIQUE"
  | notNull => "NOT NULL"
  | default _ => "DEFAULT"
  | foreignKey _ => "FK"
  | check _ => "CHECK"

/-- A constraint behind a field name. -/
structure Constraint where
  clause : Clause
  span : Span
  deriving DecidableEq, Inhabited

/-- A field line. -/
structure Field where
  has : Bool
  type : TypeRef
  cardinality : Cardinality
  name : String
  constraints : List Constraint
  span : Span
  deriving DecidableEq, Inhabited

/-- What a key line says. -/
inductive Key where
  | primary (columns : List String)
  | unique (columns : List String)
  | check (expr : String)
  deriving DecidableEq, Inhabited

/-- A line `PK(...)`, `UNIQUE(...)` or `CHECK (...)` of an entity. -/
structure KeyLine where
  key : Key
  span : Span
  deriving DecidableEq, Inhabited

/-- What a feature line says. -/
inductive Feature where
  | partition (strategy : String) (columns : List String)
  | ttl (column : String) (interval : Literal)
  | fts (columns : List String) (method : String)
  | rls (mode : SecurityMode)
  | policy (policy : Policy)
  | auditable
  | softDelete (column : String)
  deriving DecidableEq, Inhabited

/-- The keyword of a feature line. -/
def Feature.name : Feature → String
  | partition _ _ => "PARTITION"
  | ttl _ _ => "TTL"
  | fts _ _ => "FTS"
  | rls _ => "RLS"
  | policy _ => "POLICY"
  | auditable => "AUDITABLE"
  | softDelete _ => "SOFT_DELETE"

/-- A line of an entity that asks for a feature. -/
structure Directive where
  feature : Feature
  span : Span
  deriving DecidableEq, Inhabited

/-- An entity block. -/
structure Entity where
  name : String
  nameSpan : Span
  fields : List Field
  keys : List KeyLine
  directives : List Directive
  span : Span
  deriving DecidableEq, Inhabited

/-- A label of an enumeration. -/
structure Variant where
  name : String
  span : Span
  deriving DecidableEq, Inhabited

/-- The declaration of an enumeration. -/
structure Enum where
  name : String
  variants : List Variant
  span : Span
  deriving DecidableEq, Inhabited

/-- An index statement; the tail is kept as written. -/
structure Index where
  name : String
  unique : Bool
  table : String
  columns : List String
  tail : String
  span : Span
  deriving DecidableEq, Inhabited

/-- A materialized view statement; the query is kept as written. -/
structure View where
  name : String
  body : String
  span : Span
  deriving DecidableEq, Inhabited

/-- A trigger statement; what stands before and after `EXECUTE PROCEDURE` is kept as written. -/
structure Trigger where
  name : String
  timing : String
  procedure : String
  span : Span
  deriving DecidableEq, Inhabited

/-- An extension statement. -/
structure Extension where
  name : String
  span : Span
  deriving DecidableEq, Inhabited

/-- A plugin statement and what its handler made of it. -/
structure Block where
  block : Plugin.Block
  node : String
  deriving DecidableEq, Inhabited

/-- A top-level statement. -/
inductive Statement where
  | entity (entity : Entity)
  | enum (enum : Enum)
  | index (index : Index)
  | view (view : View)
  | trigger (trigger : Trigger)
  | extension (extension : Extension)
  | block (block : Block)
  deriving DecidableEq, Inhabited

end Document

/-- A document: where it came from and its statements in order. -/
structure Document where
  path : String
  statements : List Document.Statement
  deriving DecidableEq, Inhabited

end ErdSql
