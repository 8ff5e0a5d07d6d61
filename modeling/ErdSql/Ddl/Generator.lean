import ErdSql.Ddl.NameTable
import ErdSql.Ddl.Output
import ErdSql.Overlay

/-!
# Generation

The statements of a schema in a fixed order: extensions, enumeration types, the block of each entity,
foreign keys, then indexes, views and triggers in source order, and last the plugin blocks. It works
on any schema: names that were not resolved are written as they are, and foreign keys without target
are left out. Only a plugin can make it fail.
-/

namespace ErdSql.Ddl

open Schema

/-- How statements are generated. -/
structure Options where
  dialect : Dialect := .postgresql
  /-- Whether tables, indexes and views are guarded by `IF NOT EXISTS`. -/
  ifNotExists : Bool := false
  overlay : Overlay := Overlay.empty
  plugins : Plugin.Registry := Plugin.Registry.empty
  header : String := ""

/-- Why generation failed. -/
inductive GenerateError where
  | missingPlugin (keyword : String) (line : Int)
  | refused (keyword : String) (line : Int) (reason : String)
  deriving DecidableEq, Inhabited

/-- The wording of a failure. -/
def GenerateError.message : GenerateError → String
  | missingPlugin keyword line =>
    "codegen: no plugin registered for " ++ keyword ++ " block at line " ++ toString line
  | refused keyword line reason =>
    "codegen: " ++ keyword ++ " block at line " ++ toString line ++ ": " ++ reason

/-! ### Columns -/

/-- The element type of a scalar or set field. A field of entity type has the type of the key that it
refers to, which may be of entity type itself; `fuel` bounds the length of such a chain. -/
def elementType (d : Dialect) (s : Schema) : Nat → Field → ElementType
  | fuel, f =>
    match f.type.binding with
    | .enum _ => if d.supports .enumTypes then .enum f.type.name else .text
    | .entity id =>
      match fuel with
      | 0 => .text
      | fuel + 1 =>
        match s.entity? id with
        | none => .text
        | some target =>
          match target.field? (target.primaryKey.head?.getD "id") with
          | none => .text
          | some key => if key.cardinality == .scalar then elementType d s fuel key else .text
    | _ => .written f.type

/-- The items of a list literal in the form of an array. -/
def listDefault (d : Dialect) (text : String) : String :=
  if !d.supports .arrays then d.quoteString text
  else
    let inner := match text.toList with
      | '[' :: rest => rest
      | cs => cs
    let inner := match inner.getLast? with
      | some ']' => inner.dropLast
      | _ => inner
    let inner := Text.trimChars inner
    if inner.isEmpty then "'\x7b\x7d'" else "ARRAY[" ++ String.ofList inner ++ "]"

/-- The SQL expression of a default. Single-quoted strings are kept as written; a name that is a label
of the field's enumeration becomes a string. -/
def defaultExpr (d : Dialect) (s : Schema) (f : Field) (v : Literal) : String :=
  match v.kind with
  | .string => if v.isDoubleQuoted then d.quoteString v.value else v.text
  | .call => d.callDefault v.text
  | .identifier =>
    match s.enumOf? f with
    | some e => if e.hasVariant v.text then d.quoteString v.text else v.text
    | none => v.text
  | .list => listDefault d v.text
  | .null => "NULL"
  | .number => v.text

/-- The column of a field. The uniqueness of a set concerns its elements and is left to a trigger. -/
def column (d : Dialect) (s : Schema) (inlineKey : Option String) (f : Field) : Column where
  name := f.name
  element := elementType d s (s.entities.length + 1) f
  isSet := f.cardinality == .set
  primaryKey := inlineKey == some f.name
  unique := f.carries .unique && f.cardinality != .set
  notNull := f.carries .notNull
  default := f.default?.map (defaultExpr d s f)
  check := f.check?
  labels :=
    if f.cardinality == .scalar && !d.supports .enumTypes then (s.enumOf? f).map (·.labels) else none

/-! ### Tables -/

/-- The field whose column carries the primary key itself: there is one if there is no composite
key. -/
def inlineKey? (e : Entity) : Option String :=
  match e.compositeKey? with
  | some _ => none
  | none => e.primaryKey.head?

/-- How an entity is partitioned, by the overlay if it says so and else by the document. An empty
strategy stands for no partitioning. -/
def partitionOf (o : Overlay) (e : Entity) : Option PartitionBy :=
  let given : Option PartitionBy := match (o.entity? e.name).bind (·.partitions) with
    | some p => some ⟨Text.upper p.strategy, p.columns⟩
    | none => e.partition.map fun p => ⟨p.strategy, p.columns⟩
  given.filter fun p => p.strategy != ""

/-- The definitions of a table: columns, keys, checks and, where constraints cannot be added later,
foreign keys. -/
def tableElements (d : Dialect) (s : Schema) (keys : List ForeignKey) (e : Entity) :
    List TableElement :=
  ((e.fields.filter (·.isColumn)).map fun f => .column (column d s (inlineKey? e) f)) ++
    (e.compositeKey?.toList.map .primaryKey) ++
    (e.constraints.filterMap fun c =>
      match c.clause with
      | .unique columns => some (.unique columns)
      | _ => none) ++
    (e.constraints.filterMap fun c =>
      match c.clause with
      | .check expr => some (.check expr)
      | _ => none) ++
    (if d.supports .alterConstraints then [] else keys.map .foreignKey)

/-- The table of an entity, and its partitioning as a statement of its own where the dialect has
none. -/
def tableStatements (opts : Options) (s : Schema) (keys : List ForeignKey) (e : Entity) :
    List Statement :=
  let partition := partitionOf opts.overlay e
  let elements := tableElements opts.dialect s keys e
  if opts.dialect.supports .partitioning then
    [.table ⟨opts.ifNotExists, e.name, elements, partition⟩]
  else .table ⟨opts.ifNotExists, e.name, elements, none⟩ ::
    partition.toList.map (.partition e.name)

/-! ### Entities -/

/-- The named foreign keys of the columns of an entity that refer to an entity. -/
def collectForeignKeys (s : Schema) (e : Entity) : StateM NameTable (List ForeignKey) :=
  (e.fields.filterMap fun f =>
    match f.foreignKey? with
    | some (id, _) =>
      if f.isColumn then (s.entity? id).map fun target => (f.name, target) else none
    | none => none).mapM fun (field, target) => do
      let name ← claimName ["fk", e.name, field]
      let columns := if target.primaryKey.isEmpty then ["id"] else target.primaryKey
      return ⟨name, e.name, field, target.name, columns⟩

/-- A trigger for every unique set, which keeps its elements apart. -/
def distinctStatements (e : Entity) : StateM NameTable (List Statement) :=
  (e.fields.filter fun f => f.cardinality == .set && f.carries .unique).mapM fun f => do
    let name ← claimName [e.name, f.name, "distinct"]
    return .distinctElements name e.name f.name

/-- The full-text indexes of an entity. -/
def searchStatements (opts : Options) (e : Entity) : StateM NameTable (List Statement) :=
  e.fts.zipIdx.mapM fun (f, i) => do
    let name ← claimName [e.name, "fts", toString (i + 1)]
    return .search opts.ifNotExists name e.name f.method f.columns

/-- The row-level security of an entity, by the overlay if it says so and else by the document. -/
def securityOf (o : Overlay) (e : Entity) : Option SecurityMode :=
  match (o.entity? e.name).bind (·.rls) with
  | some true => some .enable
  | some false => none
  | none => e.rls.map (·.mode)

/-- The statements of row-level security; it must be enabled before it can be forced. -/
def securityStatements (o : Overlay) (e : Entity) : List Statement :=
  match securityOf o e with
  | none => []
  | some .force => [.security e.name .enable, .security e.name .force]
  | some mode => [.security e.name mode]

/-- The audit triggers of an entity. -/
def auditStatements (e : Entity) : StateM NameTable (List Statement) :=
  (if e.auditable then [AuditEvent.created, .updated] else []).mapM fun event => do
    let name ← claimName [e.name, "set", event.word, "at"]
    return .audit name e.name event

/-- The view of the live rows of an entity. -/
def softDeleteStatements (e : Entity) : StateM NameTable (List Statement) :=
  e.softDelete.toList.mapM fun sd => do
    let name ← claimName [e.name, "active"]
    return .softDelete name e.name sd.field

/-- The SQL that the overlay adds behind an entity. -/
def migrationStatements (o : Overlay) (e : Entity) : List Statement :=
  match o.entity? e.name with
  | some side => if Text.isBlank side.post then [] else [.migration e.name (Text.trim side.post)]
  | none => []

/-- All statements of an entity. -/
def entityStatements (opts : Options) (s : Schema) (e : Entity) (keys : List ForeignKey) :
    StateM NameTable (List Statement) := do
  let distinct ← distinctStatements e
  let search ← searchStatements opts e
  let audit ← auditStatements e
  let soft ← softDeleteStatements e
  return tableStatements opts s keys e ++ distinct ++
    (e.ttl.toList.map fun t => .expiry e.name t.column t.interval.value) ++ search ++
    securityStatements opts.overlay e ++ (e.policies.map fun p => .policy e.name p.policy) ++ audit ++
    soft ++ migrationStatements opts.overlay e

/-! ### The rest -/

/-- Indexes, views and triggers in the order of their lines in the document. -/
def sourceStatements (opts : Options) (s : Schema) : List Statement :=
  let placed :=
    (s.indexes.map fun i => (i.index.span.startLine, Statement.index opts.ifNotExists i.index)) ++
      (s.views.map fun v => (v.span.startLine, Statement.view opts.ifNotExists v)) ++
      (s.triggers.map fun t => (t.span.startLine, Statement.trigger t))
  (placed.mergeSort fun a b => a.1 ≤ b.1).map (·.2)

/-- The statements of plugin blocks. The blocks of each keyword are counted; one that gives no SQL
counts but gives no statement. -/
def blockStatements (plugins : Plugin.Registry) (seen : List String) :
    List Document.Block → Except GenerateError (List Statement)
  | [] => .ok []
  | b :: bs => do
    let keyword := b.block.keyword
    let line := b.block.span.startLine
    match plugins.lookup keyword with
    | none => throw (.missingPlugin keyword line)
    | some handler =>
      match handler.emit b.block b.node with
      | .error reason => throw (.refused keyword line reason)
      | .ok sql =>
        let seen := keyword :: seen
        let rest ← blockStatements plugins seen bs
        if Text.isBlank sql then return rest
        else return .plugin keyword (seen.count keyword) (Text.trim sql) :: rest

/-- The statements of a schema but for plugin blocks. -/
def schemaStatements (opts : Options) (s : Schema) : List Statement :=
  let (keys, names) := (s.entities.mapM (collectForeignKeys s)).run NameTable.empty
  let (blocks, _) :=
    ((s.entities.zip keys).mapM fun (e, ks) => entityStatements opts s e ks).run names
  (s.extensions.map fun x => .extension x.name) ++
    (if opts.dialect.supports .enumTypes then s.enums.map fun e => .enum e.name e.labels else []) ++
    blocks.flatten ++
    (if opts.dialect.supports .alterConstraints then keys.flatten.map .foreignKey else []) ++
    sourceStatements opts s

/-- The output of a schema. -/
def generate (opts : Options) (s : Schema) : Except GenerateError Output := do
  let blocks ← blockStatements opts.plugins [] s.blocks
  return ⟨opts.dialect, opts.header, schemaStatements opts s ++ blocks⟩

end ErdSql.Ddl
