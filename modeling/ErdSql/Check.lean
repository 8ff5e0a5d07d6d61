import ErdSql.Check.Balance
import ErdSql.Check.Default
import ErdSql.Schema

/-!
# Checks

The rules that a schema must keep. Every rule is checked, in a fixed order, and each reports all that
it finds.
-/

namespace ErdSql.Check

open Schema

/-- An error of a rule. -/
def fault (s : Schema) (code message : String) (span : Span) : Diagnostic :=
  Diagnostic.make .error code message (span.location s.path)

/-- A warning of a rule. -/
def caution (s : Schema) (code message : String) (span : Span) : Diagnostic :=
  Diagnostic.make .warning code message (span.location s.path)

/-- What a rule finds in every field of a schema. -/
def perField (s : Schema) (rule : Entity → Field → List Diagnostic) : List Diagnostic :=
  s.entities.flatMap fun e => e.fields.flatMap (rule e)

/-- Number of primary keys of an entity: its composite key, and every marked field outside it. -/
def primaryKeyCount (e : Entity) : Nat :=
  let composite := e.compositeKey?
  let outside := e.fields.countP fun f =>
    f.carries .primaryKey && !(composite.getD []).contains f.name
  composite.toList.length + outside

/-- An entity has one primary key; to have none is a warning, to have more an error. -/
def primaryKeys (s : Schema) : List Diagnostic :=
  s.entities.flatMap fun e =>
    match primaryKeyCount e with
    | 0 =>
      [(caution s Diagnostic.noPrimaryKey ("entity " ++ e.name ++ " has no primary key") e.span)
        |>.inEntity e.name]
    | 1 => []
    | n =>
      [(fault s Diagnostic.multiplePrimaryKeys
        ("entity " ++ e.name ++ " declares " ++ toString n ++ " primary key constructs") e.span)
        |>.inEntity e.name |>.withNote "use one PK field or a single PK(...) line"]

/-- The finding for an unresolved name of a kind. -/
def unresolvedNames (s : Schema) (kind : ReferenceKind) (code : String)
    (message : Unresolved → String) : List Diagnostic :=
  (s.unresolved.filter (·.kind == kind)).map fun u =>
    (fault s code ("field " ++ u.entity ++ "." ++ u.field ++ ": " ++ message u) u.span)
      |>.inEntity u.entity |>.onField u.field

/-- A foreign key refers to a declared entity, and better not to a key of several columns. -/
def foreignKeys (s : Schema) : List Diagnostic :=
  unresolvedNames s .foreignKey Diagnostic.unresolvedForeignKey
      (fun u => "FK target " ++ Text.quoted u.name ++ " is not a declared entity") ++
    perField s fun e f =>
      match f.foreignKey? with
      | none => []
      | some (id, span) =>
        match s.entity? id with
        | none => []
        | some target =>
          if f.isColumn && target.primaryKey.length > 1 then
            [(caution s Diagnostic.compositeForeignKey
              ("field " ++ e.name ++ "." ++ f.name ++ " references " ++ target.name ++
                ", whose primary key has " ++ toString target.primaryKey.length ++ " columns") span)
              |>.inEntity e.name |>.onField f.name]
          else []

/-- A key lists at least one field, and only columns of its entity. -/
def entityKeyColumns (s : Schema) (e : Entity) : List Diagnostic :=
  e.constraints.flatMap fun c =>
    let name := c.clause.kind.name
    if c.clause.kind == .check then []
    else if c.clause.columns.isEmpty then
      [(fault s Diagnostic.badKeyColumns (name ++ " key of " ++ e.name ++ " lists no fields") c.span)
        |>.inEntity e.name]
    else (c.clause.columns.filter fun column => !e.hasColumn column).map fun column =>
      (fault s Diagnostic.badKeyColumns
        (name ++ " key of " ++ e.name ++ " names unknown field " ++ Text.quoted column) c.span)
        |>.inEntity e.name |>.onField column

/-- The features of an entity that name columns. -/
def columnFeatures (e : Entity) : List (String × List String × Span) :=
  (e.partition.toList.map fun p => ("PARTITION", p.columns, p.span)) ++
    (e.ttl.toList.map fun t => ("TTL", [t.column], t.span)) ++
    (e.fts.map fun f => ("FTS", f.columns, f.span)) ++
    (e.softDelete.toList.map fun d => ("SOFT_DELETE", [d.field], d.span))

/-- A feature names at least one column, and only columns of its entity. -/
def featureColumns (s : Schema) (e : Entity) : List Diagnostic :=
  (columnFeatures e).flatMap fun (feature, columns, span) =>
    if columns.isEmpty then
      [(fault s Diagnostic.badFeatureColumn (feature ++ " of " ++ e.name ++ " lists no columns") span)
        |>.inEntity e.name]
    else (columns.filter fun column => !e.hasColumn column).map fun column =>
      (fault s Diagnostic.badFeatureColumn
        (feature ++ " of " ++ e.name ++ " references " ++ Text.quoted column ++
          ", which is not a column") span)
        |>.inEntity e.name |>.onField column

/-- Keys and features name columns of their entity. -/
def keyColumns (s : Schema) : List Diagnostic :=
  s.entities.flatMap fun e => entityKeyColumns s e ++ featureColumns s e

/-- The variants whose label stands further up already. -/
def repeatedVariants (seen : List String) : List Document.Variant → List Document.Variant
  | [] => []
  | v :: vs =>
    if seen.contains v.name then v :: repeatedVariants seen vs
    else repeatedVariants (v.name :: seen) vs

/-- A type is a base type, an enumeration or an entity, and an enumeration repeats no label. -/
def typeReferences (s : Schema) : List Diagnostic :=
  unresolvedNames s .type Diagnostic.unresolvedType
      (fun u => "type " ++ Text.quoted u.name ++ " is not a base type, enum or entity") ++
    s.enums.flatMap fun e =>
      (repeatedVariants [] e.variants).map fun v =>
        (fault s Diagnostic.duplicateVariant
          ("enum " ++ e.name ++ " repeats variant " ++ Text.quoted v.name) v.span)
          |>.inEntity e.name

/-- The kinds of constraints that a field may carry. -/
def fieldKinds : List ConstraintKind :=
  [.primaryKey, .unique, .notNull, .default, .foreignKey, .check]

/-- A field carries at most one constraint of each kind; the second one is reported. -/
def duplicateConstraints (s : Schema) : List Diagnostic :=
  perField s fun e f => fieldKinds.flatMap fun kind =>
    match f.constraints.filter fun c => c.clause.kind == kind with
    | _ :: second :: _ =>
      [(fault s Diagnostic.duplicateConstraint
        ("field " ++ e.name ++ "." ++ f.name ++ " repeats " ++ kind.name ++ " " ++
          toString (f.count kind) ++ " times") second.span)
        |>.inEntity e.name |>.onField f.name]
    | _ => []

/-- The finding for an expression, if it is not balanced. -/
def unbalanced (s : Schema) (span : Span) (expr : String) : List Diagnostic :=
  if balanced (Text.bytes expr) then []
  else [fault s Diagnostic.unbalancedCheck
    ("CHECK expression " ++ Text.quoted expr ++ " has unbalanced parentheses") span]

/-- The expressions of fields, entities and policies are balanced. -/
def expressions (s : Schema) : List Diagnostic :=
  s.entities.flatMap fun e =>
    (e.fields.flatMap fun f => f.constraints.flatMap fun c =>
      match c.clause with
      | .check expr => (unbalanced s c.span expr).map fun d => d.inEntity e.name |>.onField f.name
      | _ => []) ++
    (e.constraints.flatMap fun c =>
      match c.clause with
      | .check expr => (unbalanced s c.span expr).map (·.inEntity e.name)
      | _ => []) ++
    (e.policies.flatMap fun p =>
      [p.policy.usingExpr, p.policy.withCheck].flatMap fun expr =>
        (unbalanced s p.span expr).map (·.inEntity e.name))

/-- A default fits the type of its field. -/
def defaults (s : Schema) : List Diagnostic :=
  perField s fun e f => f.constraints.flatMap fun c =>
    match c.clause with
    | .default v =>
      match defaultProblem? s f v with
      | some problem =>
        [(caution s Diagnostic.defaultMismatch
          ("field " ++ e.name ++ "." ++ f.name ++ ": DEFAULT " ++ v.text ++ " " ++ problem.message)
          c.span)
          |>.inEntity e.name |>.onField f.name]
      | none => []
    | _ => []

/-- Whether a type stores keys with values: a map type, or one with two names as arguments. -/
def isMapLike (t : FieldType) : Bool :=
  BaseType.isMapLike t.name ||
    match t.args with
    | [a, b] => a.kind == .identifier && b.kind == .identifier
    | _ => false

/-- A set holds scalars and no maps. -/
def mapFields (s : Schema) : List Diagnostic :=
  perField s fun e f =>
    if f.cardinality == .set && isMapLike f.type then
      [(caution s Diagnostic.mapUnsupported
        ("field " ++ e.name ++ "." ++ f.name ++
          ": map semantics are not supported; treated as a set of " ++ f.type.name) f.span)
        |>.inEntity e.name |>.onField f.name]
    else []

/-- What all rules find, in the order of the rules. -/
def run (s : Schema) : List Diagnostic :=
  primaryKeys s ++ foreignKeys s ++ keyColumns s ++ typeReferences s ++ duplicateConstraints s ++
    expressions s ++ defaults s ++ mapFields s

end ErdSql.Check
