import ErdSql.Schema.Relationship

/-!
# Advice

Findings about the structure of a schema that are never errors.
-/

namespace ErdSql.Advice

open Schema

/-- A piece of advice. -/
def advise (s : Schema) (code message : String) (span : Span) : Diagnostic :=
  Diagnostic.make .warning code message (span.location s.path)

/-- A field of the composite key need not be marked as key itself. -/
def redundantKeys (s : Schema) : List Diagnostic :=
  s.entities.flatMap fun e => (e.fields.filterMap fun f =>
    match f.constraint? .primaryKey with
    | some c =>
      if (e.compositeKey?.getD []).contains f.name then
        some ((advise s Diagnostic.redundantPrimaryKey
          ("field " ++ e.name ++ "." ++ f.name ++ " is marked PK and is part of the composite key")
          c.span)
          |>.inEntity e.name |>.onField f.name |>.withNote "drop the field-level PK")
      else none
    | none => none)

/-- Whether some index starts with a field: its own key or uniqueness, a key line or an index
statement whose first column it is. -/
def isIndexed (s : Schema) (e : Entity) (f : Field) : Bool :=
  f.carries .primaryKey || f.carries .unique ||
    (e.constraints.any fun c => c.clause.kind != .check && c.clause.columns.head? == some f.name) ||
    (s.indexes.any fun i => i.entity == some e.id && i.index.columns.head? == some f.name)

/-- A foreign key column has an index. -/
def unindexedForeignKeys (s : Schema) : List Diagnostic :=
  s.entities.flatMap fun e => (e.fields.filterMap fun f =>
    match f.foreignKey? with
    | some (_, span) =>
      if f.isColumn && !isIndexed s e f then
        some ((advise s Diagnostic.unindexedForeignKey
          ("foreign key " ++ e.name ++ "." ++ f.name ++ " has no index") span)
          |>.inEntity e.name |>.onField f.name
          |>.withNote ("add INDEX " ++ e.name ++ "_" ++ f.name ++ " ON " ++ e.name ++ " (" ++ f.name ++
            ")"))
      else none
    | none => none)

/-- In a schema of several entities each takes part in a relationship. -/
def orphans (s : Schema) : List Diagnostic :=
  if s.entities.length < 2 then []
  else
    let edges := relationships s
    (s.entities.filter fun e => !isRelated edges e.id).map fun e =>
      (advise s Diagnostic.orphanEntity ("entity " ++ e.name ++ " has no relationships") e.span)
        |>.inEntity e.name

/-- Some field uses each enumeration. -/
def unusedEnums (s : Schema) : List Diagnostic :=
  (s.enums.filter fun en => !s.entities.any fun e => e.fields.any fun f =>
      f.type.binding == .enum en.id).map fun en =>
    advise s Diagnostic.unusedEnum ("enum " ++ en.name ++ " is never used") en.span

/-- A scalar field of entity type is a foreign key. -/
def missingForeignKeys (s : Schema) : List Diagnostic :=
  s.entities.flatMap fun e => (e.fields.filterMap fun f =>
    match f.type.binding with
    | .entity _ =>
      if f.cardinality == .scalar && !f.carries .foreignKey then
        some ((advise s Diagnostic.missingForeignKey
          ("field " ++ e.name ++ "." ++ f.name ++ " references entity " ++ f.type.name ++
            " without FK") f.span)
          |>.inEntity e.name |>.onField f.name)
      else none
    | _ => none)

/-- All advice about a schema, grouped by rule. -/
def run (s : Schema) : List Diagnostic :=
  redundantKeys s ++ unindexedForeignKeys s ++ orphans s ++ unusedEnums s ++ missingForeignKeys s

end ErdSql.Advice
