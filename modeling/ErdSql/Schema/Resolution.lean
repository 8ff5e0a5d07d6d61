import ErdSql.Schema

/-!
# Resolution

A document becomes a schema in two passes. The first takes the names of all entities and
enumerations, which share one name space; the second builds the entities and binds the names that
their fields use. Names that cannot be bound are kept in the schema, for the checks to report.
-/

namespace ErdSql.Schema

/-! ### Declarations -/

/-- A declaration that takes a name. -/
inductive Declaration where
  | entity (entity : Document.Entity)
  | enum (enum : Document.Enum)
  deriving DecidableEq, Inhabited

namespace Declaration

/-- The name that a declaration takes. -/
def name : Declaration → String
  | entity e => e.name
  | enum e => e.name

/-- The place that stands for a declaration. -/
def span : Declaration → Span
  | entity e => e.nameSpan
  | enum e => e.span

/-- The word for a declaration. -/
def word : Declaration → String
  | entity _ => "entity"
  | enum _ => "enum"

/-- The declaration that a statement makes. -/
def ofStatement? : Document.Statement → Option Declaration
  | .entity e => some (entity e)
  | .enum e => some (enum e)
  | _ => none

/-- The entity that is declared. -/
def entity? : Declaration → Option Document.Entity
  | entity e => some e
  | enum _ => none

/-- The enumeration that is declared. -/
def enum? : Declaration → Option Document.Enum
  | entity _ => none
  | enum e => some e

end Declaration

/-- The first declaration of each name, in order, and a diagnostic for every other one. -/
def declare (path : String) (taken : List Declaration) :
    List Declaration → List Declaration × List Diagnostic
  | [] => (taken, [])
  | d :: ds =>
    match taken.find? (fun first => first.name == d.name) with
    | none => declare path (taken ++ [d]) ds
    | some first =>
      let diagnostic :=
        (Diagnostic.make .error Diagnostic.duplicateDeclaration
          (d.word ++ " " ++ Text.quoted d.name ++ " is already declared") (d.span.location path))
          |>.inEntity d.name |>.withRelated (first.span.location path) "first declared here"
      let (all, more) := declare path taken ds
      (all, diagnostic :: more)

/-- The declared names in order. -/
structure Names where
  entities : List String
  enums : List String
  deriving DecidableEq, Inhabited

namespace Names

/-- The position of an entity. -/
def entity? (n : Names) (name : String) : Option Nat := n.entities.findIdx? (· == name)

/-- The position of an enumeration. -/
def enum? (n : Names) (name : String) : Option Nat := n.enums.findIdx? (· == name)

end Names

/-! ### Fields -/

/-- Binds a type name: to an entity, else to an enumeration, else to a base type, whose name becomes
upper case. -/
def bindType (names : Names) (t : Document.TypeRef) : FieldType :=
  match names.entity? t.name with
  | some id => ⟨t.name, t.args, .entity id, t.span⟩
  | none =>
    match names.enum? t.name with
    | some id => ⟨t.name, t.args, .enum id, t.span⟩
    | none =>
      if BaseType.isBase t.name then ⟨BaseType.canonical t.name, t.args, .base, t.span⟩
      else ⟨t.name, t.args, .unresolved, t.span⟩

/-- A name in lower case without underscores. -/
def foldName (name : String) : String :=
  Text.lower (String.ofList (name.toList.filter (· != '_')))

/-- A field name without the ending `_id`, if anything stands before the ending. -/
def stem (fieldName : String) : String :=
  let cs := fieldName.toList
  let front := cs.take (cs.length - 3)
  if !front.isEmpty && Text.spells "_id" (String.ofList (cs.drop (cs.length - 3))) then
    String.ofList front
  else fieldName

/-- The entity that a field name points to: the entity named like the stem, or else the first whose
name is the same apart from case and underscores. -/
def inferTarget (names : Names) (fieldName : String) : Option Nat × String :=
  let s := stem fieldName
  match names.entity? s with
  | some id => (some id, s)
  | none =>
    match names.entities.findIdx? (fun e => foldName e == foldName s) with
    | some id => (some id, names.entities[id]?.getD s)
    | none => (none, s)

/-- The entity that a foreign key refers to and the name that was looked up: the explicit target, else
the entity type of the field, else, for a base type, what the field name points to. -/
def bindTarget (names : Names) (type : FieldType) (fieldName : String) (explicit : Option String) :
    Option Nat × String :=
  match explicit with
  | some target => (names.entity? target, target)
  | none =>
    match type.binding with
    | .entity id => (some id, type.name)
    | .base => inferTarget names fieldName
    | _ => (none, type.name)

/-- Binds the names in a constraint. -/
def bindConstraint (names : Names) (type : FieldType) (fieldName : String)
    (c : Document.Constraint) : Constraint :=
  let clause := match c.clause with
    | .primaryKey => .primaryKey
    | .unique => .unique
    | .notNull => .notNull
    | .default v => .default v
    | .foreignKey explicit =>
      let (target, name) := bindTarget names type fieldName explicit
      .foreignKey target name
    | .check e => .check e
  ⟨clause, c.span⟩

/-- Resolves a field. -/
def buildField (names : Names) (f : Document.Field) : Field :=
  let type := bindType names f.type
  ⟨f.name, f.cardinality, type, f.has, f.constraints.map (bindConstraint names type f.name), f.span⟩

/-- The names in a field that are not bound: the first foreign key without target, and the type if
the field has no foreign key. -/
def unresolvedOf (entity : String) (f : Field) : List Unresolved :=
  let target := f.constraints.findSome? fun c =>
    match c.clause with
    | .foreignKey none name => some ⟨.foreignKey, entity, f.name, name, c.span⟩
    | _ => none
  let type :=
    if f.type.binding == .unresolved && !f.carries .foreignKey then
      [⟨.type, entity, f.name, f.type.name, f.type.span⟩]
    else []
  target.toList ++ type

/-- The first field of each name, in order, and a diagnostic for every other one. -/
def distinctFields (path entity : String) (taken : List Document.Field) :
    List Document.Field → List Document.Field × List Diagnostic
  | [] => (taken, [])
  | f :: fs =>
    match taken.find? (fun first => first.name == f.name) with
    | none => distinctFields path entity (taken ++ [f]) fs
    | some first =>
      let diagnostic :=
        (Diagnostic.make .error Diagnostic.duplicateField
          ("field " ++ Text.quoted f.name ++ " is declared more than once in " ++ entity)
          (f.span.location path))
          |>.inEntity entity |>.onField f.name
          |>.withRelated (first.span.location path) "first declared here"
      let (all, more) := distinctFields path entity taken fs
      (all, diagnostic :: more)

/-! ### Keys -/

/-- The texts of a list without later repetitions. -/
def distinct (xs : List String) : List String :=
  xs.foldl (fun seen x => if seen.contains x then seen else seen ++ [x]) []

/-- The columns of all primary key lines, in order and once each, with the place of the first line. -/
def primaryKeyLine? (keys : List Document.KeyLine) : Option (List String × Span) :=
  let lines := keys.filterMap fun k =>
    match k.key with
    | .primary columns => some (columns, k.span)
    | _ => none
  match lines with
  | [] => none
  | (_, span) :: _ => some (distinct (lines.flatMap (·.1)), span)

/-- The `UNIQUE` and `CHECK` lines. -/
def otherKeys (keys : List Document.KeyLine) : List EntityConstraint :=
  keys.filterMap fun k =>
    match k.key with
    | .primary _ => none
    | .unique columns => some ⟨.unique columns, k.span⟩
    | .check e => some ⟨.check e, k.span⟩

/-- The first field of a name marked as primary key, unless it is marked already. -/
def markPrimaryKey (name : String) (span : Span) : List Field → List Field
  | [] => []
  | f :: fs =>
    if f.name == name then
      (if f.carries .primaryKey then f
        else { f with constraints := f.constraints ++ [⟨.primaryKey, span⟩] }) :: fs
    else f :: markPrimaryKey name span fs

/-- The fields and entity constraints that the key lines give. A key line of one known field marks the
field; any other primary key leads the entity constraints. -/
def buildKeys (fields : List Field) (keys : List Document.KeyLine) :
    List Field × List EntityConstraint :=
  match primaryKeyLine? keys with
  | none => (fields, otherKeys keys)
  | some ([column], span) =>
    if fields.any (·.name == column) then (markPrimaryKey column span fields, otherKeys keys)
    else (fields, ⟨.compositeKey [column], span⟩ :: otherKeys keys)
  | some (columns, span) => (fields, ⟨.compositeKey columns, span⟩ :: otherKeys keys)

/-! ### Features -/

/-- The entity with one more feature, or none if it may be declared only once and is already. -/
def addFeature (e : Entity) (d : Document.Directive) : Option Entity :=
  match d.feature with
  | .partition strategy columns =>
    if e.partition.isSome then none else some { e with partition := some ⟨strategy, columns, d.span⟩ }
  | .ttl column interval =>
    if e.ttl.isSome then none else some { e with ttl := some ⟨column, interval, d.span⟩ }
  | .fts columns method => some { e with fts := e.fts ++ [⟨columns, method, d.span⟩] }
  | .rls mode => if e.rls.isSome then none else some { e with rls := some ⟨mode, d.span⟩ }
  | .policy p => some { e with policies := e.policies ++ [⟨p, d.span⟩] }
  | .auditable => if e.auditable then none else some { e with auditable := true }
  | .softDelete column =>
    if e.softDelete.isSome then none else some { e with softDelete := some ⟨column, d.span⟩ }

/-- The entity with its features and a diagnostic for every repeated one. -/
def addFeatures (path : String) (e : Entity) : List Document.Directive → Entity × List Diagnostic
  | [] => (e, [])
  | d :: ds =>
    match addFeature e d with
    | some e' => addFeatures path e' ds
    | none =>
      let diagnostic :=
        (Diagnostic.make .error Diagnostic.duplicateConstraint
          (d.feature.name ++ " is declared more than once in " ++ e.name) (d.span.location path))
          |>.inEntity e.name
      let (all, more) := addFeatures path e ds
      (all, diagnostic :: more)

/-! ### Whole documents -/

/-- What building an entity gives. -/
structure Built where
  entity : Entity
  unresolved : List Unresolved
  diagnostics : List Diagnostic
  deriving Inhabited

/-- Resolves an entity. -/
def buildEntity (path : String) (names : Names) (id : Nat) (node : Document.Entity) : Built :=
  let (nodes, repeated) := distinctFields path node.name [] node.fields
  let fields := nodes.map (buildField names)
  let (keyed, constraints) := buildKeys fields node.keys
  let bare : Entity :=
    ⟨id, node.name, keyed, constraints, none, none, [], none, [], false, none, node.span⟩
  let (entity, again) := addFeatures path bare node.directives
  ⟨entity, fields.flatMap (unresolvedOf node.name), repeated ++ again⟩

/-- The schema of a document and what was wrong with its declarations. Declarations that could not be
built are left out of it. -/
def ofDocument (doc : Document) : Schema × List Diagnostic :=
  let (declared, duplicates) :=
    declare doc.path [] (doc.statements.filterMap Declaration.ofStatement?)
  let nodes := declared.filterMap Declaration.entity?
  let enums := declared.filterMap Declaration.enum?
  let names : Names := ⟨nodes.map (·.name), enums.map (·.name)⟩
  let built := nodes.mapIdx fun id node => buildEntity doc.path names id node
  let schema : Schema := {
    path := doc.path
    entities := built.map (·.entity)
    enums := enums.mapIdx fun id e => ⟨id, e.name, e.variants, e.span⟩
    indexes := doc.statements.filterMap fun
      | .index i => some ⟨i, names.entity? i.table⟩
      | _ => none
    views := doc.statements.filterMap fun
      | .view v => some v
      | _ => none
    triggers := doc.statements.filterMap fun
      | .trigger t => some t
      | _ => none
    extensions := doc.statements.filterMap fun
      | .extension e => some e
      | _ => none
    blocks := doc.statements.filterMap fun
      | .block b => some b
      | _ => none
    unresolved := built.flatMap (·.unresolved) }
  (schema, duplicates ++ built.flatMap (·.diagnostics))

end ErdSql.Schema
