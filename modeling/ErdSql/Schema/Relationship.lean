import ErdSql.Schema

/-!
# Relationships

The edges between entities that foreign keys, list fields and join entities stand for.
-/

namespace ErdSql.Schema

/-- How many rows stand on each side of a relationship. -/
inductive RelationshipKind where
  | manyToOne
  | oneToOne
  | oneToMany
  | manyToMany
  deriving DecidableEq, Inhabited

/-- The name of a kind of relationship. -/
def RelationshipKind.name : RelationshipKind → String
  | manyToOne => "many-to-one"
  | oneToOne => "one-to-one"
  | oneToMany => "one-to-many"
  | manyToMany => "many-to-many"

/-- An edge from one entity to another. An edge between the targets of a join entity has no field but
the entity that joins them. -/
structure Relationship where
  kind : RelationshipKind
  source : Nat
  target : Nat
  field : String
  via : Option Nat
  deriving DecidableEq, Inhabited

/-- The edge of a field: a column with a foreign key refers to one row; a list field of entity type
without foreign key collects many. -/
def fieldRelationship? (e : Entity) (f : Field) : Option Relationship :=
  let list := match f.type.binding with
    | .entity target =>
      if f.cardinality == .list && !f.carries .foreignKey then
        some ⟨.oneToMany, e.id, target, f.name, none⟩
      else none
    | _ => none
  match f.foreignKey? with
  | some (target, _) =>
    if f.isColumn then
      some ⟨if f.carries .unique then .oneToOne else .manyToOne, e.id, target, f.name, none⟩
    else list
  | none => list

/-- The targets of the foreign keys in the composite key, if there are at least two. -/
def joinTargets (e : Entity) : List Nat :=
  let targets := (e.compositeKey?.getD []).filterMap fun column =>
    (e.field? column).bind fun f => f.foreignKey?.map (·.1)
  if targets.length < 2 then [] else targets

/-- The pairs of a list, each element with all later ones. -/
def pairs {α : Type} : List α → List (α × α)
  | [] => []
  | x :: xs => xs.map (fun y => (x, y)) ++ pairs xs

/-- The edges of an entity: those of its fields, then those between the targets that it joins. -/
def entityRelationships (e : Entity) : List Relationship :=
  e.fields.filterMap (fieldRelationship? e) ++
    (pairs (joinTargets e)).map fun (a, b) => ⟨.manyToMany, a, b, "", some e.id⟩

/-- The edges of a schema in order of declaration. -/
def relationships (s : Schema) : List Relationship :=
  s.entities.flatMap entityRelationships

/-- Whether an entity takes part in one of the edges. -/
def isRelated (edges : List Relationship) (id : Nat) : Bool :=
  edges.any fun r => r.source == id || r.target == id || r.via == some id

end ErdSql.Schema
