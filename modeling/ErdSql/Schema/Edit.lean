import ErdSql.Schema

/-!
# Edits

Replacing single expressions of a schema, for schemas that no document gives.
-/

namespace ErdSql.Schema

/-- The expression to replace. -/
inductive EditTarget where
  | fieldCheck (field : String) (index : Nat)
  | entityCheck (index : Nat)
  | policyUsing (index : Nat)
  | policyCheck (index : Nat)
  deriving DecidableEq, Inhabited

/-- A field constraint with another check expression; other constraints stay. -/
def Constraint.withCheck (c : Constraint) (expr : String) : Constraint :=
  match c.clause with
  | .check _ => { c with clause := .check expr }
  | _ => c

/-- An entity constraint with another check expression; other constraints stay. -/
def EntityConstraint.withCheck (c : EntityConstraint) (expr : String) : EntityConstraint :=
  match c.clause with
  | .check _ => { c with clause := .check expr }
  | _ => c

/-- The entity with one expression replaced. -/
def Entity.edit (e : Entity) (expr : String) : EditTarget → Entity
  | .fieldCheck field index =>
    { e with fields := e.fields.map fun f =>
        if f.name == field then
          { f with constraints := f.constraints.modify index (·.withCheck expr) }
        else f }
  | .entityCheck index => { e with constraints := e.constraints.modify index (·.withCheck expr) }
  | .policyUsing index =>
    { e with policies := e.policies.modify index fun p =>
        { p with policy := { p.policy with usingExpr := expr } } }
  | .policyCheck index =>
    { e with policies := e.policies.modify index fun p =>
        { p with policy := { p.policy with withCheck := expr } } }

/-- The schema with one expression of an entity replaced, or none if it has no such entity. -/
def edit? (s : Schema) (entity : String) (target : EditTarget) (expr : String) : Option Schema :=
  match s.lookupEntity entity with
  | some id => some { s with entities := s.entities.modify id (·.edit expr target) }
  | none => none

end ErdSql.Schema
