import ErdSql.Schema

/-!
# Overlays

Overrides for single entities that are kept beside a document: row-level security, partitioning and
SQL to run after the entity. They win over what the document says.
-/

namespace ErdSql

namespace Overlay

/-- A partitioning that replaces the one of the document. -/
structure Partition where
  strategy : String
  columns : List String
  deriving DecidableEq, Inhabited

/-- The overrides of one entity. `false` for row-level security takes it away, none leaves it as the
document says. -/
structure Override where
  rls : Option Bool := none
  partitions : Option Partition := none
  post : String := ""
  deriving DecidableEq, Inhabited

end Overlay

/-- Overrides by entity name, and the lines where the names stand. -/
structure Overlay where
  path : String
  entities : List (String × Overlay.Override)
  lines : List (String × Nat)
  deriving DecidableEq, Inhabited

namespace Overlay

/-- The overlay that changes nothing. -/
def empty : Overlay := ⟨"", [], []⟩

/-- The overrides of an entity. -/
def entity? (o : Overlay) (name : String) : Option Override :=
  o.entities.lookup name

/-- The overridden names in byte order. -/
def names (o : Overlay) : List String :=
  Text.sortTexts (o.entities.map (·.1))

/-- Where a name stands. -/
def location (o : Overlay) (name : String) : Location :=
  ⟨o.path, (o.lines.lookup name).getD 0, 1⟩

/-- The warning about an override of something unknown. -/
def unknown (o : Overlay) (name message : String) : Diagnostic :=
  (Diagnostic.make .warning Diagnostic.unknownOverride message (o.location name)).inEntity name

/-- The overrides that do not apply to a schema: those of unknown entities, and partitionings by
unknown columns. -/
def check (o : Overlay) (s : Schema) : List Diagnostic :=
  o.names.flatMap fun name =>
    match s.entityNamed? name with
    | none => [o.unknown name ("sidecar overrides unknown entity " ++ name)]
    | some e =>
      match (o.entity? name).bind (·.partitions) with
      | none => []
      | some p => (p.columns.filter fun column => !e.hasColumn column).map fun column =>
        (o.unknown name ("sidecar partitions " ++ name ++ " by unknown column " ++ column)).onField
          column

end Overlay

end ErdSql
