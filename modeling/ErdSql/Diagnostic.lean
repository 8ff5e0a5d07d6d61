import ErdSql.Span
import ErdSql.Text.Bytes

/-!
# Diagnostics

What the stages report: how serious it is, a code, a message, the place and the entity or field that
it is about. An empty text, and a line or column of zero, stand for what is not known.
-/

namespace ErdSql

/-- How serious a diagnostic is. -/
inductive Severity where
  | info
  | warning
  | error
  deriving DecidableEq, Inhabited

/-- The name of a severity. -/
def Severity.name : Severity → String
  | info => "info"
  | warning => "warning"
  | error => "error"

/-- The severity that a text names in any case; a text that names none counts as a warning. -/
def Severity.ofText (s : String) : Severity :=
  match Text.lower s with
  | "info" => info
  | "error" | "err" => error
  | _ => warning

/-- A place in a file. -/
structure Location where
  path : String
  line : Int
  column : Int
  deriving DecidableEq, Inhabited

/-- A place as `path:line:column`. -/
def Location.text (l : Location) : String :=
  l.path ++ ":" ++ toString l.line ++ ":" ++ toString l.column

/-- A second place that matters for a diagnostic. -/
structure RelatedInfo where
  location : Location
  message : String
  deriving DecidableEq, Inhabited

/-- One finding. -/
structure Diagnostic where
  severity : Severity
  code : String
  message : String
  entity : String
  field : String
  location : Location
  notes : List String
  related : List RelatedInfo
  deriving DecidableEq, Inhabited

/-- The start of a span in a file. -/
def Span.location (s : Span) (path : String) : Location :=
  ⟨path, s.startLine, s.startColumn⟩

namespace Diagnostic

/-! ### Codes -/

/-- Malformed text. -/
def lexical : String := "E101"
/-- A malformed statement. -/
def grammatical : String := "E102"
/-- An entity or enumeration whose name is taken. -/
def duplicateDeclaration : String := "E103"
/-- A foreign key to no entity. -/
def unresolvedForeignKey : String := "E104"
/-- A type that is neither base type, enumeration nor entity. -/
def unresolvedType : String := "E105"
/-- More than one primary key. -/
def multiplePrimaryKeys : String := "E106"
/-- A key of no fields or of unknown fields. -/
def badKeyColumns : String := "E107"
/-- A repeated constraint or feature. -/
def duplicateConstraint : String := "E108"
/-- An expression with unbalanced parentheses. -/
def unbalancedCheck : String := "E109"
/-- A field whose name is taken. -/
def duplicateField : String := "E110"
/-- A feature of no columns or of unknown columns. -/
def badFeatureColumn : String := "E111"
/-- A label that an enumeration already has. -/
def duplicateVariant : String := "E112"
/-- An entity without primary key. -/
def noPrimaryKey : String := "W101"
/-- A default that does not fit its type. -/
def defaultMismatch : String := "W102"
/-- A set of key-value stores. -/
def mapUnsupported : String := "W103"
/-- A foreign key to a key of several columns. -/
def compositeForeignKey : String := "W104"
/-- An override of something unknown. -/
def unknownOverride : String := "W105"
/-- A primary key marked twice. -/
def redundantPrimaryKey : String := "L201"
/-- A foreign key without index. -/
def unindexedForeignKey : String := "L202"
/-- An entity without relationships. -/
def orphanEntity : String := "L203"
/-- An enumeration that no field uses. -/
def unusedEnum : String := "L204"
/-- A field of entity type without foreign key. -/
def missingForeignKey : String := "L205"

/-- What the codes mean. -/
def descriptions : List (String × String) := [
  (lexical, "Malformed token"),
  (grammatical, "Malformed statement"),
  (duplicateDeclaration, "Duplicate entity or enum declaration"),
  (unresolvedForeignKey, "Foreign key target does not resolve"),
  (unresolvedType, "Type or enum reference does not resolve"),
  (multiplePrimaryKeys, "More than one primary key construct"),
  (badKeyColumns, "Key list is empty or names an unknown field"),
  (duplicateConstraint, "Constraint or directive repeated"),
  (unbalancedCheck, "CHECK expression parentheses are unbalanced"),
  (duplicateField, "Duplicate field name"),
  (badFeatureColumn, "Feature references an unknown column"),
  (duplicateVariant, "Duplicate enum variant"),
  (noPrimaryKey, "Entity has no primary key"),
  (defaultMismatch, "DEFAULT literal does not fit the field type"),
  (mapUnsupported, "Map semantics are not supported"),
  (compositeForeignKey, "Foreign key targets a composite key"),
  (unknownOverride, "Sidecar names an unknown entity"),
  (redundantPrimaryKey, "Redundant primary key constraint"),
  (unindexedForeignKey, "Foreign key column is not indexed"),
  (orphanEntity, "Entity has no relationships"),
  (unusedEnum, "Enum is never used"),
  (missingForeignKey, "Entity-typed field without FK")]

/-- What a code means. -/
def describeCode (code : String) : String :=
  (descriptions.lookup code).getD "Unknown code"

/-! ### Making diagnostics -/

/-- A diagnostic about no entity and no field. -/
def make (severity : Severity) (code message : String) (location : Location) : Diagnostic :=
  ⟨severity, code, message, "", "", location, [], []⟩

/-- The diagnostic about an entity. -/
def inEntity (d : Diagnostic) (name : String) : Diagnostic := { d with entity := name }

/-- The diagnostic about a field. -/
def onField (d : Diagnostic) (name : String) : Diagnostic := { d with field := name }

/-- The diagnostic with one more note. -/
def withNote (d : Diagnostic) (note : String) : Diagnostic := { d with notes := d.notes ++ [note] }

/-- The diagnostic with one more related place. -/
def withRelated (d : Diagnostic) (location : Location) (message : String) : Diagnostic :=
  { d with related := d.related ++ [⟨location, message⟩] }

/-! ### Looking at diagnostics -/

/-- Whether the place of a diagnostic is known. -/
def hasLocation (d : Diagnostic) : Bool :=
  d.location.path != "" && d.location.line > 0

/-- Whether a diagnostic is an error. -/
def isError (d : Diagnostic) : Bool := d.severity == .error

/-- Whether a diagnostic is a warning. -/
def isWarning (d : Diagnostic) : Bool := d.severity == .warning

/-- Whether any of the diagnostics is an error. -/
def hasErrors (ds : List Diagnostic) : Bool := ds.any isError

/-- The entity and field that a diagnostic is about. -/
def subject (d : Diagnostic) : String :=
  if d.entity != "" && d.field != "" then d.entity ++ "." ++ d.field
  else if d.entity != "" then d.entity
  else d.field

/-- A diagnostic on one line. -/
def summary (d : Diagnostic) : String :=
  (if d.hasLocation then d.location.text ++ ": " else "") ++ d.severity.name ++
    (if d.code == "" then "" else "[" ++ d.code ++ "]") ++ ": " ++ d.message

/-- A diagnostic with its notes and related places. -/
def details (d : Diagnostic) : String :=
  d.summary ++ String.join (d.notes.map fun n => "\n  note: " ++ n) ++
    String.join (d.related.map fun r => "\n  related: " ++ r.location.text ++ ": " ++ r.message)

/-- Whether one place comes before another or is the same: by path, line and column. -/
def locationLE (a b : Location) : Bool :=
  if a.path != b.path then Text.textLE a.path b.path
  else if a.line != b.line then a.line < b.line
  else a.column ≤ b.column

/-- The diagnostics by place; those at one place keep their order. -/
def sortByLocation (ds : List Diagnostic) : List Diagnostic :=
  ds.mergeSort fun a b => locationLE a.location b.location

/-- How many diagnostics there are of each severity. -/
structure Tally where
  total : Nat
  errors : Nat
  warnings : Nat
  infos : Nat
  deriving DecidableEq, Inhabited

/-- Counts diagnostics by severity. -/
def tally (ds : List Diagnostic) : Tally :=
  ⟨ds.length, ds.countP isError, ds.countP isWarning, ds.countP (·.severity == .info)⟩

end Diagnostic

end ErdSql
