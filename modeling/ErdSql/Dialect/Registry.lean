import ErdSql.Dialect
import ErdSql.Text.Bytes
import ErdSql.Text.Quoted

/-!
# Dialects by name

A registry gives dialects names, which are compared without regard to case.
-/

namespace ErdSql.Dialect

/-- Dialects by lower-case name. -/
structure Registry where
  entries : List (String × Dialect)
  deriving DecidableEq, Inhabited

namespace Registry

/-- The registry without dialects. -/
def empty : Registry := ⟨[]⟩

/-- The names of all built-in dialects. -/
def builtin : Registry :=
  ⟨[("postgresql", .postgresql), ("postgres", .postgresql), ("sqlite", .sqlite),
    ("sqlite3", .sqlite)]⟩

/-- The dialect that is meant when none is named. -/
def defaultName : String := "postgresql"

/-- The dialect of a name in any case. -/
def lookup (r : Registry) (name : String) : Option Dialect :=
  r.entries.lookup (Text.lower name)

/-- The registered names in byte order. -/
def names (r : Registry) : List String :=
  Text.sortTexts (r.entries.map (·.1))

/-- The wording for a name that is taken. -/
def takenMessage (name : String) : String :=
  "engine: dialect " ++ Text.quoted name ++ " already registered"

/-- The wording for a name that is not registered. -/
def unknownMessage (r : Registry) (name : String) : String :=
  "unsupported database dialect: " ++ name ++ " (known: " ++ Text.join ", " r.names ++ ")"

/-- The registry with one more name, unless it is taken. -/
def register (r : Registry) (name : String) (d : Dialect) : Option Registry :=
  if (r.lookup name).isSome then none else some ⟨r.entries ++ [(Text.lower name, d)]⟩

end Registry

end ErdSql.Dialect
