import ErdSql.Sql.Name
import ErdSql.Sql.StringLiteral

/-!
# Dialects

What the two SQL dialects can do and how they spell it.
-/

namespace ErdSql

/-- What a dialect may be able to do. -/
inductive Feature where
  | enumTypes
  | extensions
  | arrays
  | alterConstraints
  | partitioning
  | rowLevelSecurity
  | fullTextSearch
  | tableComments
  | triggerProcedures
  | materializedViews
  deriving DecidableEq, Inhabited

namespace Feature

/-- Every feature. -/
def all : List Feature :=
  [enumTypes, extensions, arrays, alterConstraints, partitioning, rowLevelSecurity, fullTextSearch,
    tableComments, triggerProcedures, materializedViews]

/-- The name of a feature. -/
def name : Feature → String
  | enumTypes => "enum_types"
  | extensions => "extensions"
  | arrays => "arrays"
  | alterConstraints => "alter_constraints"
  | partitioning => "partitioning"
  | rowLevelSecurity => "row_level_security"
  | fullTextSearch => "fulltext_search"
  | tableComments => "table_comments"
  | triggerProcedures => "trigger_procedures"
  | materializedViews => "materialized_views"

end Feature

/-- A dialect of SQL. -/
inductive Dialect where
  | postgresql
  | sqlite
  deriving DecidableEq, Inhabited

namespace Dialect

/-- The name of a dialect. -/
def name : Dialect → String
  | postgresql => "postgresql"
  | sqlite => "sqlite"

/-- Whether a dialect has a feature: PostgreSQL has all of them, SQLite none. -/
def supports : Dialect → Feature → Bool
  | postgresql, _ => true
  | sqlite, _ => false

/-- A text as a string literal; SQLite has no escape literals. -/
def quoteString : Dialect → String → String
  | postgresql, s => Sql.literal s
  | sqlite, s => Sql.standardLiteral s

/-- The column type of a set: an array, or a text where there are no arrays. -/
def setType : Dialect → String → String
  | postgresql, element => element ++ "[]"
  | sqlite, _ => "TEXT"

/-- A call as a default; SQLite wants it in parentheses. -/
def callDefault : Dialect → String → String
  | postgresql, call => call
  | sqlite, call => "(" ++ call ++ ")"

/-- Texts as string literals divided by commas. -/
def stringList (d : Dialect) (values : List String) : String :=
  Text.join ", " (values.map d.quoteString)

end Dialect

end ErdSql
