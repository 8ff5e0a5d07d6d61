import ErdSql.Text.Case
import ErdSql.Text.Split

/-!
# SQL names

A name is written as it is when it is a plain word that no dialect reserves, and in double quotes
otherwise. A point divides a name into parts that are quoted one by one.
-/

namespace ErdSql.Sql

/-- The words that no dialect takes as a bare name. -/
def reservedWords : List String := [
  "ALL", "ALTER", "AND", "ANY", "ARRAY", "AS", "ASC", "BOTH", "CASE", "CAST", "CHECK", "COLLATE",
  "COLUMN", "CONSTRAINT", "CREATE", "CURRENT_DATE", "CURRENT_TIME", "CURRENT_TIMESTAMP",
  "CURRENT_USER", "DEFAULT", "DEFERRABLE", "DESC", "DISTINCT", "DO", "DROP", "ELSE", "END", "EXCEPT",
  "FALSE", "FETCH", "FOR", "FOREIGN", "FROM", "GRANT", "GROUP", "HAVING", "IN", "INDEX", "INITIALLY",
  "INTERSECT", "INTO", "IS", "JOIN", "KEY", "LATERAL", "LEADING", "LIMIT", "NOT", "NULL", "OFFSET",
  "ON", "ONLY", "OR", "ORDER", "PRIMARY", "REFERENCES", "RETURNING", "SELECT", "SESSION_USER", "SOME",
  "TABLE", "THEN", "TO", "TRAILING", "TRUE", "UNION", "UNIQUE", "USER", "USING", "WHEN", "WHERE",
  "WINDOW", "WITH"]

/-- Whether a character may start a plain word. -/
def isPlainStart (c : Char) : Bool := c.isAlpha || c == '_'

/-- Whether a character may stand in a plain word. -/
def isPlainPart (c : Char) : Bool := c.isAlphanum || c == '_'

/-- Whether a text is a word of ASCII letters, digits and underscores that starts with no digit. -/
def isPlainWord (s : String) : Bool :=
  match s.toList with
  | [] => false
  | c :: cs => isPlainStart c && cs.all isPlainPart

/-- Whether a name can be written without quotes. -/
def isPlainName (s : String) : Bool :=
  isPlainWord s && !reservedWords.contains (Text.upper s)

/-- A part of a name in double quotes: quotes are doubled and NUL characters left out. -/
def quotePart (s : String) : String :=
  "\"" ++ String.ofList (Text.doubleChar '"' (s.toList.filter (· != '\x00'))) ++ "\""

/-- A part of a name, quoted only if it has to be. -/
def namePart (s : String) : String :=
  if isPlainName s then s else quotePart s

/-- A name as it stands in SQL. -/
def name (s : String) : String :=
  Text.join "." ((Text.splitAt '.' s).map namePart)

/-- Names divided by commas. -/
def nameList (names : List String) : String :=
  Text.join ", " (names.map name)

end ErdSql.Sql
