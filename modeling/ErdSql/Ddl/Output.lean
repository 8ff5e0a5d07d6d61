import ErdSql.Ddl.Statement

/-!
# Scripts from statements

An output is an ordered list of statements under a comment banner. Each statement ends with a
semicolon; a disabled one is written as comment lines.
-/

namespace ErdSql.Ddl

/-- Whether a character is dropped at the end of a statement. -/
def isTrailing (c : Char) : Bool :=
  c == ';' || c == ' ' || c == '\t' || c == '\n'

/-- A line as a comment; a comment stays as it is. -/
def commentLine (line : String) : String :=
  if Text.startsWith "--" line then line else "-- " ++ line

/-- A statement text with one semicolon at its end, as comment lines if it is disabled. -/
def terminated (sql : String) (disabled : Bool) : String :=
  let text := Text.trimEndWhere isTrailing (Text.trim sql) ++ ";"
  if disabled then Text.join "\n" ((Text.lines text).map commentLine) else text

/-- The banner of a script: every line of the header as a comment. -/
def banner (header : String) : String :=
  if header == "" then ""
  else String.join ((Text.lines (Text.trimEndWhere (· == '\n') header)).map fun line =>
    Text.trimEndWhere (· == ' ') ("-- " ++ line) ++ "\n")

/-- A script of rendered statements under a banner, one after another. -/
def script (header : String) (rendered : List String) : String :=
  banner header ++ String.join (rendered.map (· ++ "\n"))

/-- The result of generation. -/
structure Output where
  dialect : Dialect
  header : String
  statements : List Statement
  deriving DecidableEq, Inhabited

/-- A statement with its semicolon. -/
def Statement.render (d : Dialect) (s : Statement) : String :=
  terminated (s.sql d) (s.disabled d)

namespace Output

/-- The whole script. -/
def sql (o : Output) : String :=
  script o.header (o.statements.map (·.render o.dialect))

/-- The first statement of a key. -/
def statement? (o : Output) (key : String) : Option Statement :=
  o.statements.find? fun s => s.key == key

/-- The statements of a kind. -/
def ofKind (o : Output) (kind : Kind) : List Statement :=
  o.statements.filter fun s => s.kind == kind

end Output

end ErdSql.Ddl
