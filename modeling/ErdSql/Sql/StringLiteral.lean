import ErdSql.Text.Split

/-!
# SQL string literals

Writing a text as a standard literal, in which only quotes are doubled, or as an escape literal, in
which backslashes are doubled too; and reading both back.
-/

namespace ErdSql.Sql

/-- A text as a standard literal. -/
def standardLiteral (s : String) : String :=
  "'" ++ String.ofList (Text.doubleChar '\'' s.toList) ++ "'"

/-- A text as an escape literal. -/
def escapeLiteral (s : String) : String :=
  "E'" ++ String.ofList (Text.doubleChar '\\' (Text.doubleChar '\'' s.toList)) ++ "'"

/-- A text as an escape literal if it has a backslash, and as a standard literal otherwise. -/
def literal (s : String) : String :=
  if Text.contains s '\\' then escapeLiteral s else standardLiteral s

/-- The character that a backslash and the one behind it stand for in an escape literal. Escapes that
give the number of a character go on behind that one and are not read here. -/
def escaped? (c : Char) : Option Char :=
  match c with
  | 'b' => some '\x08'
  | 'f' => some '\x0c'
  | 'n' => some '\n'
  | 'r' => some '\r'
  | 't' => some '\t'
  | 'x' | 'u' | 'U' => none
  | _ => if '0' ≤ c && c ≤ '7' then none else some c

/-- Reads a literal behind its opening quote up to its end: a doubled quote is one quote, and in an
escape literal a backslash starts an escape. Nothing may follow the closing quote. -/
def decodeBody? (escapes : Bool) : List Char → Option (List Char)
  | [] => none
  | c :: cs =>
    if c == '\'' then
      match cs with
      | [] => some []
      | d :: ds => if d == '\'' then (decodeBody? escapes ds).map ('\'' :: ·) else none
    else if c == '\\' && escapes then
      match cs with
      | [] => none
      | d :: ds => (escaped? d).bind fun e => (decodeBody? escapes ds).map (e :: ·)
    else (decodeBody? escapes cs).map (c :: ·)

/-- The text that a literal stands for, if it is one literal and nothing else. -/
def decode? (s : String) : Option String :=
  match s.toList with
  | '\'' :: body => (decodeBody? false body).map String.ofList
  | 'E' :: '\'' :: body => (decodeBody? true body).map String.ofList
  | _ => none

end ErdSql.Sql
