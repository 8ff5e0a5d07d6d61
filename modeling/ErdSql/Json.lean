import ErdSql.Text.Quoted
import ErdSql.Text.Split

/-!
# JSON texts

Values written as JSON, on one line or indented. Members of an object keep their order. The characters
that have a meaning in HTML are written as escapes.
-/

namespace ErdSql

/-- A JSON value. A number that is not written as a whole number is kept as it is written. -/
inductive Json where
  | null
  | bool (b : Bool)
  | int (n : Int)
  | number (literal : String)
  | str (s : String)
  | arr (items : List Json)
  | obj (members : List (String × Json))
  deriving Inhabited

namespace Json

/-- A character inside a JSON string. -/
def escapeChar (c : Char) : List Char :=
  match c with
  | '"' => ['\\', '"']
  | '\\' => ['\\', '\\']
  | '\n' => ['\\', 'n']
  | '\r' => ['\\', 'r']
  | '\t' => ['\\', 't']
  | '\x08' => ['\\', 'b']
  | '\x0c' => ['\\', 'f']
  | c =>
    if c.toNat < 0x20 || c == '<' || c == '>' || c == '&' || c == '\u2028' || c == '\u2029' then
      '\\' :: 'u' :: Text.hexDigits 4 c.toNat
    else [c]

/-- A text as a JSON string. -/
def quote (s : String) : String :=
  "\"" ++ String.ofList (s.toList.flatMap escapeChar) ++ "\""

mutual

/-- A value on one line without blanks. -/
def compact : Json → String
  | .null => "null"
  | .bool b => if b then "true" else "false"
  | .int n => toString n
  | .number literal => literal
  | .str s => quote s
  | .arr items => "[" ++ Text.join "," (compactItems items) ++ "]"
  | .obj members => "\x7b" ++ Text.join "," (compactMembers members) ++ "\x7d"

/-- The items of an array, each on one line. -/
def compactItems : List Json → List String
  | [] => []
  | j :: js => compact j :: compactItems js

/-- The members of an object, each on one line. -/
def compactMembers : List (String × Json) → List String
  | [] => []
  | (key, j) :: rest => (quote key ++ ":" ++ compact j) :: compactMembers rest

end

/-- The start of a line at a depth, two blanks for each level. -/
def indentation (depth : Nat) : String :=
  "\n" ++ Text.replicate (2 * depth) ' '

/-- Items between brackets, each on a line of its own; nothing between the brackets of an empty
list. -/
def bracketed (opening closing : String) (depth : Nat) (items : List String) : String :=
  if items.isEmpty then opening ++ closing
  else opening ++ indentation (depth + 1) ++ Text.join ("," ++ indentation (depth + 1)) items ++
    indentation depth ++ closing

mutual

/-- A value with each item and member on a line of its own, inside `depth` brackets. -/
def indented (depth : Nat) : Json → String
  | .null => "null"
  | .bool b => if b then "true" else "false"
  | .int n => toString n
  | .number literal => literal
  | .str s => quote s
  | .arr items => bracketed "[" "]" depth (indentedItems (depth + 1) items)
  | .obj members => bracketed "\x7b" "\x7d" depth (indentedMembers (depth + 1) members)

/-- The items of an array inside `depth` brackets. -/
def indentedItems (depth : Nat) : List Json → List String
  | [] => []
  | j :: js => indented depth j :: indentedItems depth js

/-- The members of an object inside `depth` brackets. -/
def indentedMembers (depth : Nat) : List (String × Json) → List String
  | [] => []
  | (key, j) :: rest => (quote key ++ ": " ++ indented depth j) :: indentedMembers depth rest

end

end Json

end ErdSql
