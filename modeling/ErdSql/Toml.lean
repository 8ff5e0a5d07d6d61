/-!
# TOML entries

What the lines of a TOML text say, one entry after another, and where each part stands. A place is given
by the number of characters that are left from there on.
-/

namespace ErdSql.Toml

/-- One part of a dotted key. -/
structure Key where
  left : Nat
  name : String
  deriving DecidableEq, Inhabited

/-- What a number or moment is. -/
inductive Measure where
  | integer
  | float
  | dateTime
  | localDateTime
  | localDate
  | localTime
  deriving DecidableEq, Inhabited

/-- The name of what a number or moment is. -/
def Measure.name : Measure → String
  | integer => "integer"
  | float => "float"
  | dateTime => "datetime"
  | localDateTime => "local datetime"
  | localDate => "local date"
  | localTime => "local time"

/-- A value. Of numbers and moments only their kind is kept, and where their spelling goes wrong if it
does. -/
inductive Value where
  | text (left : Nat) (s : String)
  | flag (left : Nat) (b : Bool)
  | measure (left : Nat) (kind : Measure) (wrong : Option Nat)
  | array (left : Nat) (items : List Value)
  | table (left : Nat) (entries : List (List Key × Value))
  deriving Inhabited

/-- What one line says: a key and its value, or the header of a table or of an item in an array of
tables. -/
inductive Entry where
  | pair (key : List Key) (value : Value)
  | header (isArray : Bool) (key : List Key)
  deriving Inhabited

/-- Where a value starts. -/
def Value.left : Value → Nat
  | text n _ => n
  | flag n _ => n
  | measure n _ _ => n
  | array n _ => n
  | table n _ => n

/-- What is wrong with a text. -/
inductive Problem where
  | expected (what : String)
  | unclosed (what : String)
  | badCharacter
  | badEscape
  | badSpelling (kind : Measure)
  deriving DecidableEq, Inhabited

/-- The wording of a problem. -/
def Problem.message : Problem → String
  | expected what => "expected " ++ what
  | unclosed what => what ++ " is not closed"
  | badCharacter => "invalid character"
  | badEscape => "invalid escape"
  | badSpelling kind => "invalid " ++ kind.name

/-- What is wrong and where. -/
structure Fault where
  left : Nat
  problem : Problem
  deriving DecidableEq, Inhabited

/-- The line and column of a place in a text, both from one. Columns count bytes. -/
def position (cs : List Char) (left : Nat) : Nat × Nat :=
  (cs.take (cs.length - left)).foldl
    (fun (line, column) c => if c == '\n' then (line + 1, 1) else (line, column + c.utf8Size)) (1, 1)

end ErdSql.Toml
