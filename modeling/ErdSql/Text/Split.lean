/-!
# Cutting and joining texts

Splitting at a separator keeps empty pieces, so joining with the same separator gives the text back.
-/

namespace ErdSql.Text

/-- The texts one after another with a separator between neighbours. -/
def join (separator : String) : List String → String
  | [] => ""
  | [s] => s
  | s :: t :: rest => s ++ separator ++ join separator (t :: rest)

/-- The pieces of a list between the occurrences of a separator; there is always one piece. -/
def splitList {α : Type} [BEq α] (separator : α) : List α → List (List α)
  | [] => [[]]
  | x :: xs =>
    if x == separator then [] :: splitList separator xs
    else match splitList separator xs with
      | [] => [[x]]
      | piece :: pieces => (x :: piece) :: pieces

/-- The pieces of a text between the occurrences of a character. -/
def splitAt (separator : Char) (s : String) : List String :=
  (splitList separator s.toList).map String.ofList

/-- The lines of a text; a final line feed is followed by an empty line. -/
def lines (s : String) : List String :=
  splitAt '\n' s

/-- Whether a text starts with another one. -/
def startsWith (start s : String) : Bool :=
  start.toList.isPrefixOf s.toList

/-- What follows a given start of a text, if the text starts so. -/
def dropStart? (start s : String) : Option String :=
  if startsWith start s then some (String.ofList (s.toList.drop start.toList.length)) else none

/-- Whether a text ends with another one. -/
def endsWith (tail s : String) : Bool :=
  tail.toList.isSuffixOf s.toList

/-- Whether a text has a character. -/
def contains (s : String) (c : Char) : Bool :=
  s.toList.contains c

/-- The text before the first occurrence of a character and the text after it. -/
def cut? (separator : Char) (s : String) : Option (String × String) :=
  match s.toList.span (· != separator) with
  | (before, _ :: after) => some (String.ofList before, String.ofList after)
  | (_, []) => none

/-- `n` copies of a character. -/
def replicate (n : Nat) (c : Char) : String :=
  String.ofList (List.replicate n c)

/-- A text with blanks put before it until it has `width` characters. -/
def padLeft (width : Nat) (s : String) : String :=
  replicate (width - s.length) ' ' ++ s

/-- Two quotes in a row become one, from left to right. -/
def collapsePairs {α : Type} [BEq α] (quote : α) : List α → List α
  | [] => []
  | [c] => [c]
  | c :: d :: rest =>
    if c == quote && d == quote then quote :: collapsePairs quote rest
    else c :: collapsePairs quote (d :: rest)

/-- Every character of the given kind is written twice. -/
def doubleChar (quote : Char) (cs : List Char) : List Char :=
  cs.flatMap fun c => if c == quote then [c, c] else [c]

end ErdSql.Text
