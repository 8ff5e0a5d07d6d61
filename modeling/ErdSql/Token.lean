import ErdSql.Text.Case
import ErdSql.Text.Quoted
import ErdSql.Text.Split

/-!
# Tokens

The words of a document and where they stand. A line and a column name a character, both from one;
offsets count bytes from zero. A keyword is recognised in any spelling; its token keeps the spelling.
-/

namespace ErdSql

/-- How many values a field holds, which its sigil says: one (`$`), the inverse side of a relation
without a column of its own (`@`), or a collection of distinct scalars (`%`). -/
inductive Cardinality where
  | scalar
  | list
  | set
  deriving DecidableEq, Inhabited

/-- The character that marks the cardinality. -/
def Cardinality.sigil : Cardinality → Char
  | scalar => '$'
  | list => '@'
  | set => '%'

/-- The cardinality that a character marks. -/
def Cardinality.ofSigil? (c : Char) : Option Cardinality :=
  if c == '$' then some scalar
  else if c == '@' then some list
  else if c == '%' then some set
  else none

/-- The name of a cardinality. -/
def Cardinality.name : Cardinality → String
  | scalar => "scalar"
  | list => "list"
  | set => "set"

/-- The reserved words. -/
inductive Keyword where
  | auditable
  | check
  | default
  | enum
  | execute
  | extension
  | fk
  | fts
  | has
  | index
  | materialized
  | not
  | null
  | partition
  | pk
  | policy
  | procedure
  | rls
  | softDelete
  | trigger
  | ttl
  | unique
  | view
  deriving DecidableEq, Inhabited

namespace Keyword

/-- Every reserved word. -/
def all : List Keyword :=
  [auditable, check, default, enum, execute, extension, fk, fts, has, index, materialized, not, null,
    partition, pk, policy, procedure, rls, softDelete, trigger, ttl, unique, view]

/-- The upper-case spelling of a keyword. -/
def word : Keyword → String
  | auditable => "AUDITABLE"
  | check => "CHECK"
  | default => "DEFAULT"
  | enum => "ENUM"
  | execute => "EXECUTE"
  | extension => "EXTENSION"
  | fk => "FK"
  | fts => "FTS"
  | has => "HAS"
  | index => "INDEX"
  | materialized => "MATERIALIZED"
  | not => "NOT"
  | null => "NULL"
  | partition => "PARTITION"
  | pk => "PK"
  | policy => "POLICY"
  | procedure => "PROCEDURE"
  | rls => "RLS"
  | softDelete => "SOFT_DELETE"
  | trigger => "TRIGGER"
  | ttl => "TTL"
  | unique => "UNIQUE"
  | view => "VIEW"

/-- The keyword that a text spells, in any case. -/
def ofText? (s : String) : Option Keyword :=
  all.find? fun k => k.word == Text.upper s

end Keyword

namespace Token

/-- What a token is. -/
inductive Kind where
  /-- The marker `:Name` that opens an entity block. -/
  | entity
  /-- A field name behind its sigil, such as `$.id`. -/
  | field (cardinality : Cardinality)
  /-- A name, which may be divided by `/` and `.`. -/
  | identifier
  /-- A reserved word. -/
  | keyword (word : Keyword)
  /-- A whole or decimal number without sign. -/
  | number
  /-- A literal in single or double quotes. -/
  | string
  /-- A literal in square brackets. -/
  | list
  /-- The text in the parentheses behind `CHECK` or `USING`. -/
  | expr
  /-- Any other character. -/
  | symbol
  /-- The end of the document. -/
  | eof
  deriving DecidableEq, Inhabited

/-- The name of a kind. -/
def Kind.name : Kind → String
  | entity => "Entity"
  | field _ => "Field"
  | identifier => "Identifier"
  | keyword _ => "Keyword"
  | number => "Number"
  | string => "String"
  | list => "List"
  | expr => "Expr"
  | symbol => "Symbol"
  | eof => "EOF"

end Token

/-- A word of a document with its place in it. -/
structure Token where
  kind : Token.Kind
  /-- The name of an entity or field, the trimmed inside of an expression, and for every other kind
  the text as it stands in the document. -/
  spelling : String
  line : Nat
  column : Nat
  /-- Byte offset of the first character. -/
  offset : Nat
  /-- Byte offset just past the last character. -/
  stop : Nat
  /-- The line of the last character; only an expression may end on a later line than it starts. -/
  endLine : Nat
  deriving DecidableEq, Inhabited

namespace Token

/-- The text of a token, with keywords in upper case. -/
def text (t : Token) : String :=
  match t.kind with
  | .keyword k => k.word
  | _ => t.spelling

/-- Whether a token is the given keyword. -/
def isKeyword (t : Token) (k : Keyword) : Bool :=
  t.kind == .keyword k

/-- Whether a token is the given character on its own. -/
def isSymbol (t : Token) (c : Char) : Bool :=
  t.kind == .symbol && t.spelling == String.singleton c

/-- Whether a token is an identifier that spells the given word in any case. -/
def isWord (t : Token) (word : String) : Bool :=
  t.kind == .identifier && Text.spells word t.spelling

/-- Whether a token may stand for a name: an identifier or a keyword. -/
def isName (t : Token) : Bool :=
  match t.kind with
  | .identifier => true
  | .keyword _ => true
  | _ => false

/-- A token as error messages show it. -/
def describe (t : Token) : String :=
  match t.kind with
  | .eof => "end of input"
  | .entity => "entity marker :" ++ t.spelling
  | .field c => "field " ++ String.singleton c.sigil ++ "." ++ t.spelling
  | .expr => "expression (" ++ t.spelling ++ ")"
  | _ => Text.quoted t.text

/-- Characters of a string literal without the quotes around them, with each doubled quote written
once. Characters that are not enclosed in two equal quotes are given back unchanged. -/
def unquoteChars (cs : List Char) : List Char :=
  match cs with
  | q :: d :: rest =>
    if (q == '\'' || q == '"') && (d :: rest).getLast? == some q then
      Text.collapsePairs q (d :: rest).dropLast
    else cs
  | _ => cs

/-- The value of a string literal. -/
def unquote (s : String) : String :=
  String.ofList (unquoteChars s.toList)

end Token

end ErdSql
