import ErdSql.Document.Parser
import ErdSql.Proofs.Lexemes
import Mathlib

/-!
# The grammar of entity blocks

How the lines of an entity are written, and which entities can be written at all: their names are
names of the language, their literals are single tokens or calls, and the bodies of their expressions
close what they open. `unplaced` forgets where in a document a construct stands.
-/

namespace ErdSql.Scan

/-- Whether a text is one list. -/
def isList (s : String) : Bool :=
  match s.toList with
  | [] => false
  | c :: cs => c == '[' && listEnd 0 0 none cs == .closed cs.length

/-- The words that have a meaning of their own on some lines without being reserved. -/
def contextualWords : List String :=
  ["BY", "USING", "FOR", "TO", "WITH"]

/-- Whether a text is a name that is neither reserved nor a contextual word. -/
def isIdentifier (s : String) : Bool :=
  isName s && (Keyword.ofText? s).isNone && contextualWords.all fun w => !Text.spells w s

/-- Whether a text is an identifier in upper case. -/
def isUpperWord (s : String) : Bool :=
  isIdentifier s && Text.upper s == s

/-- Whether a text closes every bracket by one of its kind and every quote on its line. The brackets
of `stack` are open in front of the text, innermost first, and so is the string of `quote`. -/
def closes (stack : List Char) (quote : Option Char) : List Char → Bool
  | [] => stack.isEmpty && quote.isNone
  | c :: cs =>
    match quote with
    | some q =>
      if c == q then closes stack none cs
      else c != '\n' && closes stack (some q) cs
    | none =>
      if c == '\'' || c == '"' then closes stack (some c) cs
      else if c == '(' || c == '[' then closes (c :: stack) none cs
      else if c == ')' || c == ']' then
        match stack with
        | [] => false
        | bracket :: outer => bracket == openingBracket c && closes outer none cs
      else closes stack none cs

/-- Whether a text can stand in the parentheses of an expression. -/
def isBody (s : String) : Bool :=
  Text.trimChars s.toList == s.toList && closes [] none s.toList

end ErdSql.Scan

namespace ErdSql

/-- White space that does not end a line. -/
def IsGap (s : String) : Prop :=
  ∀ c ∈ s.toList, Text.isSpace c = true ∧ c ≠ '\n'

/-- The texts of the literals of a kind and, for no kind, the texts between the parentheses of a
call: literals divided by commas. -/
inductive LiteralText : Option Literal.Kind → String → Prop where
  | number {s} :
    Scan.isNumber s = true →
    LiteralText (some .number) s
  | negative {s} :
    Scan.isNumber s = true →
    LiteralText (some .number) ("-" ++ s)
  | string {s} :
    Scan.isString s = true →
    LiteralText (some .string) s
  | list {s} :
    Scan.isList s = true →
    LiteralText (some .list) s
  | null {s} :
    Scan.isName s = true →
    Keyword.ofText? s = some .null →
    LiteralText (some .null) s
  | identifier {s} :
    Scan.isIdentifier s = true →
    LiteralText (some .identifier) s
  | call {name gap args} :
    Scan.isIdentifier name = true →
    IsGap gap →
    LiteralText none args →
    LiteralText (some .call) (name ++ gap ++ "(" ++ args ++ ")")
  | blank {gap} :
    IsGap gap →
    LiteralText none gap
  | argument {kind before s behind} :
    IsGap before →
    LiteralText (some kind) s →
    IsGap behind →
    LiteralText none (before ++ s ++ behind)
  | more {s t} :
    LiteralText none s →
    LiteralText none t →
    LiteralText none (s ++ "," ++ t)

/-- A literal that can be written. -/
def Literal.WellFormed (l : Literal) : Prop :=
  LiteralText (some l.kind) l.text ∧ (l.kind = .null → l.text = "NULL")

/-- A literal without its place. -/
def Literal.unplaced (l : Literal) : Literal :=
  { l with span := .zero }

/-- A policy that can be written; clauses may be missing. -/
structure Policy.WellFormed (p : Policy) : Prop where
  name : Scan.isIdentifier p.name = true
  command : p.command = "" ∨ Scan.isUpperWord p.command = true
  role : p.role = "" ∨ Scan.isIdentifier p.role = true
  usingExpr : Scan.isBody p.usingExpr = true
  withCheck : Scan.isBody p.withCheck = true

namespace Document

/-- Names in parentheses. -/
def columnList (columns : List String) : String :=
  "(" ++ Text.join ", " columns ++ ")"

/-! ### Types -/

/-- Whether a text can name a type: an identifier or any keyword but `HAS`. -/
def isTypeText (s : String) : Bool :=
  Scan.isIdentifier s || (Scan.isName s && (Keyword.ofText? s).any (· != .has))

/-- A type that can be written. Behind a type `CHECK` arguments would read as an expression. -/
structure TypeRef.WellFormed (t : TypeRef) : Prop where
  name : isTypeText t.name = true
  args : ∀ l ∈ t.args, l.WellFormed
  check : Keyword.ofText? t.name = some .check → t.args = []

/-- A type as it is written. -/
def TypeRef.print (t : TypeRef) : String :=
  if t.args.isEmpty then t.name
  else t.name ++ "(" ++ Text.join ", " (t.args.map (·.text)) ++ ")"

/-- A type without its place. -/
def TypeRef.unplaced (t : TypeRef) : TypeRef :=
  ⟨t.name, t.args.map (·.unplaced), .zero⟩

/-! ### Constraints and fields -/

/-- A constraint that can be written. -/
def Clause.WellFormed : Clause → Prop
  | primaryKey | unique | notNull | foreignKey none => True
  | default value => value.WellFormed
  | foreignKey (some target) => Scan.isIdentifier target = true
  | check expr => Scan.isBody expr = true

/-- A constraint as it is written. -/
def Clause.print : Clause → String
  | primaryKey => "PK"
  | unique => "UNIQUE"
  | notNull => "NOT NULL"
  | default value => "DEFAULT " ++ value.text
  | foreignKey none => "FK"
  | foreignKey (some target) => "FK(" ++ target ++ ")"
  | check expr => "CHECK (" ++ expr ++ ")"

/-- A constraint whose literal has no place. -/
def Clause.unplaced : Clause → Clause
  | default value => default value.unplaced
  | clause => clause

/-- A constraint without its place. -/
def Constraint.unplaced (k : Constraint) : Constraint :=
  ⟨k.clause.unplaced, .zero⟩

/-- Constraints as they are written, each behind a blank. -/
def printConstraints : List Constraint → String
  | [] => ""
  | k :: ks => " " ++ k.clause.print ++ printConstraints ks

/-- A field that can be written. -/
structure Field.WellFormed (f : Field) : Prop where
  type : f.type.WellFormed
  name : Scan.isName f.name = true
  constraints : ∀ k ∈ f.constraints, k.clause.WellFormed

/-- A field line. -/
def Field.print (f : Field) : String :=
  (if f.has then "has " else "") ++ f.type.print ++ " " ++ String.singleton f.cardinality.sigil ++ "." ++
    f.name ++ printConstraints f.constraints

/-- A field without its place. -/
def Field.unplaced (f : Field) : Field :=
  ⟨f.has, f.type.unplaced, f.cardinality, f.name, f.constraints.map (·.unplaced), .zero⟩

/-! ### Keys and features -/

/-- A key that can be written. -/
def Key.WellFormed : Key → Prop
  | primary columns | unique columns => ∀ c ∈ columns, Scan.isIdentifier c = true
  | check expr => Scan.isBody expr = true

/-- A key line. -/
def Key.print : Key → String
  | primary columns => "PK" ++ columnList columns
  | unique columns => "UNIQUE" ++ columnList columns
  | check expr => "CHECK (" ++ expr ++ ")"

/-- A clause with its value, or nothing when the value is missing. -/
def optionalClause (before value behind : String) : String :=
  if value == "" then "" else before ++ value ++ behind

/-- A feature that can be written. -/
def Feature.WellFormed : Feature → Prop
  | partition strategy columns =>
    Scan.isUpperWord strategy = true ∧ ∀ c ∈ columns, Scan.isIdentifier c = true
  | ttl column interval => Scan.isIdentifier column = true ∧ interval.WellFormed
  | fts columns method =>
    (∀ c ∈ columns, Scan.isIdentifier c = true) ∧ Scan.isUpperWord method = true
  | rls _ | auditable => True
  | policy p => p.WellFormed
  | softDelete column => Scan.isIdentifier column = true

/-- A feature line. -/
def Feature.print : Feature → String
  | partition strategy columns => "PARTITION BY " ++ strategy ++ " " ++ columnList columns
  | ttl column interval => "TTL(" ++ column ++ ", " ++ interval.text ++ ")"
  | fts columns method => "FTS" ++ columnList columns ++ " USING " ++ method
  | rls mode => "RLS " ++ mode.word
  | policy p =>
    "POLICY " ++ p.name ++ optionalClause " FOR " p.command "" ++ optionalClause " TO " p.role "" ++
      optionalClause " USING (" p.usingExpr ")" ++ optionalClause " WITH CHECK (" p.withCheck ")"
  | auditable => "AUDITABLE"
  | softDelete column => "SOFT_DELETE(" ++ column ++ ")"

/-- A feature whose literal has no place. -/
def Feature.unplaced : Feature → Feature
  | ttl column interval => ttl column interval.unplaced
  | feature => feature

/-! ### Lines and entities -/

namespace LineItem

/-- A line that can be written. -/
def WellFormed : LineItem → Prop
  | field f => f.WellFormed
  | key k => k.key.WellFormed
  | directive d => d.feature.WellFormed

/-- A line as it is written. -/
def print : LineItem → String
  | field f => f.print
  | key k => k.key.print
  | directive d => d.feature.print

/-- A line without its place. -/
def unplaced : LineItem → LineItem
  | field f => field f.unplaced
  | key k => key ⟨k.key, .zero⟩
  | directive d => directive ⟨d.feature.unplaced, .zero⟩

/-- The field of a field line. -/
def field? : LineItem → Option Field
  | field f => some f
  | _ => none

/-- The key of a key line. -/
def key? : LineItem → Option KeyLine
  | key k => some k
  | _ => none

/-- The feature of a feature line. -/
def directive? : LineItem → Option Directive
  | directive d => some d
  | _ => none

end LineItem

/-- Lines as they stand in a block, each indented by two blanks. -/
def printLines : List LineItem → String
  | [] => ""
  | line :: lines => "  " ++ line.print ++ "\n" ++ printLines lines

namespace Entity

/-- An entity that can be written. -/
structure WellFormed (e : Entity) : Prop where
  name : Scan.isName e.name = true
  fields : ∀ f ∈ e.fields, f.WellFormed
  keys : ∀ k ∈ e.keys, k.key.WellFormed
  directives : ∀ d ∈ e.directives, d.feature.WellFormed

/-- Some lines hold the fields, the keys and the features of an entity, each in their order. -/
structure ListedBy (e : Entity) (lines : List LineItem) : Prop where
  fields : lines.filterMap LineItem.field? = e.fields
  keys : lines.filterMap LineItem.key? = e.keys
  directives : lines.filterMap LineItem.directive? = e.directives

/-- An entity block with its lines in the given order. -/
def print (e : Entity) (lines : List LineItem) : String :=
  ":" ++ e.name ++ "\n" ++ printLines lines

/-- An entity without the places of its parts. -/
def unplaced (e : Entity) : Entity :=
  ⟨e.name, .zero, e.fields.map (·.unplaced), e.keys.map fun k => ⟨k.key, .zero⟩,
    e.directives.map fun d => ⟨d.feature.unplaced, .zero⟩, .zero⟩

end Entity

end Document

end ErdSql
