import ErdSql.Document

/-!
# Reading tokens

A reader looks at the tokens that are left of a line or statement. It either gives a value and the
place where it stopped, or says what was expected, what was found instead, and where it gave up.
-/

namespace ErdSql.Document

/-- The kinds of names that a list in parentheses may hold. -/
inductive ListItem where
  | field
  | partitionColumn
  | searchColumn
  | softDeleteField
  | indexColumn
  deriving DecidableEq, Inhabited

/-- The wording for an item of a list. -/
def ListItem.text : ListItem → String
  | field => "field name"
  | partitionColumn => "partition column"
  | searchColumn => "search column"
  | softDeleteField => "soft delete field"
  | indexColumn => "index column"

/-- What a reader expects. -/
inductive Expected where
  | statement
  | endOfLineAfterEntity
  | fieldOrConstraint
  | endOfLine
  | endOfStatement
  | symbol (c : Char)
  | word (w : String)
  | typeName
  | typeArgumentsEnd
  | nameAfterSigil (sigil : String)
  | sigilField
  | constraint
  | nullAfterNot
  | notBeforeNull
  | targetEntity
  | checkExpression
  | literal
  | listItem (item : ListItem)
  | listItemsEnd (item : ListItem)
  | openingAfterKey (key : String)
  | partitionStrategy
  | ttlColumn
  | indexMethod
  | securityMode
  | oneSoftDeleteField
  | policyName
  | policyCommand
  | policyRole
  | usingExpression
  | checkAfterWith
  | withCheckExpression
  | policyClause
  | enumName
  | enumLabels
  | enumLabel
  | enumLabelEnd
  | indexName
  | indexedEntity
  | viewAfterMaterialized
  | viewName
  | viewBody
  | triggerName
  | executeProcedure
  | triggerTiming
  | procedureCall
  | extensionName
  | singleExtensionName
  | validBlock (keyword : String)
  deriving DecidableEq, Inhabited

/-- The wording of an expectation. -/
def Expected.text : Expected → String
  | statement => "entity or top-level statement"
  | endOfLineAfterEntity => "end of line after entity name"
  | fieldOrConstraint => "field line or entity constraint"
  | endOfLine => "end of line"
  | endOfStatement => "end of statement"
  | symbol c => Text.quoted (String.singleton c)
  | word w => w
  | typeName => "type name"
  | typeArgumentsEnd => "\",\" or \")\" in type arguments"
  | nameAfterSigil sigil => ".identifier after sigil " ++ sigil
  | sigilField => "sigil field ($.name, @.name or %.name)"
  | constraint => "constraint (PK, UNIQUE, NOT NULL, DEFAULT, FK or CHECK)"
  | nullAfterNot => "NULL after NOT"
  | notBeforeNull => "NOT before NULL"
  | targetEntity => "target entity name"
  | checkExpression => "parenthesized CHECK expression"
  | literal => "literal"
  | listItem item => item.text
  | listItemsEnd item => "\",\" or \")\" closing the " ++ item.text ++ " list"
  | openingAfterKey key => "\"(\" after " ++ key ++ " on an entity line"
  | partitionStrategy => "partition strategy (RANGE, LIST or HASH)"
  | ttlColumn => "TTL column"
  | indexMethod => "index method after USING"
  | securityMode => "ENABLE, DISABLE or FORCE after RLS"
  | oneSoftDeleteField => "exactly one SOFT_DELETE field"
  | policyName => "policy name"
  | policyCommand => "policy command after FOR"
  | policyRole => "role after TO"
  | usingExpression => "parenthesized USING expression"
  | checkAfterWith => "CHECK after WITH"
  | withCheckExpression => "parenthesized WITH CHECK expression"
  | policyClause => "FOR, TO, USING or WITH CHECK"
  | enumName => "enum name"
  | enumLabels => "\"\x7b\" or \"[\" opening the enum labels"
  | enumLabel => "enum label or \"\x7d\""
  | enumLabelEnd => "\",\" or \"\x7d\""
  | indexName => "index name"
  | indexedEntity => "entity name after ON"
  | viewAfterMaterialized => "VIEW after MATERIALIZED"
  | viewName => "view name"
  | viewBody => "view body after AS"
  | triggerName => "trigger name"
  | executeProcedure => "EXECUTE PROCEDURE"
  | triggerTiming => "trigger timing before EXECUTE PROCEDURE"
  | procedureCall => "procedure call after EXECUTE PROCEDURE"
  | extensionName => "extension name"
  | singleExtensionName => "a single extension name"
  | validBlock keyword => "valid " ++ keyword ++ " block"

/-- What a reader found instead. -/
inductive Found where
  | token (t : Token)
  | endOfLine
  | endOfInput
  | endOfStatement
  | fields (count : Nat)
  | refusal (reason : String)
  deriving DecidableEq, Inhabited

/-- The wording of what was found. -/
def Found.text : Found → String
  | token t => t.describe
  | endOfLine => "end of line"
  | endOfInput => "end of input"
  | endOfStatement => "end of statement"
  | fields count => toString count ++ " fields"
  | refusal reason => reason

/-- A statement or line that does not follow the grammar. -/
structure ParseError where
  line : Nat
  column : Nat
  expected : Expected
  found : Found
  deriving DecidableEq, Inhabited

/-- What was expected and what was found. -/
def ParseError.message (e : ParseError) : String :=
  "expected " ++ e.expected.text ++ ", found " ++ e.found.text

/-- An error as one line of text. -/
def ParseError.render (path : String) (e : ParseError) : String :=
  let place := toString e.line ++ ":" ++ toString e.column ++ ": " ++ e.message
  if path == "" then place else path ++ ":" ++ place

/-- A place among the tokens of a line or statement. -/
structure Cursor where
  /-- The token just before the place. -/
  previous : Token
  /-- The tokens left. -/
  rest : List Token
  /-- Whether the line or statement is the last of the document. -/
  atEnd : Bool
  deriving Inhabited

namespace Cursor

/-- The token at the place, or an empty one just behind the previous token when none is left. -/
def current (c : Cursor) : Token :=
  match c.rest with
  | t :: _ => t
  | [] =>
    let p := c.previous
    ⟨.eof, "", p.line, p.column + (p.stop - p.offset), p.stop, p.stop, p.line⟩

/-- The place behind the current token; at the end it stays. -/
def skip (c : Cursor) : Cursor :=
  match c.rest with
  | t :: ts => { c with previous := t, rest := ts }
  | [] => c

/-- Behind a token fewer tokens are left. -/
theorem length_skip_lt (c : Cursor) (h : c.rest ≠ []) : c.skip.rest.length < c.rest.length := by
  unfold skip
  split
  · next rest => simp [rest]
  · next rest => exact absurd rest h

/-- No token is added by reading one. -/
theorem length_skip_le (c : Cursor) : c.skip.rest.length ≤ c.rest.length := by
  unfold skip
  split
  · next rest => simp [rest]
  · exact Nat.le_refl _

/-- The place behind the last token. -/
def skipAll (c : Cursor) : Cursor :=
  { c with previous := c.rest.getLast?.getD c.previous, rest := [] }

/-- What stands at the place, for an error message. -/
def found (c : Cursor) : Found :=
  match c.rest with
  | t :: _ => .token t
  | [] => if c.atEnd then .endOfInput else .endOfLine

/-- The error that something else was expected here. -/
def error (c : Cursor) (expected : Expected) : ParseError :=
  ⟨c.current.line, c.current.column, expected, c.found⟩

end Cursor

/-- The outcome of a reader. -/
inductive Parsed (α : Type) where
  | ok (value : α) (next : Cursor)
  | error (e : ParseError) (stopped : Cursor)

/-- A reader of tokens. -/
def Parser (α : Type) : Type := Cursor → Parsed α

namespace Parser

variable {α β : Type}

/-- Reads nothing. -/
def pure (a : α) : Parser α := fun c => .ok a c

/-- Reads with one reader and goes on with the next. -/
def bind (p : Parser α) (f : α → Parser β) : Parser β := fun c =>
  match p c with
  | .ok a next => f a next
  | .error e stopped => .error e stopped

instance : Monad Parser where
  pure := pure
  bind := bind

/-- The current token, which stays. -/
def peek : Parser Token := fun c => .ok c.current c

/-- The current token, which is read. -/
def next : Parser Token := fun c => .ok c.current c.skip

/-- The token before the place. -/
def previous : Parser Token := fun c => .ok c.previous c

/-- The tokens left. -/
def remaining : Parser (List Token) := fun c => .ok c.rest c

/-- Reads all that is left. -/
def skipAll : Parser Unit := fun c => .ok () c.skipAll

/-- Fails at the current token. -/
def fail (expected : Expected) : Parser α := fun c => .error (c.error expected) c

/-- Fails at a given token for a given reason. -/
def failAt (t : Token) (expected : Expected) (found : Found) : Parser α := fun c =>
  .error ⟨t.line, t.column, expected, found⟩ c

/-- Reads the current token if it passes a test. -/
def satisfy (test : Token → Bool) (expected : Expected) : Parser Token := fun c =>
  if test c.current then .ok c.current c.skip else .error (c.error expected) c

/-- Reads an identifier. -/
def identifier (expected : Expected) : Parser Token :=
  satisfy (fun t => t.kind == .identifier) expected

/-- Reads an identifier or a keyword as written. -/
def name (expected : Expected) : Parser Token :=
  satisfy Token.isName expected

/-- Reads a character on its own. -/
def symbol (s : Char) : Parser Token :=
  satisfy (fun t => t.isSymbol s) (.symbol s)

/-- Reads a contextual word, which is not reserved. -/
def word (w : String) : Parser Token :=
  satisfy (fun t => t.isWord w) (.word w)

/-- Reads an expression in parentheses. -/
def expr (expected : Expected) : Parser Token :=
  satisfy (fun t => t.kind == .expr) expected

/-- Succeeds where nothing is left. -/
def finish (expected : Expected) : Parser Unit := fun c =>
  if c.rest.isEmpty then .ok () c else .error (c.error expected) c

/-- Whether the current token passes a test; nothing is read. -/
def sees (test : Token → Bool) : Parser Bool := fun c => .ok (test c.current) c

/-- Whether nothing is left. -/
def done : Parser Bool := fun c => .ok c.rest.isEmpty c

/-- Repeats a step until nothing is left. Every step used here reads a token; one that read none
would end the loop. -/
def repeatToEnd (step : α → Parser α) (a : α) (c : Cursor) : Parsed α :=
  if c.rest.isEmpty then .ok a c
  else match step a c with
    | .ok b after =>
      if after.rest.length < c.rest.length then repeatToEnd step b after else .ok b after
    | .error e stopped => .error e stopped
termination_by c.rest.length

/-- Reads items divided by commas up to and with a closing parenthesis, which is given with them. -/
def commaList (item : Parser α) (unfinished : Expected) (c : Cursor) : Parsed (List α × Token) :=
  match item c with
  | .error e stopped => .error e stopped
  | .ok a after =>
    if after.current.isSymbol ',' then
      if after.skip.rest.length < c.rest.length then
        match commaList item unfinished after.skip with
        | .ok (as, close) done => .ok (a :: as, close) done
        | .error e stopped => .error e stopped
      else .error (after.error unfinished) after
    else if after.current.isSymbol ')' then .ok ([a], after.current) after.skip
    else .error (after.error unfinished) after
termination_by c.rest.length

end Parser

end ErdSql.Document
