import ErdSql.Document.Cursor

/-!
# Parsing

The tokens of a document are cut into statements: a statement starts at the first token of a line
that stands in column one or is an entity marker. Inside an entity every line is read on its own. A
statement or line that cannot be read is reported and left out; a field keeps the constraints that
stand before the fault.
-/

namespace ErdSql.Document

open ErdSql.Document.Parser

/-- The text of a document, by the byte offsets where a part of it starts and stops. -/
abbrev Source := Nat → Nat → List Char

/-- The source text from the first to the last of some tokens, without white space around it. -/
def verbatim (src : Source) (tokens : List Token) : String :=
  match tokens, tokens.getLast? with
  | first :: _, some last =>
    String.ofList (Text.trimChars (src first.offset last.stop))
  | _, _ => ""

/-! ### Literals and lists -/

/-- Reads up to and with the parenthesis that closes the one at the front. -/
def balancedEnd (depth : Nat) : List Token → Option (Token × List Token)
  | [] => none
  | t :: ts =>
    if t.isSymbol '(' then balancedEnd (depth + 1) ts
    else if t.isSymbol ')' then
      if depth ≤ 1 then some (t, ts) else balancedEnd (depth - 1) ts
    else balancedEnd depth ts

/-- Reads tokens in balanced parentheses and gives the closing one. -/
def balanced : Parser Token := fun c =>
  match balancedEnd 0 c.rest with
  | some (close, rest) => .ok close { c with previous := close, rest := rest }
  | none => .error (c.skipAll.error (.symbol ')')) c.skipAll

/-- Reads a constant: a number with an optional minus, a string, a list, `NULL`, a name or a call. -/
def literal (src : Source) : Parser Literal := do
  let t ← peek
  match t.kind with
  | .number =>
    let t ← next
    return ⟨.number, t.spelling, t.span⟩
  | .string =>
    let t ← next
    return ⟨.string, t.spelling, t.span⟩
  | .list =>
    let t ← next
    return ⟨.list, t.spelling, t.span⟩
  | .keyword .null =>
    let t ← next
    return ⟨.null, Keyword.null.word, t.span⟩
  | .identifier =>
    let t ← next
    if ← sees (·.isSymbol '(') then
      let close ← balanced
      return ⟨.call, String.ofList (src t.offset close.stop), Span.between t close⟩
    else return ⟨.identifier, t.spelling, t.span⟩
  | _ =>
    match ← remaining with
    | minus :: digits :: _ =>
      if minus.isSymbol '-' && digits.kind == .number then
        let _ ← next
        let digits ← next
        return ⟨.number, "-" ++ digits.spelling, Span.between minus digits⟩
      else fail .literal
    | _ => fail .literal

/-- Reads type arguments in parentheses and gives the closing one with them. -/
def typeArguments (src : Source) : Parser (List Literal × Token) := do
  let _ ← next
  if ← sees (·.isSymbol ')') then
    let close ← next
    return ([], close)
  else commaList (literal src) .typeArgumentsEnd

/-- Reads names in parentheses; there may be none. -/
def nameList (item : ListItem) : Parser (List String) := do
  let _ ← symbol '('
  if ← sees (·.isSymbol ')') then
    let _ ← next
    return []
  else
    let (names, _) ← commaList (name (.listItem item)) (.listItemsEnd item)
    return names.map (·.spelling)

/-! ### Fields -/

/-- Reads one constraint. -/
def constraint (src : Source) : Parser Constraint := do
  let t ← peek
  match t.kind with
  | .keyword .pk =>
    let t ← next
    return ⟨.primaryKey, t.span⟩
  | .keyword .unique =>
    let t ← next
    return ⟨.unique, t.span⟩
  | .keyword .not =>
    let t ← next
    let null ← satisfy (·.isKeyword .null) .nullAfterNot
    return ⟨.notNull, Span.between t null⟩
  | .keyword .default =>
    let t ← next
    let value ← literal src
    return ⟨.default value, Span.between t (← previous)⟩
  | .keyword .fk =>
    let t ← next
    if ← sees (·.isSymbol '(') then
      let _ ← next
      let target ← name .targetEntity
      let close ← symbol ')'
      return ⟨.foreignKey (some target.spelling), Span.between t close⟩
    else return ⟨.foreignKey none, t.span⟩
  | .keyword .check =>
    let t ← next
    let e ← expr .checkExpression
    return ⟨.check e.spelling, Span.between t e⟩
  | .keyword .null => fail .notBeforeNull
  | _ => fail .constraint

/-- The constraints up to the first fault or the end, the span that covers them, the fault, and the
place where reading stopped. -/
def constraints (src : Source) (span : Span) (c : Cursor) :
    List Constraint × Span × Option ParseError × Cursor :=
  if c.rest.isEmpty then ([], span, none, c)
  else match constraint src c with
    | .error e stopped => ([], span, some e, stopped)
    | .ok k after =>
      if after.rest.length < c.rest.length then
        let (ks, all, fault, stopped) := constraints src (span.extend after.previous) after
        (k :: ks, all, fault, stopped)
      else ([k], span.extend after.previous, none, after)
termination_by c.rest.length

/-- Whether a token may name a type: an identifier or any keyword but `HAS`. -/
def isTypeName (t : Token) : Bool :=
  t.isName && !t.isKeyword .has

/-- Whether a token is a sigil without a name behind it. -/
def isBareSigil (t : Token) : Bool :=
  t.isSymbol '$' || t.isSymbol '@' || t.isSymbol '%'

/-- Reads the sigil and name of a field. -/
def fieldName : Parser (Token × Cardinality) := do
  let t ← peek
  match t.kind with
  | .field cardinality =>
    let t ← next
    return (t, cardinality)
  | _ =>
    if isBareSigil t then
      let _ ← next
      fun c => .error ⟨t.line, t.column, .nameAfterSigil t.spelling, c.found⟩ c
    else fail .sigilField

/-- Reads a field line up to its constraints. -/
def fieldHead (src : Source) : Parser Field := do
  let start ← peek
  let has ← sees (·.isKeyword .has)
  if has then
    let _ ← next
  let type ← satisfy isTypeName .typeName
  if ← sees (·.isSymbol '(') then
    let (args, close) ← typeArguments src
    let (t, cardinality) ← fieldName
    return ⟨has, ⟨type.spelling, args, Span.between type close⟩, cardinality, t.spelling, [],
      Span.between start t⟩
  else
    let (t, cardinality) ← fieldName
    return ⟨has, ⟨type.spelling, [], type.span⟩, cardinality, t.spelling, [], Span.between start t⟩

/-! ### Lines of an entity -/

/-- What a line of an entity contributes. -/
inductive LineItem where
  | field (field : Field)
  | key (key : KeyLine)
  | directive (directive : Directive)
  deriving DecidableEq, Inhabited

/-- The outcome of reading one line of an entity. -/
structure LineResult where
  item : Option LineItem
  fault : Option ParseError
  /-- The last token that was read. -/
  last : Token
  deriving Inhabited

/-- The outcome of a reader that gives a whole line or nothing. -/
def LineResult.ofParsed {α : Type} (wrap : α → LineItem) : Parsed α → LineResult
  | .ok a next => ⟨some (wrap a), none, next.previous⟩
  | .error e stopped => ⟨none, some e, stopped.previous⟩

/-- Reads a field line; constraints before a fault are kept. -/
def fieldLine (src : Source) (c : Cursor) : LineResult :=
  match fieldHead src c with
  | .error e stopped => ⟨none, some e, stopped.previous⟩
  | .ok field next =>
    let (cs, span, fault, stopped) := constraints src field.span next
    ⟨some (.field { field with constraints := cs, span := span }), fault, stopped.previous⟩

/-- Reads a line `PK(...)` or `UNIQUE(...)`. -/
def keyLine (key : List String → Key) : Parser KeyLine := do
  let t ← next
  if ← sees (·.isSymbol '(') then
    let columns ← nameList .field
    finish .endOfLine
    return ⟨key columns, Span.between t (← previous)⟩
  else fail (.openingAfterKey t.text)

/-- Reads a line `CHECK (...)`. -/
def checkLine : Parser KeyLine := do
  let t ← next
  let e ← expr .checkExpression
  finish .endOfLine
  return ⟨.check e.spelling, Span.between t e⟩

/-- Reads one clause of a policy. -/
def policyClause (p : Policy) : Parser Policy := do
  if ← sees (·.isWord "FOR") then
    let _ ← next
    let t ← identifier .policyCommand
    return { p with command := Text.upper t.spelling }
  else if ← sees (·.isWord "TO") then
    let _ ← next
    let t ← identifier .policyRole
    return { p with role := t.spelling }
  else if ← sees (·.isWord "USING") then
    let _ ← next
    let e ← expr .usingExpression
    return { p with usingExpr := e.spelling }
  else if ← sees (·.isWord "WITH") then
    let _ ← next
    let _ ← satisfy (·.isKeyword .check) .checkAfterWith
    let e ← expr .withCheckExpression
    return { p with withCheck := e.spelling }
  else fail .policyClause

/-- Reads what stands behind the keyword of a feature line. -/
def feature (src : Source) (keyword : Keyword) : Parser Feature := do
  match keyword with
  | .partition =>
    let _ ← word "BY"
    let strategy ← identifier .partitionStrategy
    let columns ← nameList .partitionColumn
    return .partition (Text.upper strategy.spelling) columns
  | .ttl =>
    let _ ← symbol '('
    let column ← name .ttlColumn
    let _ ← symbol ','
    let interval ← literal src
    let _ ← symbol ')'
    return .ttl column.spelling interval
  | .fts =>
    let columns ← nameList .searchColumn
    if ← sees (·.isWord "USING") then
      let _ ← next
      let method ← identifier .indexMethod
      return .fts columns (Text.upper method.spelling)
    else return .fts columns "GIN"
  | .rls =>
    if ← done then return .rls .enable
    else
      let t ← peek
      match t.kind, SecurityMode.ofText? t.spelling with
      | .identifier, some mode =>
        let _ ← next
        return .rls mode
      | _, _ => fail .securityMode
  | .policy =>
    let t ← identifier .policyName
    let policy ← repeatToEnd policyClause ⟨t.spelling, "", "", "", ""⟩
    return .policy policy
  | .softDelete =>
    let columns ← nameList .softDeleteField
    match columns with
    | [column] => return .softDelete column
    | _ => failAt (← previous) .oneSoftDeleteField (.fields columns.length)
  | _ => return .auditable

/-- Reads a feature line. -/
def directiveLine (src : Source) (keyword : Keyword) : Parser Directive := do
  let t ← next
  let f ← feature src keyword
  finish .endOfLine
  return ⟨f, Span.between t (← previous)⟩

/-- Whether the tokens behind the first one, after arguments in parentheses, go on with a field
name. The tokens at the front are inside `depth` parentheses. -/
def fieldBehindArguments (depth : Nat) : List Token → Bool
  | [] => false
  | t :: ts =>
    if t.isSymbol '(' then fieldBehindArguments (depth + 1) ts
    else if t.isSymbol ')' then
      if depth ≤ 1 then
        match ts with
        | u :: _ => match u.kind with
          | .field _ => true
          | _ => false
        | [] => false
      else fieldBehindArguments (depth - 1) ts
    else fieldBehindArguments depth ts

/-- Whether a line that starts with a keyword is a field line: a field name follows the keyword and
its arguments. -/
def startsField : List Token → Bool
  | _ :: t :: ts =>
    if t.isSymbol '(' then fieldBehindArguments 0 (t :: ts)
    else match t.kind with
      | .field _ => true
      | _ => false
  | _ => false

/-- Reads a line of an entity. -/
def entityLine (src : Source) (c : Cursor) : LineResult :=
  match c.current.kind with
  | .identifier => fieldLine src c
  | .keyword k =>
    if startsField c.rest then fieldLine src c
    else match k with
      | .pk => .ofParsed .key (keyLine .primary c)
      | .unique => .ofParsed .key (keyLine .unique c)
      | .check => .ofParsed .key (checkLine c)
      | .partition | .ttl | .fts | .rls | .policy | .auditable | .softDelete =>
        .ofParsed .directive (directiveLine src k c)
      | _ => fieldLine src c
  | _ => ⟨none, some (c.error .fieldOrConstraint), c.previous⟩

/-- The tokens grouped by line: a token goes with the previous ones unless it stands on a later line
than they end on. -/
def lineGroups : List Token → List (List Token)
  | [] => []
  | t :: ts => go t.endLine [t] ts
where
  /-- Collects the current line, reversed, which ends on line `last` so far. -/
  go (last : Nat) (line : List Token) : List Token → List (List Token)
    | [] => [line.reverse]
    | t :: ts =>
      if t.line > last then line.reverse :: go t.endLine [t] ts
      else go (max last t.endLine) (t :: line) ts

/-- The outcomes of the lines of an entity. -/
def entityLines (src : Source) (atEnd : Bool) (previous : Token) :
    List (List Token) → List LineResult
  | [] => []
  | line :: rest =>
    entityLine src ⟨previous, line, atEnd && rest.isEmpty⟩ ::
      entityLines src atEnd (line.getLast?.getD previous) rest

/-- The field that a line contributes. -/
def LineResult.field? (r : LineResult) : Option Field :=
  match r.item with
  | some (.field f) => some f
  | _ => none

/-- The key line that a line contributes. -/
def LineResult.key? (r : LineResult) : Option KeyLine :=
  match r.item with
  | some (.key k) => some k
  | _ => none

/-- The feature line that a line contributes. -/
def LineResult.directive? (r : LineResult) : Option Directive :=
  match r.item with
  | some (.directive d) => some d
  | _ => none

/-- Reads an entity from its marker and the tokens behind it. Text behind the marker on its line is
an error, and the line is passed over. -/
def entity (src : Source) (head : Token) (tokens : List Token) (atEnd : Bool) :
    Entity × List ParseError :=
  let groups := lineGroups tokens
  let stray : Bool := match tokens with
    | t :: _ => t.line ≤ head.endLine
    | [] => false
  let first : Cursor := ⟨head, tokens, atEnd⟩
  let errors := if stray then [first.error .endOfLineAfterEntity] else []
  let skipped := if stray then groups.head?.getD [] else []
  let body := if stray then groups.drop 1 else groups
  let results := entityLines src atEnd (skipped.getLast?.getD head) body
  (⟨head.spelling, head.span, results.filterMap (·.field?), results.filterMap (·.key?),
      results.filterMap (·.directive?), results.foldl (fun s r => s.extend r.last) head.span⟩,
    errors ++ results.filterMap (·.fault))

/-! ### Other statements -/

/-- The items of a list literal: cut at commas outside quotes and inner brackets, without white space
around them and without quotes; empty items are left out. -/
def listItems (cs : List Char) : List String :=
  let inner := Text.trimChars cs
  let inner := match inner with
    | '[' :: rest => rest
    | _ => inner
  let inner := match inner.getLast? with
    | some ']' => inner.dropLast
    | _ => inner
  go [] none 0 inner
where
  /-- The item collected so far, reversed, if it is not blank. -/
  item (collected : List Char) : List String :=
    let cs := Text.trimChars collected.reverse
    if cs.isEmpty then [] else [String.ofList (Token.unquoteChars cs)]
  /-- Collects the current item, reversed, inside the given quote and inner brackets. -/
  go (collected : List Char) (quote : Option Char) (depth : Int) : List Char → List String
    | [] => item collected
    | c :: cs =>
      match quote with
      | some q => go (c :: collected) (if c == q then none else quote) depth cs
      | none =>
        if c == '\'' || c == '"' then go (c :: collected) (some c) depth cs
        else if c == '[' then go (c :: collected) none (depth + 1) cs
        else if c == ']' then go (c :: collected) none (depth - 1) cs
        else if c == ',' && depth == 0 then item collected ++ go [] none depth cs
        else go (c :: collected) none depth cs

/-- The label that a token of an enumeration spells. -/
def label? (t : Token) : Option String :=
  match t.kind with
  | .identifier | .keyword _ => some t.spelling
  | .string => some (Token.unquote t.spelling)
  | _ => none

/-- A label is a token of its own, so some token is left at it. -/
theorem rest_ne_nil_of_label? {c : Cursor} {label : String} (h : label? c.current = some label) :
    c.rest ≠ [] := by
  intro none
  simp [Cursor.current, none, label?] at h

/-- Reads the labels of an enumeration behind the opening brace, up to and with the closing one. A
comma may follow the last label. -/
def enumLabels (c : Cursor) : Parsed (List Variant) :=
  if c.current.isSymbol '\x7d' then .ok [] c.skip
  else
    match _ : label? c.current with
    | none => .error (c.error .enumLabel) c
    | some label =>
      if c.skip.current.isSymbol ',' || c.skip.current.isSymbol '\x7d' then
        match enumLabels (if c.skip.current.isSymbol ',' then c.skip.skip else c.skip) with
        | .ok labels done => .ok (⟨label, c.current.span⟩ :: labels) done
        | .error e stopped => .error e stopped
      else .error (c.skip.error .enumLabelEnd) c.skip
termination_by c.rest.length
decreasing_by
  have shorter : c.skip.rest.length < c.rest.length :=
    c.length_skip_lt (rest_ne_nil_of_label? ‹label? c.current = some label›)
  split
  · exact Nat.lt_of_le_of_lt c.skip.length_skip_le shorter
  · exact shorter

/-- Reads the labels of an enumeration in braces or brackets. -/
def variants : Parser (List Variant) := do
  let t ← peek
  match t.kind with
  | .list =>
    let t ← next
    return (listItems t.spelling.toList).map fun label => ⟨label, t.span⟩
  | _ =>
    if t.isSymbol '\x7b' then
      let _ ← next
      enumLabels
    else fail .enumLabels

/-- Reads an enumeration behind its keyword. -/
def enumStatement (head : Token) : Parser Enum := do
  let t ← identifier .enumName
  let labels ← variants
  finish .endOfStatement
  return ⟨t.spelling, labels, Span.between head (← previous)⟩

/-- Reads an index behind its keyword. -/
def indexStatement (src : Source) (head : Token) : Parser Index := do
  let unique ← sees (·.isKeyword .unique)
  if unique then
    let _ ← next
  let t ← identifier .indexName
  let _ ← word "ON"
  let table ← name .indexedEntity
  let columns ← nameList .indexColumn
  let tail ← remaining
  skipAll
  return ⟨t.spelling, unique, table.spelling, columns, verbatim src tail,
    Span.between head (← previous)⟩

/-- Reads a materialized view behind its keyword. -/
def viewStatement (src : Source) (head : Token) : Parser View := do
  let _ ← satisfy (·.isKeyword .view) .viewAfterMaterialized
  let t ← identifier .viewName
  let _ ← word "AS"
  let body ← remaining
  if body.isEmpty then fail .viewBody
  else
    skipAll
    return ⟨t.spelling, verbatim src body, Span.between head (← previous)⟩

/-- The tokens before `EXECUTE PROCEDURE` and the tokens behind it. -/
def splitAtExecute : List Token → Option (List Token × List Token)
  | e :: p :: rest =>
    if e.isKeyword .execute && p.isKeyword .procedure then some ([], rest)
    else (splitAtExecute (p :: rest)).map fun (before, behind) => (e :: before, behind)
  | _ => none

/-- Reads a trigger behind its keyword. -/
def triggerStatement (src : Source) (head : Token) : Parser Trigger := do
  let t ← identifier .triggerName
  match splitAtExecute (← remaining) with
  | none =>
    skipAll
    failAt (← peek) .executeProcedure .endOfStatement
  | some ([], _) => fail .triggerTiming
  | some (_, []) =>
    skipAll
    fail .procedureCall
  | some (timing, call) =>
    skipAll
    return ⟨t.spelling, verbatim src timing, verbatim src call, Span.between head (← previous)⟩

/-- Reads an extension behind its keyword. -/
def extensionStatement (src : Source) (head : Token) : Parser Extension := do
  let tokens ← remaining
  if tokens.isEmpty then fail .extensionName
  else
    let name := match tokens with
      | [t] => if t.kind == .string then Token.unquote t.spelling else verbatim src tokens
      | _ => verbatim src tokens
    if name.toList.any fun c => c == ' ' || c == '\t' || c == '\n' then fail .singleExtensionName
    else
      skipAll
      return ⟨name, Span.between head (← previous)⟩

/-- What the handler makes of a plugin statement. -/
def handledBlock (handler : Plugin.Handler) (head : Token) (block : Plugin.Block) : Parser Block := do
  match handler.parse block with
  | .ok node => return ⟨block, node⟩
  | .error reason => failAt head (.validBlock block.keyword) (.refusal reason)

/-- Reads a plugin statement behind its keyword with the handler of the keyword. -/
def blockStatement (src : Source) (handler : Plugin.Handler) (head : Token) : Parser Block := do
  let body := verbatim src (← remaining)
  skipAll
  handledBlock handler head ⟨Text.upper head.spelling, body, Span.between head (← previous)⟩

/-! ### Whole documents -/

/-- Whether a token starts a statement behind the given previous token. -/
def opensStatement (previous t : Token) : Bool :=
  t.line > previous.endLine && !t.isSymbol '\x7d' && !t.isSymbol ')' &&
    (t.column == 1 || t.kind == .entity)

/-- The tokens grouped by statement. -/
def statementGroups : List Token → List (Token × List Token)
  | [] => []
  | t :: ts => go t t [] ts
where
  /-- Collects the tokens behind the head of the current statement, reversed. -/
  go (head previous : Token) (collected : List Token) : List Token → List (Token × List Token)
    | [] => [(head, collected.reverse)]
    | t :: ts =>
      if opensStatement previous t then (head, collected.reverse) :: go t t [] ts
      else go head t (t :: collected) ts

/-- What a statement group gives: a statement, or none when it could not be read. -/
structure StatementResult where
  statement : Option Statement
  errors : List ParseError
  deriving Inhabited

/-- The outcome of a reader that gives a whole statement or nothing. -/
def StatementResult.ofParsed {α : Type} (wrap : α → Statement) : Parsed α → StatementResult
  | .ok a _ => ⟨some (wrap a), []⟩
  | .error e _ => ⟨none, [e]⟩

/-- Reads one statement. While recovering from a statement that could not be read, further text that
opens no statement is passed over in silence. -/
def readStatement (src : Source) (plugins : Plugin.Registry) (recovering : Bool) (head : Token)
    (tokens : List Token) (atEnd : Bool) : StatementResult :=
  let c : Cursor := ⟨head, tokens, atEnd⟩
  let unknown : StatementResult :=
    ⟨none, if recovering then [] else [⟨head.line, head.column, .statement, .token head⟩]⟩
  match head.kind with
  | .entity =>
    let (e, errors) := entity src head tokens atEnd
    ⟨some (.entity e), errors⟩
  | .keyword .enum => .ofParsed .enum (enumStatement head c)
  | .keyword .index => .ofParsed .index (indexStatement src head c)
  | .keyword .materialized => .ofParsed .view (viewStatement src head c)
  | .keyword .trigger => .ofParsed .trigger (triggerStatement src head c)
  | .keyword .extension => .ofParsed .extension (extensionStatement src head c)
  | .identifier =>
    if head.column == 1 then
      match plugins.lookup head.spelling with
      | some handler => .ofParsed .block (blockStatement src handler head c)
      | none => unknown
    else unknown
  | _ => unknown

/-- Reads the statements one after another. -/
def readStatements (src : Source) (plugins : Plugin.Registry) (recovering : Bool) :
    List (Token × List Token) → List Statement × List ParseError
  | [] => ([], [])
  | (head, tokens) :: rest =>
    let result := readStatement src plugins recovering head tokens rest.isEmpty
    let (more, errors) := readStatements src plugins result.statement.isNone rest
    (result.statement.toList ++ more, result.errors ++ errors)

/-- The document that tokens make up, and what was wrong. The source must be the text that the tokens
were scanned from. -/
def ofTokens (path : String) (src : List Char) (plugins : Plugin.Registry) (tokens : List Token) :
    Document × List ParseError :=
  let (stmts, errors) := readStatements (Text.slice src) plugins false
    (statementGroups (tokens.takeWhile fun t => t.kind != .eof))
  (⟨path, stmts⟩, errors)

end ErdSql.Document
