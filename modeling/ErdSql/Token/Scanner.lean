import ErdSql.Text.Bytes
import ErdSql.Text.Digit
import ErdSql.Text.Letter
import ErdSql.Token

/-!
# Scanning

A document is cut into tokens from left to right. What stands at the front decides how many
characters the next token takes; white space and comments are skipped. A fault is recorded and
scanning goes on at the end of its line, except that an expression that is never closed takes the
rest of the document.
-/

namespace ErdSql

/-- A place in a document. -/
structure Position where
  offset : Nat
  line : Nat
  column : Nat
  deriving DecidableEq, Inhabited

namespace Position

/-- The first place of a document. -/
def start : Position := ⟨0, 1, 1⟩

/-- The place after one more character. -/
def advance (p : Position) (c : Char) : Position :=
  if c == '\n' then ⟨p.offset + c.utf8Size, p.line + 1, 1⟩
  else ⟨p.offset + c.utf8Size, p.line, p.column + 1⟩

/-- The place after some more characters. -/
def advanceBy (p : Position) (cs : List Char) : Position :=
  cs.foldl advance p

end Position

/-- What can be wrong with the text of a document. -/
inductive ScanFault where
  | notUtf8
  | openString
  | openList
  | openStringInList
  | openExpression
  | openStringInExpression
  | unexpectedBracket (bracket : Char)
  deriving DecidableEq, Inhabited

/-- The wording of a fault. -/
def ScanFault.message : ScanFault → String
  | notUtf8 => "input is not valid UTF-8"
  | openString => "unterminated string literal"
  | openList => "unterminated list literal"
  | openStringInList => "unterminated string literal in list"
  | openExpression => "unbalanced parenthesis: expression is never closed"
  | openStringInExpression => "unterminated string literal in expression"
  | unexpectedBracket c => "unbalanced bracket: unexpected " ++ Text.quotedSingle c

/-- A fault and where it was found. -/
structure ScanError where
  fault : ScanFault
  line : Nat
  column : Nat
  deriving DecidableEq, Inhabited

/-- A fault as one line of text. -/
def ScanError.render (path : String) (e : ScanError) : String :=
  let place := toString e.line ++ ":" ++ toString e.column ++ ": " ++ e.fault.message
  if path == "" then place else path ++ ":" ++ place

/-- The outcome of scanning: the tokens, of which the last marks the end, and the faults. -/
structure Scan where
  tokens : List Token
  errors : List ScanError
  deriving DecidableEq, Inhabited

namespace Scan

/-- Whether a character may start a name. -/
def isNameStart (c : Char) : Bool :=
  c == '_' || Text.isLetter c

/-- Whether a character may stand in a name. -/
def isNamePart (c : Char) : Bool :=
  isNameStart c || Text.isDigit c

/-- Whether a text starts with a character that may start a name. -/
def startsName : List Char → Bool
  | c :: _ => isNameStart c
  | [] => false

/-- Number of characters of the name at the front: name characters, and a `/` or `.` wherever the
start of a name follows it. -/
def nameLength : List Char → Nat
  | [] => 0
  | c :: cs =>
    if isNamePart c then nameLength cs + 1
    else if (c == '/' || c == '.') && startsName cs then nameLength cs + 1
    else 0

/-- Number of ASCII digits at the front. -/
def digitsLength (cs : List Char) : Nat :=
  (cs.takeWhile Char.isDigit).length

/-- Number of characters of the number at the front: digits, and a fraction if a digit follows the
point. -/
def numberLength (cs : List Char) : Nat :=
  let whole := digitsLength cs
  match cs.drop whole with
  | '.' :: d :: rest => if d.isDigit then whole + 1 + digitsLength (d :: rest) else whole
  | _ => whole

/-- Number of characters before the end of the line. -/
def lineLength (cs : List Char) : Nat :=
  (cs.takeWhile (· != '\n')).length

/-- Number of characters up to and with the quote that closes a string, counted behind the opening
quote. A doubled quote stands for itself; a string does not go past its line. -/
def stringLength? (quote : Char) : List Char → Option Nat
  | [] => none
  | c :: cs =>
    if c == '\n' then none
    else if c == quote then
      match cs with
      | [] => some 1
      | d :: ds => if d == quote then (stringLength? quote ds).map (· + 2) else some 1
    else (stringLength? quote cs).map (· + 1)

/-- How a list or expression ends. -/
inductive Enclosed where
  /-- It is closed after this many characters behind the opening bracket. -/
  | closed (length : Nat)
  /-- It is not closed. -/
  | unclosed
  /-- The string that starts after this many characters is not closed. -/
  | openString (before : Nat)
  /-- After this many characters stands a bracket that closes nothing. -/
  | unexpected (before : Nat) (bracket : Char)
  deriving DecidableEq

/-- Reads a list behind its opening bracket. `n` characters have been read, `depth` brackets are
open besides the first, and `inside` holds the quote of the string being read and its place. -/
def listEnd (n depth : Nat) (inside : Option (Char × Nat)) : List Char → Enclosed
  | [] =>
    match inside with
    | some (_, before) => .openString before
    | none => .unclosed
  | c :: cs =>
    match inside with
    | some (quote, before) =>
      if c == '\n' then .openString before
      else if c == quote then
        match cs with
        | [] => .unclosed
        | d :: ds =>
          if d == quote then listEnd (n + 2) depth inside ds else listEnd (n + 1) depth none (d :: ds)
      else listEnd (n + 1) depth inside cs
    | none =>
      if c == '\n' then .unclosed
      else if c == '\'' || c == '"' then listEnd (n + 1) depth (some (c, n)) cs
      else if c == '[' then listEnd (n + 1) (depth + 1) none cs
      else if c == ']' then
        match depth with
        | 0 => .closed (n + 1)
        | depth + 1 => listEnd (n + 1) depth none cs
      else listEnd (n + 1) depth none cs

/-- The bracket that a closing bracket needs. -/
def openingBracket (c : Char) : Char :=
  if c == ']' then '[' else '('

/-- Reads an expression behind its opening parenthesis. `n` characters have been read, `stack` holds
the open brackets, innermost first, and `inside` the quote of the string being read and its place.
Strings end on their line, the expression need not. -/
def exprEnd (n : Nat) (stack : List Char) (inside : Option (Char × Nat)) : List Char → Enclosed
  | [] =>
    match inside with
    | some (_, before) => .openString before
    | none => .unclosed
  | c :: cs =>
    match inside with
    | some (quote, before) =>
      if c == '\n' then .openString before
      else if c == quote then
        match cs with
        | [] => .unclosed
        | d :: ds =>
          if d == quote then exprEnd (n + 2) stack inside ds else exprEnd (n + 1) stack none (d :: ds)
      else exprEnd (n + 1) stack inside cs
    | none =>
      if c == '\'' || c == '"' then exprEnd (n + 1) stack (some (c, n)) cs
      else if c == '(' || c == '[' then exprEnd (n + 1) (c :: stack) none cs
      else if c == ')' || c == ']' then
        match stack with
        | [] => .unexpected n c
        | bracket :: outer =>
          if bracket == openingBracket c then
            if outer.isEmpty then .closed (n + 1) else exprEnd (n + 1) outer none cs
          else .unexpected n c
      else exprEnd (n + 1) stack none cs

/-- What the scanner does with the text at the front; counts leave out the first character. -/
inductive Step where
  /-- Skips the first character and `more`. -/
  | skip (more : Nat)
  /-- Makes a token of the first character and `more`. -/
  | token (kind : Token.Kind) (spelling : String) (more : Nat)
  /-- Records a fault that stands `before` characters after the first and skips the first character
  and `more`. -/
  | fault (fault : ScanFault) (before more : Nat)
  deriving DecidableEq

/-- A fault after which scanning goes on at the end of its line. -/
def faultAt (fault : ScanFault) (before : Nat) (cs : List Char) : Step :=
  .fault fault before (before + lineLength (cs.drop before))

/-- The token for a name: a keyword or an identifier. -/
def nameToken (name : List Char) : Token.Kind :=
  match Keyword.ofText? (String.ofList name) with
  | some k => .keyword k
  | none => .identifier

/-- The step for a list that opens in front of `cs`. -/
def listStep (cs : List Char) : Step :=
  match listEnd 0 0 none cs with
  | .closed n => .token .list (String.ofList ('[' :: cs.take n)) n
  | .openString _ => faultAt .openStringInList 0 cs
  | _ => faultAt .openList 0 cs

/-- The step for an expression that opens in front of `cs`. -/
def exprStep (cs : List Char) : Step :=
  match exprEnd 0 ['('] none cs with
  | .closed n => .token .expr (String.ofList (Text.trimChars (cs.take (n - 1)))) n
  | .unclosed => .fault .openExpression 0 cs.length
  | .openString before => faultAt .openStringInExpression (before + 1) cs
  | .unexpected before bracket => faultAt (.unexpectedBracket bracket) (before + 1) cs

/-- What to do with the text `c :: cs`. A parenthesis opens an expression only where `opens` says
so. -/
def step (opens : Bool) (c : Char) (cs : List Char) : Step :=
  if Text.isSpace c then .skip 0
  else if c == '#' || (c == ';' && cs.head? == some ';') then .skip (lineLength cs)
  else if c == ':' && startsName cs then
    let n := nameLength cs
    .token .entity (String.ofList (cs.take n)) n
  else if (Cardinality.ofSigil? c).isSome && cs.head? == some '.' && startsName (cs.drop 1) then
    let n := nameLength (cs.drop 1)
    .token (.field ((Cardinality.ofSigil? c).getD .scalar))
      (String.ofList ((cs.drop 1).take n)) (n + 1)
  else if c == '\'' || c == '"' then
    match stringLength? c cs with
    | some n => .token .string (String.ofList (c :: cs.take n)) n
    | none => faultAt .openString 0 cs
  else if c == '[' then listStep cs
  else if c == '(' && opens then exprStep cs
  else if isNameStart c then
    let n := nameLength cs
    .token (nameToken (c :: cs.take n)) (String.ofList (c :: cs.take n)) n
  else if c.isDigit then
    let n := numberLength (c :: cs) - 1
    .token .number (String.ofList (c :: cs.take n)) n
  else .token .symbol (String.singleton c) 0

/-- Whether a parenthesis behind this token opens an expression. -/
def opensExpr (kind : Token.Kind) (spelling : String) : Bool :=
  match kind with
  | .keyword .check => true
  | .identifier => Text.spells "USING" spelling
  | _ => false

/-- The outcome of scanning a text that starts at a place; `opens` says whether a parenthesis at the
front of the next token opens an expression. -/
def scanFrom (opens : Bool) (p : Position) : List Char → Scan
  | [] => ⟨[⟨.eof, "", p.line, p.column, p.offset, p.offset, p.line⟩], []⟩
  | c :: cs =>
    match step opens c cs with
    | .skip more => scanFrom opens (p.advanceBy (c :: cs.take more)) (cs.drop more)
    | .token kind spelling more =>
      let next := p.advanceBy (c :: cs.take more)
      let token : Token := ⟨kind, spelling, p.line, p.column, p.offset, next.offset, next.line⟩
      let rest := scanFrom (opensExpr kind spelling) next (cs.drop more)
      { rest with tokens := token :: rest.tokens }
    | .fault fault before more =>
      let place := p.advanceBy ((c :: cs).take before)
      let rest := scanFrom opens (p.advanceBy (c :: cs.take more)) (cs.drop more)
      { rest with errors := ⟨fault, place.line, place.column⟩ :: rest.errors }
termination_by cs => cs.length
decreasing_by all_goals simp only [List.length_cons, List.length_drop]; omega

/-- The tokens and faults of a text. -/
def ofChars (cs : List Char) : Scan :=
  scanFrom false .start cs

/-- The tokens and faults of a document. Bytes that are not UTF-8 give a single fault and no
token. -/
def ofBytes (bs : List UInt8) : Scan :=
  match Text.decode? bs with
  | some cs => ofChars cs
  | none => ⟨[], [⟨.notUtf8, 1, 1⟩]⟩

end Scan

end ErdSql
