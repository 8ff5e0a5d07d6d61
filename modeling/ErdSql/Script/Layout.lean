import ErdSql.Text.Bytes
import ErdSql.Text.Split

/-!
# Statements of a script

A script is cut into pieces: semicolons, blanks, comments, quoted runs and single bytes. A statement
is what stands between two semicolons, with its comments gone and its blanks reduced to one space, or
to none next to a parenthesis or before a comma.
-/

namespace ErdSql.Script

open Text (ascii)

/-- A piece of a script. -/
inductive Piece where
  | semicolon
  /-- A blank, tab, line feed, carriage return or form feed. -/
  | blank (b : UInt8)
  | comment (bytes : List UInt8)
  /-- A string, a quoted name or a dollar-quoted body. -/
  | quoted (bytes : List UInt8)
  /-- Any other byte. -/
  | other (b : UInt8)
  deriving DecidableEq, Inhabited

/-- What stands just before a place, as far as it decides whether a quote opens an escape string. -/
inductive Before where
  | nothing
  /-- A letter, digit or underscore. -/
  | word
  /-- The letter `E` or `e` as a word of its own. -/
  | escapeMark
  deriving DecidableEq, Inhabited

/-- Whether a byte is a letter, digit or underscore of ASCII. -/
def isWordByte (b : UInt8) : Bool :=
  b == ascii '_' || (ascii 'a' ≤ b && b ≤ ascii 'z') || (ascii 'A' ≤ b && b ≤ ascii 'Z') ||
    (ascii '0' ≤ b && b ≤ ascii '9')

/-- Whether a byte is a decimal digit. -/
def isDigitByte (b : UInt8) : Bool :=
  ascii '0' ≤ b && b ≤ ascii '9'

/-- Whether a byte is a blank. -/
def isBlankByte (b : UInt8) : Bool :=
  b == ascii ' ' || b == ascii '\t' || b == ascii '\n' || b == ascii '\r' || b == ascii '\x0c'

/-- What stands before the place behind a byte. -/
def Before.push (p : Before) (b : UInt8) : Before :=
  if !isWordByte b then .nothing
  else if p == .nothing && (b == ascii 'E' || b == ascii 'e') then .escapeMark
  else .word

/-- Length of a quoted run behind its opening quote. A doubled quote does not close it, nor does a
quote behind a backslash where there are escapes. A run that is not closed goes to the end. -/
def quotedLength (quote : UInt8) (escapes : Bool) : List UInt8 → Nat
  | [] => 0
  | [_] => 1
  | a :: b :: rest =>
    if escapes && a == ascii '\\' then 2 + quotedLength quote escapes rest
    else if a == quote then if b == quote then 2 + quotedLength quote escapes rest else 1
    else 1 + quotedLength quote escapes (b :: rest)

/-- Length of a block comment inside `depth` others. Comments nest, and one that is not closed goes
to the end. -/
def commentLength (depth : Nat) : List UInt8 → Nat
  | a :: b :: rest =>
    if a == ascii '/' && b == ascii '*' then 2 + commentLength (depth + 1) rest
    else if a == ascii '*' && b == ascii '/' then
      if depth ≤ 1 then 2 else 2 + commentLength (depth - 1) rest
    else 1 + commentLength depth (b :: rest)
  | bs => bs.length

/-- The tag of a dollar-quoted body, such as `$$` or `$body$`, from the bytes behind the first
dollar. -/
def dollarTag? (bs : List UInt8) : Option (List UInt8) :=
  let name := bs.takeWhile isWordByte
  if (name.head?.map isDigitByte).getD false then none
  else match bs.drop name.length with
    | b :: _ => if b == ascii '$' then some (ascii '$' :: name ++ [ascii '$']) else none
    | [] => none

/-- Where a byte string occurs first. -/
def indexOf? (pattern : List UInt8) : List UInt8 → Option Nat
  | [] => if pattern.isEmpty then some 0 else none
  | b :: rest =>
    if pattern.isPrefixOf (b :: rest) then some 0 else (indexOf? pattern rest).map (· + 1)

/-- Length of the body behind its opening tag, with the closing tag. A body that is not closed goes
to the end. -/
def bodyLength (tag bs : List UInt8) : Nat :=
  match indexOf? tag bs with
  | some n => n + tag.length
  | none => bs.length

/-- The piece that starts with a byte, and how many bytes of it follow. -/
def pieceAt (before : Before) (b : UInt8) (rest : List UInt8) : Piece × Nat :=
  let quoted := fun n => (Piece.quoted (b :: rest.take n), n)
  let comment := fun n => (Piece.comment (b :: rest.take n), n)
  if b == ascii ';' then (.semicolon, 0)
  else if isBlankByte b then (.blank b, 0)
  else if b == ascii '-' && rest.head? == some (ascii '-') then
    comment (rest.takeWhile (· != ascii '\n')).length
  else if b == ascii '/' && rest.head? == some (ascii '*') then
    comment (commentLength 0 (b :: rest) - 1)
  else if b == ascii '\'' then quoted (quotedLength b (before == .escapeMark) rest)
  else if b == ascii '"' then quoted (quotedLength b false rest)
  else if b == ascii '$' then
    match dollarTag? rest with
    | some tag => quoted (tag.length - 1 + bodyLength tag (rest.drop (tag.length - 1)))
    | none => (.other b, 0)
  else (.other b, 0)

/-- The pieces of a script. -/
def pieces (before : Before) : List UInt8 → List Piece
  | [] => []
  | b :: rest =>
    let (piece, n) := pieceAt before b rest
    let before := match piece with
      | .other _ => before.push b
      | _ => .nothing
    piece :: pieces before (rest.drop n)
termination_by bs => bs.length
decreasing_by
  simp only [List.length_drop, List.length_cons]
  omega

/-- The bytes that a piece writes, if it writes any. A byte beyond ASCII outside quotes is taken for
the character of that number. -/
def Piece.text? : Piece → Option (List UInt8)
  | semicolon => none
  | blank _ => none
  | comment _ => none
  | quoted bytes => some bytes
  | other b => some (if b < 0x80 then [b] else String.utf8EncodeChar (Char.ofNat b.toNat))

/-- Whether blanks between a byte and the text behind them mean nothing. -/
def isTight (last : UInt8) (next : List UInt8) : Bool :=
  last == ascii '(' || next == [ascii ')'] || next == [ascii ',']

/-- The text of pieces behind a last byte, if there is one, and a gap, if there is one. -/
def layout (last : Option UInt8) (gap : Bool) : List Piece → List UInt8
  | [] => []
  | p :: ps =>
    match p.text? with
    | none => layout last true ps
    | some text =>
      let spaced : Bool := match last with
        | some b => gap && !isTight b text
        | none => false
      (if spaced then [ascii ' '] else []) ++ text ++ layout text.getLast? false ps

/-- The statements of a script in their normal layout, without those that are empty. -/
def normalize (script : List UInt8) : List (List UInt8) :=
  ((Text.splitList .semicolon (pieces .nothing script)).map fun ps =>
    Text.trimBytes (layout none false ps)).filter fun text => !text.isEmpty

end ErdSql.Script
