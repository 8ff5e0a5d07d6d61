/-!
# Places in a YAML text

A cursor knows the characters ahead and how many stand before it, in the text and in the line. Here are
the steps that do not depend on the structure of the text: blanks, line ends, comments and marks.
-/

namespace ErdSql.Yaml

/-- A place in a text. Lines count from one, columns and characters from zero. -/
structure Cursor where
  rest : List Char
  index : Nat
  line : Nat
  column : Nat
  deriving Inhabited

namespace Cursor

/-- Whether a character is a blank or tab. -/
def isBlank (ch : Char) : Bool := ch == ' ' || ch == '\t'

/-- Whether a character ends a line. -/
def isBreak (ch : Char) : Bool :=
  ch == '\n' || ch == '\u0085' || ch == '\u2028' || ch == '\u2029'

/-- What a line end is in the text of a scalar. -/
def breakText (ch : Char) : Char := if ch == '\u0085' then '\n' else ch

/-- The place behind the next character. -/
def advance (c : Cursor) : Cursor :=
  match c.rest with
  | [] => c
  | ch :: rest =>
    if isBreak ch then ⟨rest, c.index + 1, c.line + 1, 0⟩
    else ⟨rest, c.index + 1, c.line, c.column + 1⟩

/-- The place behind the next `n` characters. -/
def skip (c : Cursor) : Nat → Cursor
  | 0 => c
  | n + 1 => c.advance.skip n

/-- The place behind the characters that satisfy a condition. -/
def skipWhile (p : Char → Bool) (c : Cursor) : Cursor :=
  c.skip (c.rest.takeWhile p).length

/-- The end of the line. -/
def toLineEnd (c : Cursor) : Cursor :=
  c.skipWhile fun ch => !isBreak ch

/-- Whether characters start with a blank, a line end or the end of the text. -/
def isGap : List Char → Bool
  | [] => true
  | ch :: _ => isBlank ch || isBreak ch

/-- Whether a line is at its end. -/
def isLineEnd : List Char → Bool
  | [] => true
  | ch :: _ => isBreak ch

/-- Whether a marker of three equal characters stands alone at the start of a line. -/
def atMarker (mark : Char) (c : Cursor) : Bool :=
  c.column == 0 && c.rest.take 3 == [mark, mark, mark] && isGap (c.rest.drop 3)

/-- Whether a document starts or ends here. -/
def atDocumentMark (c : Cursor) : Bool :=
  c.atMarker '-' || c.atMarker '.'

/-! ### Comments -/

/-- The end of a comment. Comments in the lines below belong to it, with any blanks and empty lines
between them. -/
def skipComments : Nat → Cursor → Cursor
  | 0, c => c
  | fuel + 1, c =>
    let stop := c.toLineEnd
    match stop.rest with
    | '\n' :: _ =>
      let next := stop.skipWhile fun ch => isBlank ch || ch == '\n'
      if next.rest.head? == some '#' then skipComments fuel next else stop
    | _ => stop

/-- The place behind a comment in the same line, if one follows. -/
def skipLineComment (c : Cursor) : Cursor :=
  let next := c.skipWhile isBlank
  if next.rest.head? == some '#' then next.toLineEnd else c

/-- The next token behind blanks, comments and line ends, and whether a key may start there. Tabs are
passed `inFlow`, and in lines where no key may start. A byte order mark is passed at the start of the
text only. -/
def toToken (inFlow keyAllowed : Bool) : Nat → Cursor → Cursor × Bool
  | 0, c => (c, keyAllowed)
  | fuel + 1, c =>
    let c := if c.index == 0 && c.rest.head? == some '\ufeff' then c.advance else c
    let c := c.skipWhile fun ch => ch == ' ' || ((inFlow || !keyAllowed) && ch == '\t')
    let c := if c.rest.head? == some '#' then c.skipComments c.rest.length else c
    match c.rest with
    | ch :: _ =>
      if isBreak ch then toToken inFlow (keyAllowed || !inFlow) fuel c.advance else (c, keyAllowed)
    | [] => (c, keyAllowed)

end Cursor

end ErdSql.Yaml
