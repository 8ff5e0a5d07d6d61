import ErdSql.Token
import ErdSql.Word

/-!
# Spans

The stretch of a document that a construct covers. The end column is the start column of the last
token plus its width in bytes. Positions are words.
-/

namespace ErdSql

/-- Where something starts and how wide it is. -/
structure Extent where
  line : Int
  column : Int
  width : Nat
  deriving DecidableEq, Inhabited

namespace Extent

/-- The extent of a text that starts and stops at given offsets: its bytes, or its characters when the
offsets leave no room. -/
def ofOffsets (text : String) (line column offset stop : Int) : Extent :=
  let width := Word.ofInt (stop - offset)
  ⟨line, column, if width > 0 then width.toNat else text.length⟩

/-- The column just past an extent. -/
def endColumn (e : Extent) : Int := Word.ofInt (e.column + e.width)

end Extent

/-- First and last position of a construct. -/
structure Span where
  startLine : Int
  startColumn : Int
  endLine : Int
  endColumn : Int
  deriving DecidableEq, Inhabited

namespace Span

/-- The span of nothing. -/
def zero : Span := ⟨0, 0, 0, 0⟩

/-- The span of one extent. -/
def ofExtent (e : Extent) : Span :=
  ⟨e.line, e.column, e.line, e.endColumn⟩

/-- The span from one extent to another, or the start of the first one when the second ends before
it. -/
def across (first last : Extent) : Span :=
  if last.line < first.line || (last.line == first.line && last.endColumn < first.column) then
    ⟨first.line, first.column, first.line, first.column⟩
  else ⟨first.line, first.column, last.line, last.endColumn⟩

/-- The span stretched until it covers an extent; the span of nothing becomes the span of the
extent. -/
def cover (s : Span) (e : Extent) : Span :=
  if s.startLine == 0 && s.startColumn == 0 then ofExtent e
  else if e.line > s.endLine || (e.line == s.endLine && e.endColumn > s.endColumn) then
    { s with endLine := e.line, endColumn := e.endColumn }
  else s

end Span

/-- The extent of a token. -/
def Token.extent (t : Token) : Extent :=
  .ofOffsets t.text t.line t.column t.offset t.stop

/-- The span of one token. -/
def Token.span (t : Token) : Span := .ofExtent t.extent

/-- The span from one token to another. -/
def Span.between (first last : Token) : Span := across first.extent last.extent

/-- The span stretched until it covers a token. -/
def Span.extend (s : Span) (t : Token) : Span := s.cover t.extent

end ErdSql
