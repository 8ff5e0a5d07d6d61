import ErdSql.Text.Bytes
import ErdSql.Text.Split
import ErdSql.Word

/-!
# Snippets

The lines of a file around a place, with line numbers and a caret under the place. A carriage return
before a line feed does not count.
-/

namespace ErdSql

/-- A window of lines around a place. -/
structure Snippet where
  lines : List String
  startLine : Int
  errorLine : Int
  errorColumn : Int
  deriving DecidableEq, Inhabited

namespace Snippet

/-- A text with every carriage return before a line feed left out. -/
def dropReturns : List Char → List Char
  | [] => []
  | [c] => [c]
  | c :: d :: rest => if c == '\r' && d == '\n' then dropReturns (d :: rest) else c :: dropReturns (d :: rest)

/-- The lines of a file. -/
def fileLines (src : String) : List String :=
  (Text.splitList '\n' (dropReturns src.toList)).map String.ofList

/-- Why there is no window. -/
inductive Failure where
  /-- The file does not have the line. -/
  | noLine (line : Int) (count : Nat)
  /-- No part of the file is between the bounds. This ends the program. -/
  | noPart (before last : Int)
  deriving DecidableEq, Inhabited

/-- The wording of a failure. -/
def Failure.message : Failure → String
  | noLine line count => "line " ++ toString line ++ " out of range [1, " ++ toString count ++ "]"
  | noPart before last =>
    "slice bounds out of range [" ++ (if last < 0 then "" else toString before) ++ ":" ++ toString last ++ "]"

/-- The window of up to `around` lines on either side of a line, or the reason why there is none. The
bounds are words, so the last line is in front of the first one if there are too many lines around. -/
def extract (src : String) (line column around : Int) : Except Failure Snippet :=
  let all := fileLines src
  if line < 1 || line > all.length then .error (.noLine line all.length)
  else
    let before := max 1 (Word.ofInt (line - around)) - 1
    let last := min (all.length : Int) (Word.ofInt (line + around))
    if last < before then .error (.noPart before last)
    else .ok ⟨(all.take last.toNat).drop before.toNat, before + 1, line, column⟩

/-- The blanks before the caret: for every byte of the line before the column a blank, or a tab where
the byte is one. -/
def caretIndent (line : String) (column : Int) : String :=
  String.ofList (((Text.bytes line).take (column - 1).toNat).map fun b =>
    if b == 9 then '\t' else ' ')

/-- A line with its number, and the caret line behind the line of the place. -/
def renderLine (s : Snippet) (width : Nat) (number : Int) (line : String) : String :=
  let atError := number == s.errorLine
  let numbered := (if atError then ">" else " ") ++ " " ++ Text.padLeft width (toString number) ++
    " | " ++ line ++ "\n"
  if atError && s.errorColumn ≥ 1 then
    numbered ++ Text.replicate (width + 5) ' ' ++ caretIndent line s.errorColumn ++ "^\n"
  else numbered

/-- The window as text. -/
def render (s : Snippet) : String :=
  let width := (toString (s.startLine + s.lines.length - 1)).length
  String.join (s.lines.mapIdx fun i line => renderLine s width (s.startLine + i) line)

end Snippet

end ErdSql
