import ErdSql.Diagnostic
import ErdSql.Diagnostic.Snippet
import ErdSql.Json
import ErdSql.Text.Width

/-!
# Diagnostics as text

Diagnostics for a reader, with or without colours and source lines, and as JSON.
-/

namespace ErdSql

/-- How diagnostics are shown. -/
structure Diagnostic.Style where
  /-- Whether terminal colours are used. -/
  color : Bool := false
  /-- Whether notes and related places are shown. -/
  showNotes : Bool := true
  /-- Whether the meaning of the code is shown. -/
  showDescription : Bool := false
  /-- The texts of the files from which lines are shown. -/
  sources : List (String × String) := []
  /-- Number of lines shown on either side. -/
  contextLines : Int := 0

namespace Diagnostic

namespace Style

/-- A line between a terminal code and the code that resets it. -/
def paintLine (code line : String) : String :=
  "\x1b[" ++ code ++ "m" ++ line ++ "\x1b[0m"

/-- A text with four blanks for each tab, as it is shown in colour. -/
def untabbed (text : String) : String :=
  String.ofList (text.toList.flatMap fun c => if c == '\t' then [' ', ' ', ' ', ' '] else [c])

/-- A text in colour, line by line. Shorter lines are filled up with blanks, so that all lines take as
many columns as the widest one. -/
def paint (style : Style) (code text : String) : String :=
  if !style.color then text
  else
    let lines := Snippet.fileLines (untabbed text)
    let widest := (lines.map Text.columns).foldl max 0
    Text.join "\n" (lines.map fun line =>
      paintLine code line ++ Text.replicate (widest - Text.columns line) ' ')

/-- The terminal code of a severity. -/
def severityCode : Severity → String
  | .error => "1;91"
  | .warning => "1;93"
  | .info => "96"

/-- The terminal code of diagnostic codes. -/
def codeCode : String := "95"

/-- The terminal code of places. -/
def placeCode : String := "1"

/-- The terminal code of the labels of notes. -/
def noteCode : String := "94"

/-- The source lines around a diagnostic, if its file is known and has the line. -/
def snippet (style : Style) (d : Diagnostic) : Except Snippet.Failure String :=
  match style.sources.lookup d.location.path with
  | none => .ok ""
  | some src =>
    if d.hasLocation then
      match Snippet.extract src d.location.line d.location.column style.contextLines with
      | .ok s => .ok s.render
      | .error (.noLine _ _) => .ok ""
      | .error (.noPart before last) => .error (.noPart before last)
    else .ok ""

/-- The notes and related places of a diagnostic, one a line. -/
def notes (style : Style) (d : Diagnostic) : String :=
  String.join (d.notes.map fun n => "  " ++ style.paint noteCode "note:" ++ " " ++ n ++ "\n") ++
    String.join (d.related.map fun r =>
      "  " ++ style.paint noteCode "related:" ++ " " ++ r.location.text ++ ": " ++ r.message ++ "\n")

/-- A diagnostic with all that the style shows. -/
def render (style : Style) (d : Diagnostic) : Except Snippet.Failure String := do
  let shown ← style.snippet d
  return (if d.hasLocation then style.paint placeCode d.location.text ++ ": " else "") ++
    style.paint (severityCode d.severity) d.severity.name ++
    (if d.code == "" then "" else style.paint codeCode ("[" ++ d.code ++ "]")) ++
    ": " ++ d.message ++
    (if style.showDescription && d.code != "" then " (" ++ describeCode d.code ++ ")" else "") ++
    "\n" ++ shown ++ (if style.showNotes then style.notes d else "")

/-- Diagnostics one after another. -/
def renderAll (style : Style) (ds : List Diagnostic) : Except Snippet.Failure String :=
  String.join <$> ds.mapM style.render

/-- How many errors and warnings there are, on one line; nothing if there are none. -/
def renderTally (style : Style) (ds : List Diagnostic) : String :=
  let t := tally ds
  let parts :=
    (if t.errors > 0 then
      [style.paint (severityCode .error) (toString t.errors ++ " error(s)")] else []) ++
    (if t.warnings > 0 then
      [style.paint (severityCode .warning) (toString t.warnings ++ " warning(s)")] else [])
  if parts.isEmpty then "" else Text.join ", " parts ++ "\n"

end Style

/-- A member that is left out when its text is empty. -/
def textMember (key value : String) : List (String × Json) :=
  if value == "" then [] else [(key, .str value)]

/-- A member that is left out when its number is zero. -/
def intMember (key : String) (value : Int) : List (String × Json) :=
  if value == 0 then [] else [(key, .int value)]

/-- A place as JSON. -/
def locationJson (l : Location) : Json :=
  .obj (textMember "path" l.path ++ intMember "line" l.line ++ intMember "column" l.column)

/-- A diagnostic as JSON. -/
def toJson (d : Diagnostic) : Json :=
  .obj ([("severity", .str d.severity.name)] ++ textMember "code" d.code ++
    [("message", .str d.message)] ++ textMember "entity" d.entity ++ textMember "field" d.field ++
    [("location", locationJson d.location)] ++
    (if d.notes.isEmpty then [] else [("notes", .arr (d.notes.map .str))]) ++
    (if d.related.isEmpty then [] else
      [("related", .arr (d.related.map fun r =>
        .obj [("location", locationJson r.location), ("message", .str r.message)]))]))

/-- Diagnostics as a JSON document on one line. -/
def renderJson (ds : List Diagnostic) : String :=
  (Json.arr (ds.map toJson)).compact ++ "\n"

/-- Diagnostics as an indented JSON document. -/
def renderJsonIndented (ds : List Diagnostic) : String :=
  (Json.arr (ds.map toJson)).indented 0 ++ "\n"

end Diagnostic

end ErdSql
