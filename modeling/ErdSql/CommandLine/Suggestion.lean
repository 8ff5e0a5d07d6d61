import ErdSql.CommandLine.Command
import ErdSql.Text.Bytes
import ErdSql.Text.Case
import ErdSql.Text.Split

/-!
# Suggestions

The commands that may have been meant by an unknown word: those that it starts, and those that are at
most two edits away from it.
-/

namespace ErdSql.CommandLine

/-- The next row of the table of distances: `left` is the entry before, `row` the previous row from the
entry above it. -/
def nextRow {α : Type} [BEq α] (a : α) (left : Nat) : List α → List Nat → List Nat
  | b :: bs, diagonal :: above :: row =>
    let entry := if a == b then diagonal else 1 + min diagonal (min left above)
    entry :: nextRow a entry bs (above :: row)
  | _, _ => []

/-- The least number of elements to insert, drop or replace that turns one list into another. -/
def editDistance {α : Type} [BEq α] (as bs : List α) : Nat :=
  let first := List.range (bs.length + 1)
  let last := as.foldl (fun row a =>
    let start := row.headD 0 + 1
    start :: nextRow a start bs row) first
  last.getLastD 0

/-- The largest number of edits of a suggestion. -/
def suggestionDistance : Nat := 2

/-- Whether a command may have been meant by a word. -/
def isSuggestion (word : String) (c : Command) : Bool :=
  let word := Text.lower word
  editDistance (Text.bytes word) (Text.bytes c.name) ≤ suggestionDistance ||
    Text.startsWith word c.name

/-- The commands that may have been meant by a word. -/
def suggestions (word : String) : List Command :=
  Command.program.children.filter fun c => c != .help && isSuggestion word c

/-- The lines that name suggestions; nothing if there are none. -/
def suggestionText (word : String) : String :=
  match suggestions word with
  | [] => ""
  | cs => "\n\nDid you mean this?\n" ++ String.join (cs.map fun c => "\t" ++ c.name ++ "\n")

end ErdSql.CommandLine
