import ErdSql.Digest.HashTree
import ErdSql.Script.Head

/-!
# Comparing scripts

The statements of a script get keys from what they define, and two scripts are compared key by key.
A root hash over the sorted statements tells whether they differ at all, so the order of statements
does not matter.
-/

namespace ErdSql.Script

open Text (ascii)

/-- A statement in its normal layout and its key. -/
structure Entry where
  key : List UInt8
  text : List UInt8
  deriving DecidableEq, Inhabited

/-- What a statement defines, as a text; a statement without head stands for itself. -/
def statementKey (text : List UInt8) : List UInt8 :=
  match Head.ofStatement? text with
  | some (.create .policy name on _) =>
    Text.bytes "policy:" ++ (on.getD []).text ++ ascii '.' :: name.text
  | some (.create object name _ _) => Text.bytes object.name ++ ascii ':' :: name.text
  | some (.alterTable table (some constraint)) =>
    Text.bytes "constraint:" ++ table.text ++ ascii '.' :: constraint.text
  | some (.alterTable _ none) => Text.bytes "alter:" ++ text
  | some (.comment object name) =>
    Text.bytes "comment:" ++ object.map Word.lowerByte ++ ascii ':' :: name.text
  | none => text

/-- A key with the number of its occurrence, unless that is the first. -/
def numbered (key : List UInt8) (occurrence : Nat) : List UInt8 :=
  if occurrence > 1 then key ++ Text.bytes ("#" ++ toString occurrence) else key

/-- Statements with their keys, behind statements that have the keys `seen`. -/
def entriesBehind (seen : List (List UInt8)) : List (List UInt8) → List Entry
  | [] => []
  | text :: rest =>
    let key := statementKey text
    ⟨numbered key (seen.count key + 1), text⟩ :: entriesBehind (key :: seen) rest

/-- The statements of a script with their keys. -/
def entries (script : List UInt8) : List Entry :=
  entriesBehind [] (normalize script)

/-- The root of a script without statements hashes this text. -/
def emptyMark : List UInt8 := Text.bytes "empty_script"

/-- The root hash of statements, whatever their order. -/
def root (hash : List UInt8 → List UInt8) (es : List Entry) : List UInt8 :=
  if es.isEmpty then hash emptyMark
  else Digest.HashTree.root hash ((es.map (·.text)).mergeSort Text.bytesLE)

/-- A statement that differs between two scripts. -/
inductive Change where
  | added (key next : List UInt8)
  | removed (key previous : List UInt8)
  | changed (key previous next : List UInt8)
  deriving DecidableEq, Inhabited

namespace Change

/-- The name of a kind of change. -/
def name : Change → String
  | added _ _ => "added"
  | removed _ _ => "removed"
  | changed _ _ _ => "changed"

/-- The key of the statement. -/
def key : Change → List UInt8
  | added k _ => k
  | removed k _ => k
  | changed k _ _ => k

/-- The statement before, empty if there was none. -/
def previous : Change → List UInt8
  | added _ _ => []
  | removed _ p => p
  | changed _ p _ => p

/-- The statement after, empty if there is none. -/
def next : Change → List UInt8
  | added _ n => n
  | removed _ _ => []
  | changed _ _ n => n

end Change

/-- The text of a key; the last one counts if a key stands twice. -/
def textOf? (es : List Entry) (key : List UInt8) : Option (List UInt8) :=
  (es.reverse.find? fun e => e.key == key).map (·.text)

/-- What a statement of the next script adds or changes. -/
def changeOf? (previous : List Entry) (e : Entry) : Option Change :=
  match textOf? previous e.key with
  | none => some (.added e.key e.text)
  | some old => if old == e.text then none else some (.changed e.key old e.text)

/-- What is added and changed, in the order of the next statements, then what is removed, in the order
of the previous ones. -/
def changes (previous next : List Entry) : List Change :=
  next.filterMap (changeOf? previous) ++
    (previous.filter fun e => !next.any fun n => n.key == e.key).map fun e => .removed e.key e.text

/-- The difference of two scripts. -/
structure Comparison where
  changes : List Change
  previousRoot : List UInt8
  nextRoot : List UInt8
  deriving DecidableEq, Inhabited

/-- Whether the scripts differ. -/
def Comparison.drift (c : Comparison) : Bool :=
  c.previousRoot != c.nextRoot

/-- Compares two scripts. -/
def compare (hash : List UInt8 → List UInt8) (previous next : List UInt8) : Comparison :=
  let before := entries previous
  let after := entries next
  ⟨changes before after, root hash before, root hash after⟩

end ErdSql.Script
