import ErdSql.Cache
import ErdSql.Diagnostic.Render
import ErdSql.Instant
import ErdSql.Json.Reader

/-!
# Entries as JSON

How an entry is kept in a file: with the version of the format and the moment when it was written.
Reading ignores unknown members and the case of keys, leaves out what is not there, and fails on values
of the wrong kind. A key that stands twice counts with what it says last; a list or an object that is
given again is filled over the one before.
-/

namespace ErdSql.Cache

/-- The version of the format. -/
def formatVersion : Int := 1

/-- What a file holds. -/
structure Record where
  version : Int := 0
  created : Instant := Instant.zero
  entry : Entry := ⟨"", [], false, false⟩
  deriving DecidableEq, Inhabited

/-- An entry as JSON. -/
def Entry.toJson (e : Entry) : Json :=
  .obj ([("sql", .str e.sql)] ++
    (if e.diagnostics.isEmpty then [] else [("diagnostics", .arr (e.diagnostics.map (·.toJson)))]) ++
    [("generated", .bool e.generated), ("valid", .bool e.valid)])

/-- The content of the file of an entry. -/
def Record.text (r : Record) : String :=
  (Json.obj [("version", .int r.version), ("created_at", .str r.created.text),
    ("entry", r.entry.toJson)]).compact

/-- A text over one that was there before; null keeps it. -/
def textOver (before : String) : Json → Option String
  | .str s => some s
  | .null => some before
  | _ => none

/-- A truth value over one that was there before; null keeps it. -/
def flagOver (before : Bool) : Json → Option Bool
  | .bool b => some b
  | .null => some before
  | _ => none

/-- A whole number of 64 bits over one that was there before; null keeps it. -/
def intOver (before : Int) : Json → Option Int
  | .int n => if -(Nat.pow 2 63 : Int) ≤ n && n < Nat.pow 2 63 then some n else none
  | .null => some before
  | _ => none

/-- A list that is filled in place. A list that became shorter keeps what stood behind its end, and
what is filled in there later starts from it. -/
structure Slots (α : Type) where
  shown : List α := []
  behind : List α := []
  deriving DecidableEq, Inhabited

namespace Slots

/-- Values filled over those of a list, and over a blank value where it has none. -/
def fill {α : Type} (blank : α) (item : α → Json → Option α) : List α → List Json → Option (List α)
  | _, [] => some []
  | [], v :: vs => do return (← item blank v) :: (← fill blank item [] vs)
  | old :: olds, v :: vs => do return (← item old v) :: (← fill blank item olds vs)

/-- A list filled over one that was there before. Null and a list without values leave nothing of
it. -/
def refill {α : Type} (blank : α) (item : α → Json → Option α) (before : Slots α) :
    Json → Option (Slots α)
  | .null => some {}
  | .arr [] => some {}
  | .arr items =>
    let old := before.shown ++ before.behind
    (fill blank item old items).map fun shown => ⟨shown, old.drop items.length⟩
  | _ => none

end Slots

/-- Goes through the members of an object; null changes nothing. -/
def membersOver {α : Type} (step : α → String → Json → Option α) (before : α) : Json → Option α
  | .obj members => members.foldlM (fun a (key, v) => step a key v) before
  | .null => some before
  | _ => none

/-- A place over one that was there before. -/
def locationOver : Location → Json → Option Location :=
  membersOver fun l key v =>
    if Text.spells "path" key then (textOver l.path v).map fun path => { l with path }
    else if Text.spells "line" key then (intOver l.line v).map fun line => { l with line }
    else if Text.spells "column" key then (intOver l.column v).map fun column => { l with column }
    else some l

/-- A related place over one that was there before. -/
def relatedOver : RelatedInfo → Json → Option RelatedInfo :=
  membersOver fun r key v =>
    if Text.spells "location" key then
      (locationOver r.location v).map fun location => { r with location }
    else if Text.spells "message" key then (textOver r.message v).map fun message => { r with message }
    else some r

/-- A diagnostic while it is read: the notes and related places are kept as they are filled. -/
structure DiagnosticDraft where
  base : Diagnostic := .make .info "" "" ⟨"", 0, 0⟩
  notes : Slots String := {}
  related : Slots RelatedInfo := {}
  deriving DecidableEq, Inhabited

/-- The diagnostic that was read. -/
def DiagnosticDraft.diagnostic (d : DiagnosticDraft) : Diagnostic :=
  { d.base with notes := d.notes.shown, related := d.related.shown }

/-- A severity over one that was there before; null keeps it. -/
def severityOver (before : Severity) : Json → Option Severity
  | .str s => some (Severity.ofText s)
  | .null => some before
  | _ => none

/-- A diagnostic over one that was there before. -/
def DiagnosticDraft.refill : DiagnosticDraft → Json → Option DiagnosticDraft :=
  membersOver fun d key v =>
    let b := d.base
    let set (base : Option Diagnostic) : Option DiagnosticDraft := base.map fun base => { d with base }
    if Text.spells "severity" key then
      set ((severityOver b.severity v).map fun severity => { b with severity })
    else if Text.spells "code" key then set ((textOver b.code v).map fun code => { b with code })
    else if Text.spells "message" key then
      set ((textOver b.message v).map fun message => { b with message })
    else if Text.spells "entity" key then
      set ((textOver b.entity v).map fun entity => { b with entity })
    else if Text.spells "field" key then set ((textOver b.field v).map fun field => { b with field })
    else if Text.spells "location" key then
      set ((locationOver b.location v).map fun location => { b with location })
    else if Text.spells "notes" key then
      (d.notes.refill "" textOver v).map fun notes => { d with notes }
    else if Text.spells "related" key then
      (d.related.refill ⟨⟨"", 0, 0⟩, ""⟩ relatedOver v).map fun related => { d with related }
    else some d

/-- The diagnostic that JSON describes. -/
def diagnosticOf (json : Json) : Option Diagnostic :=
  (({} : DiagnosticDraft).refill json).map (·.diagnostic)

/-- A record while it is read. -/
structure Draft where
  record : Record := {}
  diagnostics : Slots DiagnosticDraft := {}
  deriving DecidableEq, Inhabited

/-- The record that was read. -/
def Draft.result (d : Draft) : Record :=
  { d.record with entry := { d.record.entry with
      diagnostics := d.diagnostics.shown.map (·.diagnostic) } }

/-- An entry over the one that was there before. -/
def Draft.entryOver : Draft → Json → Option Draft :=
  membersOver fun d key v =>
    let e := d.record.entry
    let set (entry : Option Entry) : Option Draft :=
      entry.map fun entry => { d with record := { d.record with entry } }
    if Text.spells "sql" key then set ((textOver e.sql v).map fun sql => { e with sql })
    else if Text.spells "diagnostics" key then
      (d.diagnostics.refill {} DiagnosticDraft.refill v).map fun diagnostics => { d with diagnostics }
    else if Text.spells "generated" key then
      set ((flagOver e.generated v).map fun generated => { e with generated })
    else if Text.spells "valid" key then set ((flagOver e.valid v).map fun valid => { e with valid })
    else some d

/-- A moment over one that was there before; null keeps it. -/
def instantOver (before : Instant) : Json → Option Instant
  | .str s => Instant.ofText? s
  | .null => some before
  | _ => none

/-- The record that JSON describes. -/
def Record.ofJson? (json : Json) : Option Record :=
  (membersOver (fun (d : Draft) key v =>
    let r := d.record
    let set (record : Option Record) : Option Draft := record.map fun record => { d with record }
    if Text.spells "version" key then
      set ((intOver r.version v).map fun version => { r with version })
    else if Text.spells "created_at" key then
      set ((instantOver r.created v).map fun created => { r with created })
    else if Text.spells "entry" key then d.entryOver v
    else some d) {} json).map (·.result)

/-- The record that a file holds, if it is one of this format. -/
def Record.read? (bytes : List UInt8) : Option Record := do
  let json ← Json.read? (Text.ofBytes bytes).toList
  (Record.ofJson? json).filter fun r => r.version == formatVersion

end ErdSql.Cache
