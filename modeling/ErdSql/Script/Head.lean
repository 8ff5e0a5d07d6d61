import ErdSql.Script.Word

/-!
# Heads of statements

What a statement defines, read from its first words. Behind the parts that are read a statement may go
on with anything. The list behind a created name is read item by item; an item is a column or a table
constraint, and the words behind its name are skipped in whole bracket groups.

A part that may be absent is taken for absent when its words go wrong at once. When they go wrong
further than `patience` words into it, the whole statement counts as unreadable.
-/

namespace ErdSql.Script

open Text (ascii)

/-- The parts of a name divided by dots, without quotes. -/
abbrev Name := List (List UInt8)

/-- A name as one text. -/
def Name.text : Name → List UInt8
  | [] => []
  | [part] => part
  | part :: rest => part ++ ascii '.' :: Name.text rest

/-- What can be created. -/
inductive Object where
  | table
  | index
  | view
  | trigger
  | extension
  | type
  | policy
  deriving DecidableEq, Inhabited

namespace Object

/-- Every object with the word for it. -/
def all : List (Object × String) :=
  [(table, "table"), (index, "index"), (view, "view"), (trigger, "trigger"),
    (extension, "extension"), (type, "type"), (policy, "policy")]

/-- The word for an object. -/
def name : Object → String
  | table => "table"
  | index => "index"
  | view => "view"
  | trigger => "trigger"
  | extension => "extension"
  | type => "type"
  | policy => "policy"

/-- The object that a word stands for. -/
def ofWord? (w : Word) : Option Object :=
  (all.find? fun o => w.spells o.2).map (·.1)

end Object

/-- The head of a statement. -/
inductive Head where
  /-- `columns` are the names that open the items of the list behind the name. -/
  | create (object : Object) (name : Name) (on : Option Name) (columns : List Name)
  | alterTable (table : Name) (constraint : Option Name)
  | comment (object : List UInt8) (name : Name)
  deriving DecidableEq, Inhabited

namespace Head

/-- How many words into an absent part reading may go wrong. -/
def patience : Nat := 2

/-- What remains when the first words are the given ones. -/
def dropWords? : List String → List Word → Option (List Word)
  | [], ws => some ws
  | _ :: _, [] => none
  | s :: ss, w :: ws => if w.spells s then dropWords? ss ws else none

/-- Skips the given words if they are there. -/
def skipWords (words : List String) (ws : List Word) : List Word :=
  (dropWords? words ws).getD ws

/-- A part of a name: quotes are taken off. -/
def namePart? (w : Word) : Option (List UInt8) :=
  match w.kind with
  | .name => some w.text
  | .quotedName => some (Text.collapsePairs (ascii '"') (w.text.drop 1).dropLast)
  | _ => none

/-- The parts of a name behind its first, each behind a dot. -/
def moreParts : List Word → Name × List Word
  | dot :: w :: ws =>
    if dot.isMark '.' then
      match namePart? w with
      | some part => let (parts, rest) := moreParts ws; (part :: parts, rest)
      | none => ([], dot :: w :: ws)
    else ([], dot :: w :: ws)
  | ws => ([], ws)

/-- A name and what follows it. -/
def name? : List Word → Option (Name × List Word)
  | [] => none
  | w :: ws => (namePart? w).map fun part =>
    let (parts, rest) := moreParts ws
    (part :: parts, rest)

/-- A name behind the given words, if there is one. -/
def nameBehind (words : List String) (ws : List Word) : Option Name × List Word :=
  match (dropWords? words ws).bind name? with
  | some (n, rest) => (some n, rest)
  | none => (none, ws)

/-! ### Lists -/

/-- The bracket that closes the one a word opens. -/
def closing? (w : Word) : Option Char :=
  if w.isMark '(' then some ')' else if w.isMark '[' then some ']' else none

/-- An open bracket: what closes it, and the words from it on. -/
structure Opening where
  closing : Char
  words : List Word

/-- Gives up the open brackets, the innermost first. Each group is absent from the list then, unless
reading it went too far, and reading goes on at its opening bracket. -/
def abandon (ws : List Word) : List Opening → Option (List Word)
  | [] => some ws
  | o :: os => if o.words.length - ws.length > patience then none else abandon o.words os

/-- Whether a word belongs to an item by itself. -/
def isPlain (w : Word) : Bool :=
  w.kind != .punctuation || w.isMark '.'

/-- Skips the rest of an item: words and whole bracket groups, inside which commas stand too. None if
a group went wrong too late. -/
def skipItem (opened : List Opening) : List Word → Option (List Word)
  | [] => abandon [] opened
  | w :: ws =>
    match closing? w with
    | some c => skipItem (⟨c, w :: ws⟩ :: opened) ws
    | none =>
      match opened with
      | [] => if isPlain w then skipItem [] ws else some (w :: ws)
      | o :: os =>
        if isPlain w || w.isMark ',' then skipItem (o :: os) ws
        else if w.isMark o.closing then skipItem os ws
        else abandon (w :: ws) (o :: os)

/-- The words that open a table constraint. -/
def constraintWords : List String :=
  ["CONSTRAINT", "PRIMARY", "UNIQUE", "CHECK", "FOREIGN", "EXCLUDE"]

/-- The outcome of reading a part. -/
inductive Outcome (α : Type) where
  | absent
  | read (value : α) (rest : List Word)
  | unreadable

/-- One item of a list; a table constraint has no column. -/
def item : List Word → Outcome (Option Name)
  | [] => .absent
  | w :: ws =>
    let (start, column) : Option (List Word) × Option Name :=
      if constraintWords.any w.spells then (some ws, none)
      else match name? (w :: ws) with
        | some (n, rest) => (some rest, some n)
        | none => (none, none)
    match start with
    | none => .absent
    | some start =>
      match skipItem [] start with
      | some rest => .read column rest
      | none => .unreadable

/-- The items behind the first, each behind a comma. None if one of them is unreadable. -/
def moreItems (ws : List Word) : Option (List (Option Name) × List Word) :=
  match ws with
  | [] => some ([], [])
  | w :: rest =>
    if w.isMark ',' then
      match item rest with
      | .absent => some ([], w :: rest)
      | .unreadable => none
      | .read column next =>
        if next.length < (w :: rest).length then
          (moreItems next).map fun (columns, rest) => (column :: columns, rest)
        else some ([], w :: rest)
    else some ([], w :: rest)
termination_by ws.length
decreasing_by assumption

/-- The columns of a list in parentheses. No columns if there is no list, none if it is
unreadable. -/
def columns? (ws : List Word) : Option (List Name) :=
  match ws with
  | [] => some []
  | w :: rest =>
    if !w.isMark '(' then some []
    else match item rest with
      | .absent => some []
      | .unreadable => none
      | .read first next =>
        match moreItems next with
        | none => none
        | some (more, next) =>
          let closed : Bool := match next with
            | c :: _ => c.isMark ')'
            | [] => false
          if closed then some ((first :: more).filterMap id)
          else if ws.length - next.length > patience then none
          else some []

/-! ### Statements -/

/-- The head of a statement behind `CREATE`. -/
def create? (ws : List Word) : Option Head := do
  let ws := skipWords ["MATERIALIZED"] (skipWords ["UNIQUE"] (skipWords ["OR", "REPLACE"] ws))
  match ws with
  | [] => none
  | w :: ws =>
    let object ← Object.ofWord? w
    let (name, ws) ← name? (skipWords ["IF", "NOT", "EXISTS"] ws)
    let (on, ws) := nameBehind ["ON"] ws
    let columns ← columns? ws
    return .create object name on columns

/-- The head of a statement behind `ALTER TABLE`. -/
def alterTable? (ws : List Word) : Option Head := do
  let (table, ws) ← name? (skipWords ["IF", "EXISTS"] (skipWords ["ONLY"] ws))
  return .alterTable table (nameBehind ["ADD", "CONSTRAINT"] ws).1

/-- The head of a statement behind `COMMENT ON`. -/
def comment? : List Word → Option Head
  | [] => none
  | w :: ws =>
    if w.kind == .name then (name? ws).map fun (n, _) => .comment w.text n else none

/-- The head that words have. -/
def ofWords? (ws : List Word) : Option Head :=
  match dropWords? ["CREATE"] ws with
  | some rest => create? rest
  | none =>
    match dropWords? ["ALTER", "TABLE"] ws with
    | some rest => alterTable? rest
    | none => (dropWords? ["COMMENT", "ON"] ws).bind comment?

/-- The head of a statement in its normal layout. -/
def ofStatement? (text : List UInt8) : Option Head :=
  (Word.words? text).bind ofWords?

end Head

/-- A created table: its name and its columns, without quotes. -/
structure Table where
  name : List UInt8
  columns : List (List UInt8)
  deriving DecidableEq, Inhabited

/-- The table that a statement creates. -/
def Table.ofStatement? (text : List UInt8) : Option Table :=
  match Head.ofStatement? text with
  | some (.create .table name _ columns) => some ⟨name.text, columns.map Name.text⟩
  | _ => none

/-- The tables that a script creates. -/
def tables (script : List UInt8) : List Table :=
  (normalize script).filterMap Table.ofStatement?

end ErdSql.Script
