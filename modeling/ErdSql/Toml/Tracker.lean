import ErdSql.Text.Split
import ErdSql.Toml

/-!
# Keys that are already taken

A key may have one value, and a table one header. The tracker remembers what each dotted key stands for
and refuses an entry that says it again.
-/

namespace ErdSql.Toml

/-- What a key stands for. -/
inductive Role where
  | value
  | table
  | tableArray
  deriving DecidableEq, Inhabited

/-- The name of a role. -/
def Role.name : Role → String
  | value => "value"
  | table => "table"
  | tableArray => "array table"

/-- Why an entry is refused. -/
inductive Conflict where
  | defined (name : String)
  | notTable (name : String) (role : Role)
  | closed (name : String)
  | headerOf (name : String) (role : Role)
  | repeated (name : String)
  | notArray (name : String) (role : Role)
  deriving DecidableEq, Inhabited

/-- The wording of a conflict. -/
def Conflict.message : Conflict → String
  | defined name => "toml: key " ++ name ++ " is already defined"
  | notTable name role => "toml: expected " ++ name ++ " to be a table, not a " ++ role.name
  | closed name =>
    "toml: cannot redefine table " ++ name ++ " that has already been explicitly defined"
  | headerOf name role => "toml: key " ++ name ++ " should be a table, not a " ++ role.name
  | repeated name => "toml: table " ++ name ++ " already exists"
  | notArray name role =>
    "toml: key " ++ role.name ++ " already exists as a " ++ name ++ ",  but should be an array table"

/-- What is known of one dotted key. A table is `closed` once it has a header; a table that the key of
a value opened, `byPair`, also once the next header comes. -/
structure Known where
  path : List String
  role : Role
  closed : Bool := false
  byPair : Bool := false
  deriving DecidableEq, Inhabited

/-- What is known of all keys, and the table that entries go to. -/
structure Tracker where
  known : List Known
  current : List String
  deriving DecidableEq, Inhabited

namespace Tracker

/-- The tracker at the start of a text. -/
def empty : Tracker := ⟨[], []⟩

/-- What is known of a key. -/
def find? (t : Tracker) (path : List String) : Option Known :=
  t.known.find? (·.path == path)

/-- Remembers what a key stands for. -/
def set (t : Tracker) (k : Known) : Tracker :=
  { t with known := k :: t.known.filter (·.path != k.path) }

/-- Follows the parts of the key of a value. -/
def takeKey (t : Tracker) (path : List String) : List String → Except Conflict Tracker
  | [] => .ok t
  | [name] =>
    match t.find? (path ++ [name]) with
    | some _ => .error (.defined name)
    | none => .ok (t.set { path := path ++ [name], role := .value })
  | name :: rest =>
    let path := path ++ [name]
    match t.find? path with
    | none => (t.set { path, role := .table, byPair := true }).takeKey path rest
    | some k =>
      if k.role != .table then .error (.notTable name k.role)
      else if k.closed then .error (.closed name)
      else t.takeKey path rest

/-- Follows the parts of a header before the last one. -/
def openTables (t : Tracker) (path : List String) : List String → Except Conflict Tracker
  | [] => .ok t
  | name :: rest =>
    let path := path ++ [name]
    match t.find? path with
    | none => (t.set { path, role := .table }).openTables path rest
    | some k =>
      if k.role == .value then .error (.notTable name k.role) else t.openTables path rest

/-- The tracker when a header comes: the tables that keys of values opened are closed. -/
def closePairs (t : Tracker) : Tracker :=
  { t with known := t.known.map fun k => { k with closed := k.closed || k.byPair } }

/-- Takes a header. -/
def takeHeader (t : Tracker) (isArray : Bool) (key : List String) : Except Conflict Tracker := do
  let t ← t.closePairs.openTables [] key.dropLast
  let name := (key.getLast?).getD ""
  let role := if isArray then Role.tableArray else Role.table
  match t.find? key with
  | none => return { t.set { path := key, role, closed := true } with current := key }
  | some k =>
    if isArray then
      if k.role != .tableArray then throw (.notArray name k.role)
      return ⟨t.known.filter fun k => !(key.isPrefixOf k.path && k.path != key), key⟩
    else
      if k.role != .table then throw (.headerOf name k.role)
      if k.closed then throw (.repeated name)
      return { t.set { path := key, role, closed := true } with current := key }

mutual

/-- Checks the tables inside a value. -/
def checkValue : Value → Except Conflict Unit
  | .text _ _ => .ok ()
  | .flag _ _ => .ok ()
  | .measure _ _ _ => .ok ()
  | .array _ items => checkItems items
  | .table _ entries => checkEntries empty entries

/-- Checks the tables inside the items of an array. -/
def checkItems : List Value → Except Conflict Unit
  | [] => .ok ()
  | v :: vs => do
    checkValue v
    checkItems vs

/-- Checks the entries of an inline table. -/
def checkEntries (t : Tracker) : List (List Key × Value) → Except Conflict Unit
  | [] => .ok ()
  | (key, v) :: rest => do
    let t ← t.takeKey [] (key.map (·.name))
    checkValue v
    checkEntries t rest

end

/-- Takes an entry. -/
def take (t : Tracker) : Entry → Except Conflict Tracker
  | .pair key value => do
    let t ← t.takeKey t.current (key.map (·.name))
    checkValue value
    return t
  | .header isArray key => t.takeHeader isArray (key.map (·.name))

end Tracker

end ErdSql.Toml
