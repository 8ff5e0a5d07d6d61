import ErdSql.Text.Case
import ErdSql.Toml.Reader
import ErdSql.Toml.Tracker

/-!
# Settings of a project

What the configuration file says, read from TOML. Names of settings may be written in any case. Unknown
names are collected, and everything else that does not fit is an error.
-/

namespace ErdSql.Project

/-- What a configuration file says. -/
structure Settings where
  schemas : List String := []
  out : String := ""
  dialect : String := ""
  sidecar : String := ""
  plugins : List String := []
  ifNotExists : Bool := false
  cacheDir : String := ""
  failOnWarnings : Bool := false
  lint : Bool := false
  header : List String := []
  deriving DecidableEq, Inhabited

/-- How a setting takes its value. -/
inductive Slot where
  | text (set : Settings → String → Settings)
  | texts (get : Settings → List String) (set : Settings → List String → Settings)
  | flag (set : Settings → Bool → Settings)

/-- The name of the type of a slot. -/
def Slot.type : Slot → String
  | text _ => "string"
  | texts _ _ => "[]string"
  | flag _ => "bool"

/-- The name of the kind of a slot. -/
def Slot.kind : Slot → String
  | text _ => "string"
  | texts _ _ => "slice"
  | flag _ => "bool"

/-- A setting: its name in the file, its title in messages, and how it takes a value. -/
structure Setting where
  name : String
  title : String
  slot : Slot

/-- All settings. -/
def Setting.all : List Setting :=
  [⟨"schemas", "Schemas", .texts (·.schemas) fun s v => { s with schemas := v }⟩,
    ⟨"out", "Out", .text fun s v => { s with out := v }⟩,
    ⟨"dialect", "Dialect", .text fun s v => { s with dialect := v }⟩,
    ⟨"sidecar", "Sidecar", .text fun s v => { s with sidecar := v }⟩,
    ⟨"plugins", "Plugins", .texts (·.plugins) fun s v => { s with plugins := v }⟩,
    ⟨"if_not_exists", "IfNotExists", .flag fun s v => { s with ifNotExists := v }⟩,
    ⟨"cache_dir", "CacheDir", .text fun s v => { s with cacheDir := v }⟩,
    ⟨"fail_on_warnings", "FailOnWarnings", .flag fun s v => { s with failOnWarnings := v }⟩,
    ⟨"lint", "Lint", .flag fun s v => { s with lint := v }⟩,
    ⟨"header", "Header", .texts (·.header) fun s v => { s with header := v }⟩]

/-- The setting of a name, in any case. -/
def Setting.named? (name : String) : Option Setting :=
  all.find? fun s => s.name == Text.lower name

/-- The wording for a value of a shape that a setting cannot take. -/
def Setting.refusal (setting : Setting) (shape : String) : String :=
  "cannot decode TOML " ++ shape ++ " into struct field config.Config." ++ setting.title ++
    " of type " ++ setting.slot.type

/-- Why settings cannot be read. -/
inductive SettingsError where
  /-- Something at a line and column. -/
  | located (line column : Nat) (message : String)
  | conflict (c : Toml.Conflict)
  /-- A shape of value that a setting cannot take. -/
  | unfit (shape : String) (setting : Setting)
  /-- An entry for a part of a value that has no parts. -/
  | partOf (kind : String)

/-- The wording of an error. -/
def SettingsError.message : SettingsError → String
  | located line column message =>
    "line " ++ toString line ++ " column " ++ toString column ++ ": toml: " ++ message
  | conflict c => c.message
  | unfit shape setting => "toml: " ++ setting.refusal shape
  | partOf kind => "unhandled kv part: " ++ kind

/-- What stands in the way, before its line and column are known. -/
inductive Obstacle where
  | fault (f : Toml.Fault)
  | placed (left : Nat) (message : String)
  | conflict (c : Toml.Conflict)
  | unfit (shape : String) (setting : Setting)
  | partOf (kind : String)

/-- The error that an obstacle in a text is. -/
def Obstacle.error (cs : List Char) : Obstacle → SettingsError
  | fault f =>
    let (line, column) := Toml.position cs f.left
    .located line column f.problem.message
  | placed left message =>
    let (line, column) := Toml.position cs left
    .located line column message
  | conflict c => .conflict c
  | unfit shape setting => .unfit shape setting
  | partOf kind => .partOf kind

/-- What is wrong with a value in the place of one of another kind. -/
def Setting.misfit (setting : Setting) (kind : String) : Toml.Value → Obstacle
  | .text left _ => .placed left (setting.refusal "string")
  | .flag left b => .placed left ("cannot assign boolean to a " ++ (if b then "true" else "false"))
  | .measure _ m (some left) => .fault ⟨left, .badSpelling m⟩
  | .measure left .float none => .placed left ("float cannot be assigned to " ++ kind)
  | .measure left m none => .placed left (setting.refusal m.name)
  | .array _ _ => .unfit "array" setting
  | .table left _ => .placed left ("cannot store inline table in type " ++ kind)

/-- A text for a setting. -/
def textFor (setting : Setting) : Toml.Value → Except Obstacle String
  | .text _ s => .ok s
  | v => .error (setting.misfit "string" v)

/-- The settings with a value for one of them. -/
def Setting.assign (setting : Setting) (settings : Settings) (v : Toml.Value) :
    Except Obstacle Settings :=
  match setting.slot, v with
  | .text set, v => (textFor setting v).map (set settings)
  | .texts _ set, .array _ items => (items.mapM (textFor setting)).map (set settings)
  | .flag set, .flag _ b => .ok (set settings b)
  | slot, v => .error (setting.misfit slot.kind v)

/-- Where the entries of a file go to. -/
inductive Scope where
  | settings
  /-- An unknown table, whose entries are skipped. -/
  | unknown
  /-- A table in the place of a setting or of one of its items, which is of a kind without parts. -/
  | value (kind : String)

/-- What was read so far. -/
structure Progress where
  settings : Settings := {}
  unknown : List String := []
  tracker : Toml.Tracker := Toml.Tracker.empty
  scope : Scope := .settings

namespace Progress

/-- A dotted key as a text. -/
def dotted (key : List Toml.Key) : String :=
  Text.join "." (key.map (·.name))

/-- Adds an unknown name. -/
def miss (p : Progress) (key : List Toml.Key) : Progress :=
  { p with unknown := p.unknown ++ [dotted key] }

/-- Takes a key and its value outside of tables. -/
def assign (p : Progress) (key : List Toml.Key) (v : Toml.Value) : Except Obstacle Progress :=
  match key with
  | [] => .ok p
  | first :: rest =>
    match Setting.named? first.name with
    | none => .ok (p.miss key)
    | some setting =>
      if rest.isEmpty then (setting.assign p.settings v).map fun s => { p with settings := s }
      else .error (.partOf setting.slot.kind)

/-- Takes a header. A header of an array item adds an empty text to a setting that takes texts. -/
def enter (p : Progress) (isArray : Bool) (key : List Toml.Key) : Except Obstacle Progress :=
  match key with
  | [] => .ok p
  | first :: rest =>
    match Setting.named? first.name with
    | none => .ok { p.miss key with scope := .unknown }
    | some setting =>
      match setting.slot with
      | .texts get set =>
        if isArray && rest.isEmpty then
          .ok { p with settings := set p.settings (get p.settings ++ [""]), scope := .value "string" }
        else .error (.placed first.left "cannot store a table in a slice")
      | _ =>
        if isArray then .error (.unfit "array table" setting)
        else if rest.isEmpty then .ok { p with scope := .value setting.slot.kind }
        else .error (.partOf setting.slot.kind)

/-- Takes an entry. The entries of an unknown table are skipped unseen. -/
def take (p : Progress) (entry : Toml.Entry) : Except Obstacle Progress :=
  match p.scope, entry with
  | .unknown, .pair _ _ => .ok p
  | scope, entry => do
    let tracker ← (p.tracker.take entry).mapError .conflict
    let p := { p with tracker }
    match scope, entry with
    | _, .header isArray key => p.enter isArray key
    | .value kind, .pair _ _ => throw (.partOf kind)
    | _, .pair key v => p.assign key v

/-- Takes all entries, then the fault behind them. -/
def takeAll (p : Progress) (entries : List Toml.Entry) (fault : Option Toml.Fault) :
    Except Obstacle Progress := do
  let p ← entries.foldlM take p
  match fault with
  | some f => throw (.fault f)
  | none => return p

end Progress

/-- The settings that a text spells and the unknown names in it. -/
def Settings.read (cs : List Char) : Except SettingsError (Settings × List String) :=
  let (entries, fault) := Toml.read cs
  match ({} : Progress).takeAll entries fault with
  | .ok p => .ok (p.settings, p.unknown)
  | .error o => .error (o.error cs)

/-- The longest start of some bytes that is UTF-8. -/
def validStart (bytes : List UInt8) : List Char :=
  (((List.range (bytes.length + 1)).reverse.map fun n => Text.decode? (bytes.take n)).findSome? id).getD
    []

/-- The settings that bytes spell, which must be UTF-8. -/
def Settings.readBytes (bytes : List UInt8) : Except SettingsError (Settings × List String) :=
  match Text.decode? bytes with
  | some cs => read cs
  | none =>
    let (line, column) := Toml.position (validStart bytes) 0
    .error (.located line column "invalid UTF-8")

end ErdSql.Project
