import ErdSql.Json
import ErdSql.Text.Quoted
import ErdSql.Text.Space

/-!
# Log records

Records with a level, a message and attributes, written as one line each, as text or as JSON. Levels
are numbers; four of them have names, and the others are written by their distance from the one
below.
-/

namespace ErdSql.Log

/-- The level of a record. -/
structure Level where
  value : Int
  deriving DecidableEq, Inhabited

namespace Level

/-- Records for finding faults. -/
def debug : Level := ⟨-4⟩
/-- Records of what is done. -/
def info : Level := ⟨0⟩
/-- Records of what may be wrong. -/
def warn : Level := ⟨4⟩
/-- Records of what went wrong. -/
def error : Level := ⟨8⟩

/-- A name with a distance, unless that is zero. -/
def named (name : String) (distance : Int) : String :=
  if distance == 0 then name
  else if distance > 0 then name ++ "+" ++ toString distance
  else name ++ toString distance

/-- The name of a level. -/
def name (l : Level) : String :=
  if l.value < info.value then named "DEBUG" (l.value - debug.value)
  else if l.value < warn.value then named "INFO" (l.value - info.value)
  else if l.value < error.value then named "WARN" (l.value - warn.value)
  else named "ERROR" (l.value - error.value)

end Level

/-- The value of an attribute. -/
inductive Value where
  | text (s : String)
  | number (n : Int)
  | flag (b : Bool)
  deriving DecidableEq, Inhabited

/-- A record. -/
structure Record where
  level : Level
  message : String
  attributes : List (String × Value)
  deriving DecidableEq, Inhabited

/-- Which records are written, and how. Quiet wins over verbose. -/
structure Options where
  verbose : Bool := false
  quiet : Bool := false
  json : Bool := false
  deriving DecidableEq, Inhabited

/-- The lowest level that is written. -/
def Options.level (o : Options) : Level :=
  if o.quiet then .error else if o.verbose then .debug else .info

/-- Whether a character makes a text be quoted. -/
def forcesQuotes (c : Char) : Bool :=
  if c.toNat < 0x80 then c.toNat ≤ 0x20 || c == '=' || c == '"'
  else c == '\ufffd' || Text.isSpace c || !Text.isPrintable c

/-- A text in a text record. -/
def textForm (s : String) : String :=
  if s == "" || s.toList.any forcesQuotes then Text.quoted s else s

/-- A value in a text record. -/
def Value.plain : Value → String
  | text s => textForm s
  | number n => toString n
  | flag b => if b then "true" else "false"

/-- A character in a string of a JSON record. -/
def escapeChar (c : Char) : List Char :=
  match c with
  | '"' => ['\\', '"']
  | '\\' => ['\\', '\\']
  | '\n' => ['\\', 'n']
  | '\r' => ['\\', 'r']
  | '\t' => ['\\', 't']
  | c =>
    if c.toNat < 0x20 || c == '\u2028' || c == '\u2029' then
      '\\' :: 'u' :: Text.hexDigits 4 c.toNat
    else [c]

/-- A text in a JSON record. -/
def jsonForm (s : String) : String :=
  "\"" ++ String.ofList (s.toList.flatMap escapeChar) ++ "\""

/-- A value in a JSON record. -/
def Value.json : Value → String
  | text s => jsonForm s
  | number n => toString n
  | flag b => if b then "true" else "false"

/-- A record as a line of text. -/
def Record.renderText (time : String) (r : Record) : String :=
  Text.join " " (["time=" ++ time, "level=" ++ textForm r.level.name, "msg=" ++ textForm r.message] ++
    r.attributes.map fun (key, value) => textForm key ++ "=" ++ value.plain) ++ "\n"

/-- A record as a line of JSON. -/
def Record.renderJson (time : String) (r : Record) : String :=
  "\x7b" ++ Text.join "," (["\"time\":" ++ jsonForm time, "\"level\":" ++ jsonForm r.level.name,
    "\"msg\":" ++ jsonForm r.message] ++
    r.attributes.map fun (key, value) => jsonForm key ++ ":" ++ value.json) ++ "\x7d\n"

/-- What is written of records that all have one time. -/
def render (o : Options) (time : String) (records : List Record) : String :=
  String.join ((records.filter fun r => o.level.value ≤ r.level.value).map
    (if o.json then Record.renderJson time else Record.renderText time))

end ErdSql.Log
