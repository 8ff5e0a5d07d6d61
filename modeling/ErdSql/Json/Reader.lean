import ErdSql.Json
import ErdSql.Text.Bytes

/-!
# Reading JSON

A text is read as a whole or not at all. Members of an object keep their order, also those that share a
key.
-/

namespace ErdSql.Json

/-- A reader takes characters from the start of a text. -/
abbrev Reader (α : Type) : Type := StateT (List Char) Option α

namespace Reader

/-- Whether a character may stand between values. -/
def isGap (c : Char) : Bool := c == ' ' || c == '\t' || c == '\n' || c == '\r'

/-- Skips white space. -/
def skipGap : Reader Unit := modify fun cs => cs.dropWhile isGap

/-- Takes a given word. -/
def word (w : String) : Reader Unit := do
  let cs ← get
  if w.toList.isPrefixOf cs then set (cs.drop w.length) else failure

/-- Takes all characters of a kind. -/
def many (p : Char → Bool) : Reader (List Char) := do
  let cs ← get
  set (cs.dropWhile p)
  return cs.takeWhile p

/-- Takes one digit or more. -/
def digits : Reader (List Char) := do
  let ds ← many Char.isDigit
  if ds.isEmpty then failure
  return ds

/-- Takes one of some characters if it stands here. -/
def optional (choices : List Char) : Reader (List Char) := do
  match ← get with
  | c :: rest =>
    if choices.contains c then
      set rest
      return [c]
    else return []
  | [] => return []

/-- The value of decimal digits. -/
def decimalValue (ds : List Char) : Nat :=
  ds.foldl (fun n c => 10 * n + (c.toNat - '0'.toNat)) 0

/-- A number. -/
def number : Reader Json := do
  let sign ← optional ['-']
  let whole ← digits
  if whole.head? == some '0' && whole.length > 1 then failure
  let point ← optional ['.']
  let fraction ← if point.isEmpty then pure [] else digits
  let mark ← optional ['e', 'E']
  let exponentSign ← if mark.isEmpty then pure [] else optional ['+', '-']
  let exponent ← if mark.isEmpty then pure [] else digits
  if point.isEmpty && mark.isEmpty then
    let n : Int := decimalValue whole
    return .int (if sign.isEmpty then n else -n)
  else
    return .number (String.ofList (sign ++ whole ++ point ++ fraction ++ mark ++ exponentSign ++
      exponent))

/-- What escapes of one letter stand for. -/
def escapes : List (Char × Char) :=
  [('"', '"'), ('\\', '\\'), ('/', '/'), ('b', '\x08'), ('f', '\x0c'), ('n', '\n'), ('r', '\r'),
    ('t', '\t')]

/-- The unit that four hexadecimal digits spell. -/
def unit? (cs : List Char) : Option Nat :=
  if cs.length < 4 then none
  else (cs.take 4).foldlM (fun n c => (Text.hexValue? c).map (16 * n + ·)) 0

/-- Whether a unit is the first of a pair. -/
def isHigh (n : Nat) : Bool := 0xd800 ≤ n && n < 0xdc00

/-- Whether a unit is the second of a pair. -/
def isLow (n : Nat) : Bool := 0xdc00 ≤ n && n < 0xe000

/-- The second unit of a pair, if it follows as an escape. -/
def low? : List Char → Option Nat
  | '\\' :: 'u' :: cs => (unit? cs).filter isLow
  | _ => none

/-- The characters of a string up to its closing quote, and what follows the quote. A unit without its
partner becomes a replacement character. -/
def stringBody : Nat → List Char → Option (List Char × List Char)
  | 0, _ => none
  | fuel + 1, cs =>
    let more (c : Char) (rest : List Char) := (stringBody fuel rest).map fun (t, r) => (c :: t, r)
    match cs with
    | [] => none
    | '"' :: rest => some ([], rest)
    | '\\' :: 'u' :: rest =>
      match unit? rest with
      | none => none
      | some high =>
        let after := rest.drop 4
        if isHigh high then
          match low? after with
          | some low => more (Char.ofNat (0x10000 + (high - 0xd800) * 0x400 + (low - 0xdc00)))
              (after.drop 6)
          | none => more '\ufffd' after
        else if isLow high then more '\ufffd' after
        else more (Char.ofNat high) after
    | '\\' :: e :: rest =>
      match escapes.lookup e with
      | some c => more c rest
      | none => none
    | c :: rest => if c.toNat < 0x20 || c == '\\' then none else more c rest

/-- A string behind its opening quote. -/
def string : Reader String := do
  let cs ← get
  match stringBody (cs.length + 1) cs with
  | none => failure
  | some (text, rest) =>
    set rest
    return String.ofList text

mutual

/-- A value. -/
def value : Nat → Reader Json
  | 0 => failure
  | fuel + 1 => do
    skipGap
    match ← get with
    | [] => failure
    | '"' :: rest => do set rest; return .str (← string)
    | 't' :: _ => do word "true"; return .bool true
    | 'f' :: _ => do word "false"; return .bool false
    | 'n' :: _ => do word "null"; return .null
    | '[' :: rest => do
      set rest
      skipGap
      match ← get with
      | ']' :: rest => do set rest; return .arr []
      | _ => return .arr (← items fuel)
    | '\x7b' :: rest => do
      set rest
      skipGap
      match ← get with
      | '\x7d' :: rest => do set rest; return .obj []
      | _ => return .obj (← members fuel)
    | _ => number

/-- The items of an array from here on. -/
def items : Nat → Reader (List Json)
  | 0 => failure
  | fuel + 1 => do
    let item ← value fuel
    skipGap
    match ← get with
    | ',' :: rest => do set rest; return item :: (← items fuel)
    | ']' :: rest => do set rest; return [item]
    | _ => failure

/-- The members of an object from here on. -/
def members : Nat → Reader (List (String × Json))
  | 0 => failure
  | fuel + 1 => do
    skipGap
    word "\""
    let key ← string
    skipGap
    word ":"
    let item ← value fuel
    skipGap
    match ← get with
    | ',' :: rest => do set rest; return (key, item) :: (← members fuel)
    | '\x7d' :: rest => do set rest; return [(key, item)]
    | _ => failure

end

/-- A value and nothing else. -/
def document : Reader Json := do
  let v ← value (2 * (← get).length + 2)
  skipGap
  if !(← get).isEmpty then failure
  return v

end Reader

/-- The value that a text spells. -/
def read? (cs : List Char) : Option Json :=
  (Reader.document.run cs).map (·.1)

end ErdSql.Json
