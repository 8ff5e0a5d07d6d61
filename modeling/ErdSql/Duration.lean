import ErdSql.Text.Bytes
import ErdSql.Word

/-!
# Durations

A duration is a sum of numbers with units behind an optional sign, such as `1h30m` or `-1.5s`. It is
kept in nanoseconds and has 64 bits.
-/

namespace ErdSql

/-- A signed number of nanoseconds. -/
structure Duration where
  nanos : Int
  deriving DecidableEq, Inhabited

namespace Duration

/-- Why a text is no duration. -/
inductive Fault where
  | malformed (text : String)
  | noUnit (text : String)
  | unknownUnit (unit text : String)
  deriving DecidableEq, Inhabited

/-- A character between quotes: those that are not ASCII, and control characters, are shown by their
bytes. -/
def shownChar (c : Char) : List Char :=
  if c.toNat < 0x20 || c.toNat ≥ 0x80 then
    (String.utf8EncodeChar c).flatMap fun b => '\\' :: 'x' :: Text.hexByte b
  else if c == '"' || c == '\\' then ['\\', c]
  else [c]

/-- A text in double quotes. -/
def shown (s : String) : String :=
  "\"" ++ String.ofList (s.toList.flatMap shownChar) ++ "\""

/-- The wording of a fault. -/
def Fault.message : Fault → String
  | malformed text => "time: invalid duration " ++ shown text
  | noUnit text => "time: missing unit in duration " ++ shown text
  | unknownUnit unit text => "time: unknown unit " ++ shown unit ++ " in duration " ++ shown text

/-- The units in nanoseconds. The first letter of a microsecond is also written in two ways beyond
ASCII. -/
def units : List (String × Nat) :=
  [("ns", 1), ("us", 1000), ("\u00b5s", 1000), ("\u03bcs", 1000), ("ms", 1000000), ("s", 1000000000),
    ("m", 60000000000), ("h", 3600000000000)]

/-- The size of the largest sum. -/
def limit : Nat := Nat.pow 2 63

/-- The number that decimal digits spell. -/
def digitsValue (ds : List Char) : Nat :=
  ds.foldl (fun n c => 10 * n + (c.toNat - '0'.toNat)) 0

/-- The digits behind a point at the start, and what follows them. -/
def fraction : List Char → List Char × List Char
  | '.' :: cs => cs.span Char.isDigit
  | cs => ([], cs)

/-- A number with its unit at the start of the rest of a text, in nanoseconds, and what follows it. Parts
of a nanosecond are dropped. -/
def term (text : String) (cs : List Char) : Except Fault (Nat × List Char) :=
  let (whole, behindWhole) := cs.span Char.isDigit
  if digitsValue whole > limit then .error (.malformed text)
  else
    let (part, behindNumber) := fraction behindWhole
    if whole.isEmpty && part.isEmpty then .error (.malformed text)
    else
      let (unit, rest) := behindNumber.span fun c => c != '.' && !c.isDigit
      if unit.isEmpty then .error (.noUnit text)
      else match units.lookup (String.ofList unit) with
        | none => .error (.unknownUnit (String.ofList unit) text)
        | some size =>
          let nanos := digitsValue whole * size + digitsValue part * size / Nat.pow 10 part.length
          if nanos > limit then .error (.malformed text) else .ok (nanos, rest)

/-- The sum of all terms. Every term has at least one character, so the number of characters is enough
fuel. -/
def sum (text : String) : Nat → Nat → List Char → Except Fault Nat
  | _, total, [] => .ok total
  | 0, _, _ :: _ => .error (.malformed text)
  | fuel + 1, total, c :: cs => do
    let (nanos, rest) ← term text (c :: cs)
    let total := (total + nanos) % Nat.pow 2 64
    if total > limit then throw (.malformed text)
    sum text fuel total rest

/-- Whether a text has a minus sign, and what follows the sign. -/
def signed : List Char → Bool × List Char
  | '-' :: cs => (true, cs)
  | '+' :: cs => (false, cs)
  | cs => (false, cs)

/-- The duration that a text spells. Zero needs no unit. -/
def ofText (s : String) : Except Fault Duration := do
  let (negative, cs) := signed s.toList
  if cs == ['0'] then return ⟨0⟩
  if cs.isEmpty then throw (.malformed s)
  let total ← sum s cs.length 0 cs
  if negative then return ⟨-total⟩
  if total ≥ limit then throw (.malformed s)
  return ⟨total⟩

/-- The opposite of a duration; the smallest one has none among the words and stands for itself. -/
def opposite (d : Duration) : Duration := ⟨Word.ofInt (-d.nanos)⟩

/-- Some hours. -/
def hours (n : Int) : Duration := ⟨Word.ofInt (n * 3600000000000)⟩

/-- Some milliseconds. -/
def milliseconds (n : Int) : Duration := ⟨n * 1000000⟩

end Duration

end ErdSql
