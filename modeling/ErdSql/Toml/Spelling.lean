import ErdSql.Instant
import ErdSql.Toml

/-!
# Spellings of numbers and moments

Where the spelling of a number, date or time goes wrong. A place is a number of characters from the
start of the spelling; a spelling that is wrong as a whole goes wrong at its start.
-/

namespace ErdSql.Toml

/-- A check of a spelling, which fails at a place. -/
abbrev Spelling (α : Type) : Type := Except Nat α

namespace Spelling

/-! ### Numbers -/

/-- Underscores at the ends: a number has none at its start, which may stand behind a sign, and none at
its end. -/
def checkEnds (start : Nat) (cs : List Char) : Spelling Unit := do
  if cs[start]? == some '_' then throw start
  if cs.getLast? == some '_' then throw (cs.length - 1)

/-- Underscores inside a whole number: there is a digit between any two of them. `i` counts the
characters before. -/
def checkDivided (digit : Bool) (i : Nat) : List Char → Spelling Unit
  | [] => .ok ()
  | c :: cs =>
    if c == '_' then if digit then checkDivided false (i + 1) cs else .error (i - 1)
    else checkDivided true (i + 1) cs

/-- The place where the digits of a whole number go wrong. -/
def checkDigits (cs : List Char) : Spelling Unit := do
  let start := if cs.head? == some '+' || cs.head? == some '-' then 1 else 0
  if cs.length == start then return
  checkEnds start cs
  let before := cs.takeWhile (· != '_')
  checkDivided false (before.length + 1) (cs.drop (before.length + 1))

/-- The place where a whole number goes wrong. In other bases than ten its digits stand behind a mark
of two characters. -/
def checkInteger (cs : List Char) : Spelling Unit :=
  match cs with
  | '0' :: b :: c :: rest =>
    if b == 'x' || b == 'o' || b == 'b' then (checkDigits (c :: rest)).mapError (2 + ·)
    else checkDigits cs
  | _ => checkDigits cs

/-- Underscores inside a number with a point or exponent: each has a digit before it, and none stands
beside a point or beside the mark of an exponent. -/
def checkParted (digit : Bool) (before : Option Char) (i : Nat) : List Char → Spelling Unit
  | [] => .ok ()
  | c :: cs =>
    let next := cs.head?
    if c == '_' then
      if !digit then .error (i - 1)
      else if next == some 'e' || next == some 'E' then .error (i + 1)
      else checkParted false (some c) (i + 1) cs
    else if c == '+' || c == '-' then checkParted false (some c) (i + 1) cs
    else if c == 'e' || c == 'E' then
      if next == some '_' then .error (i + 1) else checkParted digit (some c) (i + 1) cs
    else if c == '.' then
      if next == some '_' then .error (i + 1)
      else if before == some '_' then .error (i - 1)
      else checkParted digit (some c) (i + 1) cs
    else checkParted true (some c) (i + 1) cs

/-- Points inside a number: there is one, between two digits. -/
def checkPoints (seen : Bool) (before : Option Char) (i : Nat) : List Char → Spelling Unit
  | [] => .ok ()
  | c :: cs =>
    if c != '.' then checkPoints seen (some c) (i + 1) cs
    else if seen then .error i
    else if !(before.map Char.isDigit).getD false then .error (i - 1)
    else if !(cs.head?.map Char.isDigit).getD false then .error i
    else checkPoints true (some c) (i + 1) cs

/-- The place where a number with a point or exponent goes wrong. -/
def checkFloat (cs : List Char) : Spelling Unit := do
  checkEnds 0 cs
  if cs.contains '_' then checkParted false none 0 cs
  let digits := cs.filter (· != '_')
  if digits.head? == some '.' || digits.getLast? == some '.' then throw 0
  checkPoints false none 0 digits

/-! ### Dates and times -/

/-- The number that characters spell; `i` characters stand before them. -/
def digits (i : Nat) (cs : List Char) : Spelling Nat :=
  match cs.findIdx? fun c => !c.isDigit with
  | some k => .error (i + k)
  | none => .ok (cs.foldl (fun n c => 10 * n + (c.toNat - '0'.toNat)) 0)

/-- A part of the characters. -/
def part (cs : List Char) (first last : Nat) : List Char := (cs.take last).drop first

/-- The place where a date of ten characters goes wrong. -/
def checkDate (cs : List Char) : Spelling Unit := do
  if cs.length != 10 || cs[4]? != some '-' || cs[7]? != some '-' then throw 0
  let year ← digits 0 (part cs 0 4)
  let month ← digits 5 (part cs 5 7)
  let day ← digits 8 (part cs 8 10)
  if month < 1 || month > 12 || day < 1 || day > Instant.daysInMonth year month then throw 0

/-- Checks a time of day and gives the place behind it. The time starts behind `i` characters. -/
def clock (i : Nat) (cs : List Char) : Spelling Nat := do
  let time := cs.drop i
  if time.length < 8 then throw i
  let hour ← digits i (part time 0 2)
  if hour > 23 then throw i
  if time[2]? != some ':' then throw (i + 2)
  let minute ← digits (i + 3) (part time 3 5)
  if minute > 59 then throw (i + 3)
  if time[5]? != some ':' then throw (i + 5)
  let second ← digits (i + 6) (part time 6 8)
  if second > 60 then throw (i + 6)
  if time[8]? != some '.' then return i + 8
  let fraction := (time.drop 9).takeWhile Char.isDigit
  if fraction.isEmpty then throw (i + 8)
  return i + 9 + fraction.length

/-- Checks a date and a time of day and gives the place behind them. -/
def dateAndClock (cs : List Char) : Spelling Nat := do
  if cs.length < 11 then throw 0
  checkDate (cs.take 10)
  if !(cs[10]?.map fun c => c == 'T' || c == 't' || c == ' ').getD false then throw 10
  clock 11 cs

/-- The place where an offset that starts behind `i` characters goes wrong. -/
def checkOffset (i : Nat) (cs : List Char) : Spelling Unit := do
  match cs.drop i with
  | [] => return
  | c :: rest =>
    if c == 'Z' || c == 'z' then
      if rest.isEmpty then return else throw (i + 1)
    if rest.length != 5 then throw i
    if c != '+' && c != '-' then throw i
    if rest[2]? != some ':' then throw (i + 3)
    let hours ← digits (i + 1) (part rest 0 2)
    if hours > 23 then throw i
    let minutes ← digits (i + 4) (part rest 3 5)
    if minutes > 59 then throw i

/-- Fails at a place unless it is the end. -/
def checkEnd (i : Nat) (cs : List Char) : Spelling Unit :=
  if i < cs.length then .error i else .ok ()

/-- The place where a spelling goes wrong. -/
def check (kind : Measure) (cs : List Char) : Spelling Unit :=
  match kind with
  | .integer => checkInteger cs
  | .float => checkFloat cs
  | .localDate => checkDate cs
  | .localTime => do checkEnd (← clock 0 cs) cs
  | .localDateTime => do checkEnd (← dateAndClock cs) cs
  | .dateTime => do checkOffset (← dateAndClock cs) cs

end Spelling

end ErdSql.Toml
