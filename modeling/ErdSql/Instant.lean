import ErdSql.Text.Split

/-!
# Moments

A moment is a number of nanoseconds. It is written as a date and a time of day in UTC, and read from a
date, a time of day and an offset.
-/

namespace ErdSql

/-- Nanoseconds since the start of the year 1970. -/
structure Instant where
  nanos : Int
  deriving DecidableEq, Inhabited

namespace Instant

/-- The number of days from the first of January 1970 to a date. Years start in March, so that the
leap day is the last one. -/
def daysOfDate (year month day : Int) : Int :=
  let y := if month ≤ 2 then year - 1 else year
  let era := y / 400
  let yearOfEra := y % 400
  let dayOfYear := (153 * ((month + 9) % 12) + 2) / 5 + day - 1
  era * 146097 + yearOfEra * 365 + yearOfEra / 4 - yearOfEra / 100 + dayOfYear - 719468

/-- The date that is a number of days after the first of January 1970. -/
def dateOfDays (days : Int) : Int × Int × Int :=
  let z := days + 719468
  let era := z / 146097
  let dayOfEra := z % 146097
  let yearOfEra := (dayOfEra - dayOfEra / 1460 + dayOfEra / 36524 - dayOfEra / 146096) / 365
  let dayOfYear := dayOfEra - (365 * yearOfEra + yearOfEra / 4 - yearOfEra / 100)
  let m := (5 * dayOfYear + 2) / 153
  let day := dayOfYear - (153 * m + 2) / 5 + 1
  let month := if m < 10 then m + 3 else m - 9
  (yearOfEra + era * 400 + (if month ≤ 2 then 1 else 0), month, day)

/-- Nanoseconds in a second. -/
def perSecond : Int := 1000000000

/-- Seconds in a day. -/
def daySeconds : Int := 86400

/-- The start of the first year. -/
def zero : Instant := ⟨daysOfDate 1 1 1 * daySeconds * perSecond⟩

/-- The moment some nanoseconds later. -/
def plus (i : Instant) (nanos : Int) : Instant := ⟨i.nanos + nanos⟩

/-- Whether a moment comes before another. -/
def isBefore (a b : Instant) : Bool := a.nanos < b.nanos

/-- Whether a year has a leap day. -/
def isLeap (year : Nat) : Bool :=
  year % 4 == 0 && (year % 100 != 0 || year % 400 == 0)

/-- The number of days in a month. -/
def daysInMonth (year month : Nat) : Nat :=
  if month == 2 then if isLeap year then 29 else 28
  else if [4, 6, 9, 11].contains month then 30 else 31

/-- A number with zeros in front until it has `width` digits. -/
def padded (width : Nat) (n : Int) : String :=
  let digits := toString n.toNat
  Text.replicate (width - digits.length) '0' ++ digits

/-- The digits behind the point without zeros at the end, with the point; empty for none. -/
def fractionText (nanos : Int) : String :=
  let digits := ((padded 9 nanos).toList.reverse.dropWhile (· == '0')).reverse
  if digits.isEmpty then "" else "." ++ String.ofList digits

/-- A moment as a text in UTC. -/
def text (i : Instant) : String :=
  let seconds := i.nanos / perSecond
  let (year, month, day) := dateOfDays (seconds / daySeconds)
  let s := seconds % daySeconds
  padded 4 year ++ "-" ++ padded 2 month ++ "-" ++ padded 2 day ++ "T" ++ padded 2 (s / 3600) ++ ":" ++
    padded 2 (s / 60 % 60) ++ ":" ++ padded 2 (s % 60) ++ fractionText (i.nanos % perSecond) ++ "Z"

/-! ### Reading -/

/-- The number that characters spell, if they are `width` digits. -/
def digits? (width : Nat) (cs : List Char) : Option Nat :=
  let ds := cs.take width
  if ds.length == width && ds.all Char.isDigit then
    some (ds.foldl (fun n c => 10 * n + (c.toNat - '0'.toNat)) 0)
  else none

/-- A number of two digits, or of one if it may be `short`, and the characters behind it. -/
def field? (short : Bool) (cs : List Char) : Option (Nat × List Char) :=
  match digits? 2 cs with
  | some n => some (n, cs.drop 2)
  | none => if short then (digits? 1 cs).map fun n => (n, cs.drop 1) else none

/-- The characters behind a mark. -/
def mark? (mark : Char) : List Char → Option (List Char)
  | c :: cs => if c == mark then some cs else none
  | [] => none

/-- A date in the form year, month, day as a number of days, and the characters behind it. The month
and the day may be `short`. -/
def date? (short : Bool) (cs : List Char) : Option (Int × List Char) := do
  let year ← digits? 4 cs
  let (month, cs) ← field? short (← mark? '-' (cs.drop 4))
  let (day, cs) ← field? short (← mark? '-' cs)
  if month < 1 || month > 12 || day < 1 || day > daysInMonth year month then none
  else return (daysOfDate year month day, cs)

/-- A fraction of a second behind a point or a comma in nanoseconds, which is zero if there is none,
and the characters behind it. -/
def fraction : List Char → Nat × List Char
  | mark :: cs =>
    let ds := cs.takeWhile Char.isDigit
    if (mark == '.' || mark == ',') && !ds.isEmpty then
      ((digits? 9 (ds.take 9 ++ List.replicate (9 - ds.length) '0')).getD 0, cs.drop ds.length)
    else (0, mark :: cs)
  | [] => (0, [])

/-- A time of day in nanoseconds, and the characters behind it. The hour may always be short, the
minutes and seconds only if all fields may. -/
def clock? (short : Bool) (cs : List Char) : Option (Int × List Char) := do
  let (hour, cs) ← field? true cs
  let (minute, cs) ← field? short (← mark? ':' cs)
  let (second, cs) ← field? short (← mark? ':' cs)
  let (nanos, cs) := fraction cs
  if hour > 23 || minute > 59 || second > 59 then none
  else return ((hour * 3600 + minute * 60 + second) * perSecond + nanos, cs)

/-- The offset from UTC in seconds: `Z`, or hours and minutes behind a sign. Nothing may follow. An
offset can be a whole day and sixty minutes. -/
def offset? : List Char → Option Int
  | ['Z'] => some 0
  | sign :: cs => do
    let hours ← digits? 2 cs
    let minutes ← digits? 2 (cs.drop 3)
    if cs.length != 5 || cs[2]? != some ':' || hours > 24 || minutes > 60 then none
    else
      let seconds : Int := 3600 * hours + 60 * minutes
      if sign == '+' then some seconds else if sign == '-' then some (-seconds) else none
  | [] => none

/-- The moment that a text spells: a date, a time of day, possibly with a fraction, and an offset. -/
def ofText? (s : String) : Option Instant := do
  let (days, cs) ← date? false s.toList
  let (nanos, cs) ← clock? false (← mark? 'T' cs)
  let offset ← offset? cs
  return ⟨(days * daySeconds - offset) * perSecond + nanos⟩

/-- Whether a text is a moment in a looser form: a date alone, a date and a time of day behind blanks,
or both and an offset with a `T` or `t` between them. Fields may be short. -/
def isTimestamp (s : String) : Bool :=
  match date? true s.toList with
  | none => false
  | some (_, []) => true
  | some (_, mark :: cs) =>
    if mark == ' ' then
      ((clock? true (cs.dropWhile (· == ' '))).map fun (_, rest) => rest.isEmpty).getD false
    else if mark == 'T' || mark == 't' then
      (((clock? true cs).bind fun (_, rest) => offset? rest).map fun _ => true).getD false
    else false

end Instant

end ErdSql
