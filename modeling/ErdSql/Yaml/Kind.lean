import ErdSql.Instant
import ErdSql.Yaml

/-!
# Kinds of plain scalars

A scalar without quotes may be a null, a truth value, a number or a date. What it is follows from its
spelling alone.
-/

namespace ErdSql.Yaml

/-- The value of a digit in bases up to sixteen. -/
def digitValue (c : Char) : Nat :=
  if c.isDigit then c.toNat - '0'.toNat
  else if 'a' ≤ c && c ≤ 'f' then c.toNat - 'a'.toNat + 10
  else if 'A' ≤ c && c ≤ 'F' then c.toNat - 'A'.toNat + 10
  else 16

/-- The number that digits of a base spell; nothing spells zero. -/
def natural? (base : Nat) (cs : List Char) : Option Nat :=
  if cs.all fun c => digitValue c < base then some (cs.foldl (fun n c => base * n + digitValue c) 0)
  else none

/-- Whether there are digits of base ten and nothing else. -/
def isNumeral (cs : List Char) : Bool :=
  !cs.isEmpty && cs.all Char.isDigit

/-- Characters without a sign in front. -/
def dropSign : List Char → List Char
  | '+' :: cs => cs
  | '-' :: cs => cs
  | cs => cs

/-- The base of a number and its digits: a zero in front means base eight, and a letter behind the zero
another base. -/
def basedDigits : List Char → Nat × List Char
  | '0' :: b :: c :: rest =>
    if b == 'x' || b == 'X' then (16, c :: rest)
    else if b == 'o' || b == 'O' then (8, c :: rest)
    else if b == 'b' || b == 'B' then (2, c :: rest)
    else (8, b :: c :: rest)
  | '0' :: rest => (8, rest)
  | cs => (10, cs)

/-- Whether a number fits: 64 bits without a sign, or 64 bits of which one is the sign. -/
def fits (cs : List Char) (n : Nat) : Bool :=
  match cs with
  | '-' :: _ => n ≤ Nat.pow 2 63
  | '+' :: _ => n < Nat.pow 2 63
  | _ => n < Nat.pow 2 64

/-- Whether characters spell a number of a base that fits, possibly behind a sign. -/
def isSigned (base : Nat) (cs : List Char) : Bool :=
  let digits := dropSign cs
  !digits.isEmpty && ((natural? base digits).map (fits cs)).getD false

/-- Whether characters spell a whole number that fits: decimal, or in base 2, 8 or 16 with the usual
marks. A sign stands in front, or behind the mark of base 2 or 8. -/
def isInt (cs : List Char) : Bool :=
  let body := dropSign cs
  let (base, digits) := basedDigits body
  !body.isEmpty && ((natural? base digits).map (fits cs)).getD false ||
    match cs with
    | '0' :: 'b' :: rest => isSigned 2 rest
    | '0' :: 'o' :: rest => isSigned 8 rest
    | _ => false

/-- A decimal number taken apart. -/
structure Numeral where
  whole : List Char
  fraction : List Char
  exponent : Int

/-- The exponent that characters spell, zero for nothing. -/
def exponent? : List Char → Option Int
  | [] => some 0
  | e :: cs =>
    let digits := dropSign cs
    if (e == 'e' || e == 'E') && isNumeral digits then
      (natural? 10 digits).map fun n => if cs.head? == some '-' then -(n : Int) else n
    else none

/-- The decimal number that characters spell. -/
def numeral? (cs : List Char) : Option Numeral :=
  let cs := dropSign cs
  let whole := cs.takeWhile Char.isDigit
  match cs.drop whole.length with
  | '.' :: rest =>
    let fraction := rest.takeWhile Char.isDigit
    if whole.isEmpty && fraction.isEmpty then none
    else (exponent? (rest.drop fraction.length)).map (⟨whole, fraction, ·⟩)
  | rest => if whole.isEmpty then none else (exponent? rest).map (⟨whole, [], ·⟩)

/-- The least number that no double-precision number is near to. -/
def floatLimit : Nat := Nat.pow 2 1024 - Nat.pow 2 970

/-- Whether a number is below the limit of double precision. -/
def Numeral.isFinite (n : Numeral) : Bool :=
  let digits := (n.whole ++ n.fraction).dropWhile (· == '0')
  let value := (natural? 10 digits).getD 0
  let exponent : Int := n.exponent - n.fraction.length
  let size : Int := digits.length + exponent
  if value == 0 || size < 309 then true
  else if size > 309 then false
  else if exponent < 0 then value < floatLimit * Nat.pow 10 exponent.natAbs
  else value * Nat.pow 10 exponent.natAbs < floatLimit

/-- Whether characters spell a decimal number within the range of double precision. -/
def isFloat (cs : List Char) : Bool :=
  ((numeral? cs).map (·.isFinite)).getD false

/-- Whether every underscore stands between two digits. -/
def dividesDigits (afterDigit : Bool) : List Char → Bool
  | [] => true
  | c :: cs =>
    if c == '_' then afterDigit && (cs.head?.map Char.isDigit).getD false && dividesDigits false cs
    else dividesDigits c.isDigit cs

/-- The kind that the spelling of a plain scalar gives. Dates are only looked for if they are asked
for. -/
def kindOf (dates : Bool) (s : String) : Tag :=
  if ["", "~", "null", "Null", "NULL"].contains s then .null
  else if ["true", "True", "TRUE", "false", "False", "FALSE"].contains s then .bool
  else if [".nan", ".NaN", ".NAN", ".inf", ".Inf", ".INF", "+.inf", "+.Inf", "+.INF", "-.inf", "-.Inf",
      "-.INF"].contains s then .float
  else
    let cs := s.toList
    let plain := cs.filter (· != '_')
    match cs with
    | '.' :: _ => if dividesDigits false cs && isFloat plain then .float else .str
    | c :: _ =>
      if c.isDigit || c == '+' || c == '-' then
        if dates && Instant.isTimestamp s then .timestamp
        else if isInt plain then .int
        else if isFloat plain then .float
        else .str
      else .str
    | [] => .null

/-- The kind of a plain scalar that has no tag. -/
def plainTag (s : String) : Tag :=
  if s == "<<" then .merge else kindOf true s

/-- Whether a scalar of a kind may have a spelling: a kind that has spellings of its own takes no
others, but a whole number is a number. -/
def Tag.admits (tag : Tag) (s : String) : Bool :=
  let kind := kindOf (tag == .timestamp) s
  match tag with
  | null => kind == .null
  | bool => kind == .bool
  | int => kind == .int
  | float => kind == .float || kind == .int
  | timestamp => kind == .timestamp
  | _ => true

end ErdSql.Yaml
