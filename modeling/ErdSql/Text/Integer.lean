import ErdSql.Text.Quoted

/-!
# Whole numbers with a base

Whole numbers of 64 bits behind an optional sign. A number that starts with `0b`, `0o` or `0x` is binary,
octal or hexadecimal, and one that starts with `0` is octal. Underscores may stand between digits.
-/

namespace ErdSql.Text

/-- Why a text is no whole number. -/
inductive IntegerFault where
  | malformed
  | tooLarge
  deriving DecidableEq, Inhabited

/-- The wording of a fault. -/
def IntegerFault.message : IntegerFault → String
  | malformed => "invalid syntax"
  | tooLarge => "value out of range"

/-- The value of a digit in the largest base that letters allow. -/
def digitOf? (c : Char) : Option Nat :=
  if c.isDigit then some (c.toNat - '0'.toNat)
  else if c.isLower then some (c.toNat - 'a'.toNat + 10)
  else if c.isUpper then some (c.toNat - 'A'.toNat + 10)
  else none

/-- The base of a number, whether a letter marks it, and its digits. -/
def numberBase : List Char → Nat × Bool × List Char
  | '0' :: mark :: d :: ds =>
    match mark.toLower with
    | 'b' => (2, true, d :: ds)
    | 'o' => (8, true, d :: ds)
    | 'x' => (16, true, d :: ds)
    | _ => (8, false, mark :: d :: ds)
  | '0' :: ds => (8, false, ds)
  | ds => (10, false, ds)

/-- The number that digits spell behind a number. The first fault from the left counts. -/
def digitsFrom (base : Nat) : Nat → List Char → Except IntegerFault Nat
  | n, [] => .ok n
  | n, c :: cs =>
    if c == '_' then digitsFrom base n cs
    else match digitOf? c with
      | none => .error .malformed
      | some d =>
        if d ≥ base then .error .malformed
        else if base * n + d ≥ Nat.pow 2 64 then .error .tooLarge
        else digitsFrom base (base * n + d) cs

/-- Whether every underscore stands between two digits. -/
def separatesDigits (afterDigit : Bool) : List Char → Bool
  | [] => true
  | ['_'] => false
  | c :: cs => if c == '_' then afterDigit && separatesDigits false cs else separatesDigits true cs

/-- The number that characters without a sign spell. -/
def natural (cs : List Char) : Except IntegerFault Nat :=
  if cs.isEmpty then .error .malformed
  else
    let (base, marked, ds) := numberBase cs
    match digitsFrom base 0 ds with
    | .error e => .error e
    | .ok n =>
      let ok := if marked then separatesDigits true ds else separatesDigits false cs
      if ok then .ok n else .error .malformed

/-- The whole number that a text spells. -/
def integer (s : String) : Except IntegerFault Int := do
  let (negative, cs) := match s.toList with
    | '-' :: cs => (true, cs)
    | '+' :: cs => (false, cs)
    | cs => (false, cs)
  let n ← natural cs
  if negative then
    if n > Nat.pow 2 63 then throw .tooLarge
    return -n
  if n ≥ Nat.pow 2 63 then throw .tooLarge
  return n

/-- The spellings of a truth value. -/
def truth? (s : String) : Option Bool :=
  if ["1", "t", "T", "TRUE", "true", "True"].contains s then some true
  else if ["0", "f", "F", "FALSE", "false", "False"].contains s then some false
  else none

end ErdSql.Text
