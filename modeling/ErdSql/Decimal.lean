/-!
# Decimal numbers

Exact numbers written as an optional minus, digits and an optional fraction.
-/

namespace ErdSql

/-- The number `coefficient / 10 ^ scale`. -/
structure Decimal where
  coefficient : Int
  scale : Nat
  deriving DecidableEq, Inhabited

namespace Decimal

/-- The number that decimal digits write. -/
def digitsValue (cs : List Char) : Nat :=
  cs.foldl (fun n c => 10 * n + (c.toNat - '0'.toNat)) 0

/-- Reads digits with an optional fraction. -/
def ofDigits? (cs : List Char) : Option Decimal :=
  match cs.span Char.isDigit with
  | (whole, []) => if whole.isEmpty then none else some ⟨digitsValue whole, 0⟩
  | (whole, '.' :: fraction) =>
    if !whole.isEmpty && !fraction.isEmpty && fraction.all Char.isDigit then
      some ⟨digitsValue (whole ++ fraction), fraction.length⟩
    else none
  | _ => none

/-- Reads a number. -/
def ofText? (s : String) : Option Decimal :=
  match s.toList with
  | '-' :: cs => (ofDigits? cs).map fun d => { d with coefficient := -d.coefficient }
  | cs => ofDigits? cs

/-- Whether the value is a whole number, however it is written. -/
def isInteger (d : Decimal) : Bool :=
  d.coefficient.natAbs % Nat.pow 10 d.scale == 0

/-- The whole part of the value, without the fraction. -/
def wholePart (d : Decimal) : Int :=
  Int.tdiv d.coefficient (Nat.pow 10 d.scale)

/-- Number of decimal digits of a number; zero has none. -/
def digitCount (n : Nat) : Nat :=
  if n = 0 then 0 else digitCount (n / 10) + 1

/-- Number of digits before the point that are not leading zeros. -/
def wholeDigits (d : Decimal) : Nat :=
  digitCount (d.coefficient.natAbs / Nat.pow 10 d.scale)

/-- The least number of digits behind the point that write a fraction `n / 10 ^ scale`. -/
def fractionLength (n : Nat) : Nat → Nat
  | 0 => 0
  | scale + 1 => if n % 10 = 0 then fractionLength (n / 10) scale else scale + 1

/-- Number of digits behind the point when trailing zeros are left out. -/
def fractionDigits (d : Decimal) : Nat :=
  fractionLength d.coefficient.natAbs d.scale

end Decimal

end ErdSql
