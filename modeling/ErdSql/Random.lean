/-!
# Pseudo-random numbers

A permuted congruential generator: a linear congruential step on 128 bits, from which 64 bits are
mixed. Every sequence of draws is fixed by the seed.
-/

namespace ErdSql

/-- The state of a generator. -/
structure Random where
  state : BitVec 128
  deriving DecidableEq, Inhabited

/-- A computation that draws numbers. -/
abbrev Draw (α : Type) : Type := StateM Random α

namespace Random

/-- The factor of a step. -/
def multiplier : BitVec 128 := 0x2360ed051fc65da44385df649fccf645#128

/-- What a step adds. -/
def increment : BitVec 128 := 0x5851f42d4c957f2d14057b7ef767814f#128

/-- The generator whose state has the given high and low half. -/
def ofHalves (high low : BitVec 64) : Random := ⟨high ++ low⟩

/-- The generator of a seed. -/
def ofSeed (seed : Nat) : Random :=
  ofHalves (BitVec.ofNat 64 seed) (BitVec.ofNat 64 seed ^^^ 0x9e3779b97f4a7c15#64)

/-- The 64 bits that a state gives. -/
def mix (state : BitVec 128) : BitVec 64 :=
  let low := state.extractLsb' 0 64
  let high := state.extractLsb' 64 64
  let high := (high ^^^ (high >>> 32)) * 0xda942042e4dd58b5#64
  (high ^^^ (high >>> 48)) * (low ||| 1#64)

/-- Draws 64 bits. -/
def bits : Draw (BitVec 64) := fun r =>
  let state := r.state * multiplier + increment
  (mix state, ⟨state⟩)

/-- How often a draw that would favour small numbers is repeated. A draw is rejected with
probability below `n / 2 ^ 64`. -/
def redraws : Nat := 64

/-- Draws a number below `n` from the high half of a product. Draws whose low half is under the
threshold are rejected, so that all numbers are equally likely. -/
def scaled (n : Nat) : Nat → Draw Nat
  | 0 => pure 0
  | tries + 1 => do
    let product := (← bits).toNat * n
    if product % Nat.pow 2 64 < Nat.pow 2 64 % n then scaled n tries
    else return product / Nat.pow 2 64

/-- Draws a number below `n`. -/
def below (n : Nat) : Draw Nat := do
  if n &&& (n - 1) == 0 then return (← bits).toNat % n
  else scaled n redraws

end Random

end ErdSql
