import ErdSql.Random
import ErdSql.Text.Bytes
import ErdSql.Text.Split

/-!
# Corrupted documents

Documents with random damage, for trials of how well the stages bear it. Damage to single bytes
breaks the text; damage to sigils, keywords, brackets and lines keeps the text readable and breaks
the statements.
-/

namespace ErdSql

/-- One kind of damage. -/
inductive Corruption where
  | byteFlip
  | byteDelete
  | byteInsert
  | truncation
  | invalidEncoding
  | sigilSwap
  | keywordDrop
  | bracketImbalance
  | lineSwap
  | lineDuplicate
  | indentStrip
  deriving DecidableEq, Inhabited

namespace Corruption

open Text (ascii)

/-- Every kind of damage. -/
def all : List Corruption :=
  [byteFlip, byteDelete, byteInsert, truncation, invalidEncoding, sigilSwap, keywordDrop,
    bracketImbalance, lineSwap, lineDuplicate, indentStrip]

/-- The name of a kind of damage. -/
def name : Corruption → String
  | byteFlip => "byte-flip"
  | byteDelete => "byte-delete"
  | byteInsert => "byte-insert"
  | truncation => "truncation"
  | invalidEncoding => "invalid-utf8"
  | sigilSwap => "sigil-swap"
  | keywordDrop => "keyword-drop"
  | bracketImbalance => "paren-unbalance"
  | lineSwap => "line-swap"
  | lineDuplicate => "line-duplicate"
  | indentStrip => "indent-strip"

/-- The sigils of the language. -/
def sigils : List UInt8 := Text.bytes "$%@#:"

/-- The keywords that may be dropped. -/
def keywords : List (List UInt8) :=
  ["PK", "FK", "NOT", "NULL", "UNIQUE", "DEFAULT", "CHECK", "ON", "AS", "enum"].map Text.bytes

/-- The brackets that may be dropped. -/
def brackets : List UInt8 := Text.bytes "()\x7b\x7d[]"

/-- The brackets that may be inserted. -/
def strayBrackets : List UInt8 := Text.bytes "()\x7b"

/-- Bytes with one more at a place. -/
def insertAt (bs : List UInt8) (i : Nat) (b : UInt8) : List UInt8 :=
  bs.take i ++ b :: bs.drop i

/-- The places of the bytes that satisfy `p`. -/
def placesOf (p : UInt8 → Bool) (bs : List UInt8) : List Nat :=
  bs.zipIdx.filterMap fun (b, i) => if p b then some i else none

/-- Where a word occurs in bytes, which start at a place; occurrences do not overlap. -/
def occurrences (word : List UInt8) (place : Nat) : List UInt8 → List Nat
  | [] => []
  | b :: rest =>
    if word.isPrefixOf (b :: rest) then
      place :: occurrences word (place + 1 + (word.length - 1)) (rest.drop (word.length - 1))
    else occurrences word (place + 1) rest
termination_by bs => bs.length
decreasing_by
  · simp only [List.length_drop, List.length_cons]
    omega
  · simp

/-- The lines of a document, each with its line feed; behind the last line feed stands one more. -/
def linesOf (bs : List UInt8) : List (List UInt8) :=
  let parts := Text.splitList (ascii '\n') bs
  parts.dropLast.map (· ++ [ascii '\n']) ++ (parts.getLast?).toList

/-- Draws one item of a list. -/
def pick {α : Type} [Inhabited α] (items : List α) : Draw α := do
  return (items[← Random.below items.length]?).getD default

/-- Flips `n` random bits. -/
def flipBits : Nat → List UInt8 → Draw (List UInt8)
  | 0, bs => return bs
  | n + 1, bs => do
    let i ← Random.below bs.length
    let bit ← Random.below 8
    flipBits n (bs.modify i fun b => b ^^^ UInt8.ofNat (Nat.pow 2 bit))

/-- Inserts a random byte at a random place. -/
def insertByte (bs : List UInt8) : Draw (List UInt8) := do
  let i ← Random.below (bs.length + 1)
  return insertAt bs i (UInt8.ofNat (← Random.below 256))

/-- Replaces a random sigil by another, or drops it. -/
def swapSigil (bs : List UInt8) : Draw (List UInt8) := do
  let places := placesOf sigils.contains bs
  if places.isEmpty then return bs
  let i ← pick places
  match sigils[← Random.below (sigils.length + 1)]? with
  | some sigil => return bs.set i sigil
  | none => return bs.eraseIdx i

/-- Drops a random occurrence of a random keyword. -/
def dropKeyword (bs : List UInt8) : Draw (List UInt8) := do
  let word ← pick keywords
  let places := occurrences word 0 bs
  if places.isEmpty then return bs
  let i ← pick places
  return bs.take i ++ bs.drop (i + word.length)

/-- Drops a random bracket. -/
def dropBracket (bs : List UInt8) : Draw (List UInt8) := do
  return bs.eraseIdx (← pick (placesOf brackets.contains bs))

/-- Inserts a stray bracket. -/
def insertBracket (bs : List UInt8) : Draw (List UInt8) := do
  let i ← Random.below (bs.length + 1)
  return insertAt bs i (← pick strayBrackets)

/-- Drops a bracket or inserts one. -/
def unbalance (bs : List UInt8) : Draw (List UInt8) := do
  if (placesOf brackets.contains bs).isEmpty then insertBracket bs
  else if (← Random.below 2) == 0 then dropBracket bs
  else insertBracket bs

/-- Swaps two random lines. -/
def swapLines (bs : List UInt8) : Draw (List UInt8) := do
  let lines := linesOf bs
  if lines.length < 2 then return bs
  let i ← Random.below lines.length
  let j ← Random.below lines.length
  let a := (lines[i]?).getD []
  let b := (lines[j]?).getD []
  return ((lines.set i b).set j a).flatten

/-- Doubles a random line. -/
def duplicateLine (bs : List UInt8) : Draw (List UInt8) := do
  let lines := linesOf bs
  let i ← Random.below lines.length
  return (lines.take i ++ (lines[i]?).toList ++ lines.drop i).flatten

/-- Takes the indentation off a random line. -/
def stripIndent (bs : List UInt8) : Draw (List UInt8) := do
  let lines := linesOf bs
  let i ← Random.below lines.length
  return (lines.modify i (·.dropWhile fun b => b == ascii ' ' || b == ascii '\t')).flatten

/-- Damages a document. Nothing happens where there is nothing to damage; an empty document only
takes a byte more. -/
def apply (c : Corruption) (bs : List UInt8) : Draw (List UInt8) :=
  if bs.isEmpty then if c == byteInsert then insertByte bs else return bs
  else match c with
    | byteFlip => do flipBits ((← Random.below 3) + 1) bs
    | byteDelete => do return bs.eraseIdx (← Random.below bs.length)
    | byteInsert => insertByte bs
    | truncation => do return bs.take (← Random.below bs.length)
    | invalidEncoding => do
      let i ← Random.below bs.length
      return bs.set i (0xC0 ||| UInt8.ofNat (← Random.below 0x20))
    | sigilSwap => swapSigil bs
    | keywordDrop => dropKeyword bs
    | bracketImbalance => unbalance bs
    | lineSwap => swapLines bs
    | lineDuplicate => duplicateLine bs
    | indentStrip => stripIndent bs

/-- Damages a document in a random way. -/
def corrupt (bs : List UInt8) : Draw (List UInt8) := do
  (← pick all).apply bs

/-- Damages a document `n` times. -/
def corruptTimes : Nat → List UInt8 → Draw (List UInt8)
  | 0, bs => return bs
  | n + 1, bs => do corruptTimes n (← corrupt bs)

/-- Damaged copies of a document, each damaged one to five times. -/
def corpus (bs : List UInt8) : Nat → Draw (List (List UInt8))
  | 0 => return []
  | count + 1 => do
    let first ← corruptTimes ((← Random.below 5) + 1) bs
    return first :: (← corpus bs count)

end Corruption

end ErdSql
