import ErdSql.Text.Bytes

/-!
# Balanced parentheses

An expression is balanced when its parentheses pair up, those in quotes left aside, and every quote is
closed. The test reads the bytes once; the grammar says the same without counting.
-/

namespace ErdSql.Check

/-- Whether a byte is a single or a double quote. -/
def isQuote (b : UInt8) : Bool := b == 0x27 || b == 0x22

/-- Whether the rest of an expression is balanced, inside the given quote and `depth`
parentheses. -/
def balancedFrom (depth : Nat) (quote : Option UInt8) : List UInt8 → Bool
  | [] => depth == 0 && quote.isNone
  | b :: bs =>
    match quote with
    | some q => balancedFrom depth (if b == q then none else some q) bs
    | none =>
      if isQuote b then balancedFrom depth (some b) bs
      else if b == 0x28 then balancedFrom (depth + 1) none bs
      else if b == 0x29 then
        match depth with
        | 0 => false
        | depth + 1 => balancedFrom depth none bs
      else balancedFrom depth none bs

/-- Whether an expression is balanced. -/
def balanced (bs : List UInt8) : Bool :=
  balancedFrom 0 none bs

/-- The balanced expressions as a grammar: nothing; a byte that is neither parenthesis nor quote; an
expression in parentheses; a text in quotes that has no such quote; each followed by an expression. -/
inductive Balanced : List UInt8 → Prop where
  | nil : Balanced []
  | plain {b : UInt8} {rest : List UInt8} :
      isQuote b = false → b ≠ 0x28 → b ≠ 0x29 → Balanced rest → Balanced (b :: rest)
  | paren {inner rest : List UInt8} :
      Balanced inner → Balanced rest → Balanced (0x28 :: inner ++ 0x29 :: rest)
  | quoted {q : UInt8} {text rest : List UInt8} :
      isQuote q = true → q ∉ text → Balanced rest → Balanced (q :: text ++ q :: rest)

end ErdSql.Check
