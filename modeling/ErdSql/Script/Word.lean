import ErdSql.Script.Layout

/-!
# Words of a statement

A statement in its normal layout is cut into words: names, quoted names, strings, numbers, brackets
and runs of other bytes. A statement with a quote that is never closed has no words.
-/

namespace ErdSql.Script

open Text (ascii)

/-- The kinds of words. -/
inductive Word.Kind where
  | quotedName
  | string
  | name
  | number
  /-- A parenthesis, square bracket, comma or dot. -/
  | punctuation
  | other
  deriving DecidableEq, Inhabited

/-- A word of a statement. -/
structure Word where
  kind : Word.Kind
  text : List UInt8
  deriving DecidableEq, Inhabited

namespace Word

/-- Whether a byte can start a name. -/
def isNameStart (b : UInt8) : Bool := isWordByte b && !isDigitByte b

/-- Whether a byte can stand inside a name. -/
def isNamePart (b : UInt8) : Bool := isWordByte b || b == ascii '$'

/-- Whether a byte is punctuation. -/
def isPunctuation (b : UInt8) : Bool :=
  b == ascii '(' || b == ascii ')' || b == ascii ',' || b == ascii '.' || b == ascii '[' ||
    b == ascii ']'

/-- Whether a byte belongs to a run of other bytes. -/
def isOther (b : UInt8) : Bool :=
  !isBlankByte b && !isWordByte b && b != ascii '"' && b != ascii '\'' && !isPunctuation b

/-- Length of a literal behind its opening quote. A doubled quote is part of it if the literal is
closed later. -/
def literalLength? (quote : UInt8) : List UInt8 → Option Nat
  | [] => none
  | [a] => if a == quote then some 1 else none
  | a :: b :: rest =>
    if a != quote then (literalLength? quote (b :: rest)).map (· + 1)
    else if b != quote then some 1
    else match literalLength? quote rest with
      | some n => some (n + 2)
      | none => some 1

/-- Length of the number that starts with a digit before `rest`. -/
def numberLength (rest : List UInt8) : Nat :=
  let whole := (rest.takeWhile isDigitByte).length
  match rest.drop whole with
  | dot :: d :: more =>
    if dot == ascii '.' && isDigitByte d then whole + 2 + (more.takeWhile isDigitByte).length
    else whole
  | _ => whole

/-- The kind of the word that starts with a byte, and how many bytes of it follow; none if no word
starts there. -/
def wordAt (b : UInt8) (rest : List UInt8) : Option (Kind × Nat) :=
  if b == ascii '"' then (literalLength? b rest).map (.quotedName, ·)
  else if b == ascii '\'' then (literalLength? b rest).map (.string, ·)
  else if isNameStart b then
    let name := (Kind.name, (rest.takeWhile isNamePart).length)
    match rest with
    | q :: more =>
      if (b == ascii 'E' || b == ascii 'e') && q == ascii '\'' then
        some (((literalLength? q more).map fun n => (Kind.string, n + 1)).getD name)
      else some name
    | [] => some name
  else if isDigitByte b then some (.number, numberLength rest)
  else if isPunctuation b then some (.punctuation, 0)
  else some (.other, (rest.takeWhile isOther).length)

/-- The words of a statement, unless a quote is never closed. -/
def words? : List UInt8 → Option (List Word)
  | [] => some []
  | b :: rest =>
    if isBlankByte b then words? rest
    else match wordAt b rest with
      | none => none
      | some (kind, n) => (words? (rest.drop n)).map (⟨kind, b :: rest.take n⟩ :: ·)
termination_by bs => bs.length
decreasing_by
  · simp
  · simp only [List.length_drop, List.length_cons]
    omega

/-- A byte in lower case. -/
def lowerByte (b : UInt8) : UInt8 :=
  if ascii 'A' ≤ b && b ≤ ascii 'Z' then b + 32 else b

/-- Whether a word is a given word of the language; names match in any case. -/
def spells (word : String) (w : Word) : Bool :=
  w.text == Text.bytes word ||
    (w.kind == .name && w.text.map lowerByte == (Text.bytes word).map lowerByte)

/-- Whether a word is the given punctuation. -/
def isMark (c : Char) (w : Word) : Bool :=
  w.text == [ascii c]

end Word

end ErdSql.Script
