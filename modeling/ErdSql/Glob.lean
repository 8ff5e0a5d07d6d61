import ErdSql.Text.Bytes

/-!
# Patterns for names

A pattern is a row of chunks, each with a star in front or not. A star stands for any bytes without a
slash, a question mark for one character, brackets for one character out of ranges; a backslash takes
the next character as it is. Each chunk is matched at the first place where it fits.
-/

namespace ErdSql

namespace Glob

/-- A part of a pattern that matches one character or byte. -/
inductive Atom where
  | any
  | byte (b : UInt8)
  | oneOf (negated : Bool) (ranges : List (Char × Char))
  deriving DecidableEq, Inhabited

/-- Atoms in a row, behind a star or not. -/
structure Chunk where
  star : Bool
  atoms : List Atom
  deriving DecidableEq, Inhabited

end Glob

/-- A pattern. -/
abbrev Glob := List Glob.Chunk

namespace Glob

/-! ### Reading patterns -/

/-- A character inside brackets, which may be escaped, and what follows; something must follow. -/
def rangeEnd? : List Char → Option (Char × List Char)
  | [] => none
  | '\\' :: c :: d :: rest => some (c, d :: rest)
  | c :: d :: rest => if c == '-' || c == ']' || c == '\\' then none else some (c, d :: rest)
  | [_] => none

/-- The range at the start of characters, and what follows. -/
def range? (cs : List Char) : Option ((Char × Char) × List Char) := do
  let (low, rest) ← rangeEnd? cs
  match rest with
  | '-' :: rest =>
    let (high, rest) ← rangeEnd? rest
    return ((low, high), rest)
  | _ => return ((low, low), rest)

/-- The ranges up to the closing bracket, behind some others, and what follows the bracket. At least
one range must stand there. -/
def ranges? (done : List (Char × Char)) (cs : List Char) :
    Option (List (Char × Char) × List Char) :=
  match cs with
  | [] => none
  | c :: rest =>
    if c == ']' && !done.isEmpty then some (done, rest)
    else match range? (c :: rest) with
      | none => none
      | some (range, next) =>
        if next.length < (c :: rest).length then ranges? (done ++ [range]) next else none
termination_by cs.length
decreasing_by assumption

/-- Puts an atom in front of a pattern. -/
def consAtom (a : Atom) : Glob → Glob
  | ⟨false, atoms⟩ :: rest => ⟨false, a :: atoms⟩ :: rest
  | chunks => ⟨false, [a]⟩ :: chunks

/-- Puts a star in front of a pattern. -/
def consStar : Glob → Glob
  | ⟨false, atoms⟩ :: rest => ⟨true, atoms⟩ :: rest
  | ⟨true, atoms⟩ :: rest => ⟨true, atoms⟩ :: rest
  | [] => [⟨true, []⟩]

/-- Puts the bytes of a character in front of a pattern. -/
def consChar (c : Char) (g : Glob) : Glob :=
  (String.utf8EncodeChar c).foldr (fun b g => consAtom (.byte b) g) g

/-- Reads a pattern; none if a bracket or escape is not complete. -/
def parse? (cs : List Char) : Option Glob :=
  match cs with
  | [] => some []
  | '*' :: rest => (parse? rest).map consStar
  | '?' :: rest => (parse? rest).map (consAtom .any)
  | '\\' :: [] => none
  | '\\' :: c :: rest => (parse? rest).map (consChar c)
  | '[' :: rest =>
    let (negated, body) := match rest with
      | '^' :: body => (true, body)
      | _ => (false, rest)
    match ranges? [] body with
    | none => none
    | some (ranges, next) =>
      if next.length < rest.length + 1 then
        (parse? next).map (consAtom (.oneOf negated ranges))
      else none
  | c :: rest => (parse? rest).map (consChar c)
termination_by cs.length

/-! ### Matching -/

/-- The first character of bytes and its length. A byte that starts no character counts as a
replacement character. -/
def firstChar? (bs : List UInt8) : Option (Char × Nat) :=
  if bs.isEmpty then none
  else some <| ([1, 2, 3, 4].findSome? fun n =>
    match Text.decode? (bs.take n) with
    | some [c] => some (c, n)
    | _ => none).getD ('\ufffd', 1)

/-- What is left of bytes behind what an atom matches. -/
def Atom.advance? (name : List UInt8) : Atom → Option (List UInt8)
  | .byte b => match name with
    | x :: rest => if x == b then some rest else none
    | [] => none
  | .any => (firstChar? name).bind fun (c, n) => if c == '/' then none else some (name.drop n)
  | .oneOf negated ranges => (firstChar? name).bind fun (c, n) =>
    if (ranges.any fun (low, high) => low ≤ c && c ≤ high) == negated then none
    else some (name.drop n)

/-- What is left behind what atoms in a row match. -/
def advance? (atoms : List Atom) (name : List UInt8) : Option (List UInt8) :=
  atoms.foldlM Atom.advance? name

/-- The rests of a name behind any bytes that a star may stand for, the longest first. -/
def starts : List UInt8 → List (List UInt8)
  | [] => [[]]
  | b :: rest => (b :: rest) :: (if b == Text.ascii '/' then [] else starts rest)

/-- Whether a pattern matches a name. -/
def isMatch : Glob → List UInt8 → Bool
  | [], name => name.isEmpty
  | ⟨star, atoms⟩ :: chunks, name =>
    if star && atoms.isEmpty && chunks.isEmpty then !name.contains (Text.ascii '/')
    else
      let fits := (if star then starts name else [name]).filterMap fun start =>
        (advance? atoms start).filter fun rest => !chunks.isEmpty || rest.isEmpty
      match fits with
      | rest :: _ => isMatch chunks rest
      | [] => false

/-- Whether a text matches a pattern text; none if the pattern cannot be read. -/
def matches? (pattern name : String) : Option Bool :=
  (parse? pattern.toList).map fun g => isMatch g (Text.bytes name)

end Glob

end ErdSql
