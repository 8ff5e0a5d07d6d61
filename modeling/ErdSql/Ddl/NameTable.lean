import ErdSql.Text.Bytes

/-!
# Derived names

Names that the generator makes from the names of entities and fields. They are plain words, and a
table of the names given out keeps them apart.
-/

namespace ErdSql.Ddl

/-- Whether a character stays as it is in a derived name. -/
def isNameChar (c : Char) : Bool := c.isAlphanum

/-- Adds an underscore to a name, unless the last one follows directly. -/
def addUnderscore (out : List Char) (after : Bool) : List Char :=
  if after then out else out ++ ['_']

/-- Adds the characters of a part to a name. All that is no letter or digit becomes an underscore,
several in a row become one, and none stands at the start. The flag says whether an underscore was
added last. -/
def addPart (state : List Char × Bool) (part : List Char) : List Char × Bool :=
  part.foldl (fun (out, after) c =>
    if isNameChar c then (out ++ [c], false)
    else if after || out.isEmpty then (out, after)
    else (out ++ ['_'], true)) state

/-- The parts one after another with underscores between them. -/
def joinParts : List String → List Char
  | [] => []
  | first :: rest =>
    (rest.foldl (fun state part => addPart (addUnderscore state.1 state.2, true) part.toList)
      (addPart ([], false) first.toList)).1

/-- A text without the underscores around it. -/
def trimUnderscores (cs : List Char) : List Char :=
  Text.dropWhileEnd (· == '_') (cs.dropWhile (· == '_'))

/-- The plain word that some names give together. -/
def derivedName (parts : List String) : String :=
  match trimUnderscores (joinParts parts) with
  | [] => "unnamed"
  | c :: cs => if c.isDigit then "n_" ++ String.ofList (c :: cs) else String.ofList (c :: cs)

/-- The names given out; the number of a name is the last suffix tried for it. -/
structure NameTable where
  entries : List (String × Nat)
  deriving DecidableEq, Inhabited

namespace NameTable

/-- The table before any name is given out. -/
def empty : NameTable := ⟨[]⟩

/-- Whether a name is taken. -/
def isTaken (t : NameTable) (name : String) : Bool :=
  (t.entries.lookup name).isSome

/-- A name with a number behind it. -/
def numbered (base : String) (i : Nat) : String :=
  base ++ "_" ++ toString i

/-- The first number from `i` on that gives a free name, tried at most `fuel` times. -/
def freeNumber (t : NameTable) (base : String) (i : Nat) : Nat → Nat
  | 0 => i
  | fuel + 1 => if t.isTaken (numbered base i) then freeNumber t base (i + 1) fuel else i

/-- Sets the number of a name. -/
def set (t : NameTable) (name : String) (n : Nat) : NameTable :=
  ⟨(name, n) :: t.entries.filter fun e => e.1 != name⟩

/-- Gives out a name: the base name if it is free, and otherwise the base name with the next number
that makes it free. There are fewer names taken than numbers tried. -/
def claim (t : NameTable) (base : String) : String × NameTable :=
  match t.entries.lookup base with
  | none => (base, t.set base 1)
  | some n =>
    let i := freeNumber t base (n + 1) (t.entries.length + 1)
    (numbered base i, (t.set base i).set (numbered base i) 1)

end NameTable

/-- Takes the derived name of some parts from the table. -/
def claimName (parts : List String) : StateM NameTable String :=
  fun t => t.claim (derivedName parts)

end ErdSql.Ddl
