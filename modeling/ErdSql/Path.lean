import ErdSql.Text.Space
import ErdSql.Text.Split

/-!
# Paths

Slash-separated paths in their shortest form: no empty parts, no `.`, and `..` only at the start of a
path that is not rooted.
-/

namespace ErdSql

/-- A path in its shortest form. -/
structure Path where
  /-- Whether the path starts at the root. -/
  rooted : Bool
  parts : List String
  deriving DecidableEq, Inhabited

namespace Path

/-- Goes on by one part from a path, whose parts stand in reverse. -/
def step (rooted : Bool) (done : List String) (part : String) : List String :=
  if part == "" || part == "." then done
  else if part == ".." then
    match done with
    | [] => if rooted then [] else [".."]
    | last :: rest => if last == ".." then ".." :: done else rest
  else part :: done

/-- Goes on from a path by the parts of a text. -/
def join (p : Path) (s : String) : Path :=
  ⟨p.rooted, ((Text.splitAt '/' s).foldl (step p.rooted) p.parts.reverse).reverse⟩

/-- Whether a text is a rooted path. -/
def isRooted (s : String) : Bool := Text.startsWith "/" s

/-- The path that a text spells. -/
def ofText (s : String) : Path :=
  join ⟨isRooted s, []⟩ s

/-- A path as a text. -/
def text (p : Path) : String :=
  if p.rooted then "/" ++ Text.join "/" p.parts
  else if p.parts.isEmpty then "." else Text.join "/" p.parts

/-- The path of a text, which starts at a working directory unless it is rooted. -/
def absolute (workingDir : Path) (s : String) : Path :=
  if isRooted s then ofText s else workingDir.join s

/-- The directory of a path. -/
def dir (p : Path) : Path := ⟨p.rooted, p.parts.dropLast⟩

/-- The text up to the last slash. -/
def dirText (s : String) : String :=
  (ofText (String.ofList (Text.dropWhileEnd (· != '/') s.toList))).text

/-- Whether a path goes up from where it starts. -/
def goesUp (p : Path) : Bool :=
  p.parts.head? == some ".."

/-- The parts that two lists have in common at the start are dropped from both. -/
def dropCommon : List String → List String → List String × List String
  | a :: as, b :: bs => if a == b then dropCommon as bs else (a :: as, b :: bs)
  | as, bs => (as, bs)

/-- How to get from one path to another; none if only one of them is rooted or the way up is
unknown. -/
def relative? (base target : Path) : Option Path :=
  if base.rooted != target.rooted then none
  else
    let (up, down) := dropCommon base.parts target.parts
    if up.head? == some ".." then none
    else some ⟨false, List.replicate up.length ".." ++ down⟩

/-- The last part of a path. -/
def base (p : Path) : String :=
  (p.parts.getLast?).getD (if p.rooted then "/" else ".")

/-- The extension of the last part of a text: from its last dot on, empty if it has none. -/
def extension (s : String) : String :=
  let last := ((Text.splitAt '/' s).getLast?).getD ""
  match last.toList.reverse.span (· != '.') with
  | (tail, _ :: _) => String.ofList ('.' :: tail.reverse)
  | (_, []) => ""

/-- A text without its extension. -/
def withoutExtension (s : String) : String :=
  String.ofList (s.toList.take (s.length - (extension s).length))

end Path

end ErdSql
