import ErdSql.FileTree
import ErdSql.Glob
import ErdSql.Text.Quoted

/-!
# Sets of files

The files that patterns select below a base folder. A pattern may use `**` for any number of folders,
and a pattern that selects a folder stands for the files below it that have a given extension.
-/

namespace ErdSql.FileSet

/-- Whether a text has a character with a meaning in patterns. -/
def hasMeta (s : String) : Bool :=
  s.toList.any fun c => c == '*' || c == '?' || c == '[' || c == '\\'

/-- Whether two stars stand side by side. -/
def hasDoubleStar : List Char → Bool
  | '*' :: '*' :: _ => true
  | _ :: cs => hasDoubleStar cs
  | [] => false

/-- Whether a name can be a part of a place. -/
def isName (s : String) : Bool :=
  s != "" && s != "." && s != ".."

/-- The place below the base that a text names, if it is written in its shortest form. -/
def place? (s : String) : Option Place :=
  if s == "." then some []
  else
    let parts := Text.splitAt '/' s
    if parts.all isName then some parts else none

/-- The text for a place below the base. -/
def placeText (p : Place) : String :=
  if p.isEmpty then "." else Text.join "/" p

/-- Whether names match the segments of a pattern, one by one; `**` stands for any number of
names. -/
def matchSegments : List String → List String → Bool
  | [], names => names.isEmpty
  | segment :: segments, names =>
    if segment == "**" then
      (List.range (names.length + 1)).any fun i => matchSegments segments (names.drop i)
    else match names with
      | [] => false
      | name :: rest => (Glob.matches? segment name).getD false && matchSegments segments rest

/-- Where files are looked for. -/
structure Source where
  tree : FileTree
  /-- The folder that patterns start at. -/
  base : Place
  /-- The extension of the files that a folder stands for. -/
  extension : String := ".erd"
  /-- Whether a pattern that starts outside the base, or below a file, is an error. Otherwise it
  selects nothing. -/
  strict : Bool := false

/-- What is wrong with a pattern. -/
inductive PatternFault where
  | malformed
  | unreachable (e : PathError)
  deriving DecidableEq, Inhabited

/-- The wording of a fault. -/
def PatternFault.message : PatternFault → String
  | malformed => "syntax error in pattern"
  | unreachable e => e.message

/-- Why no files were selected. -/
inductive ResolveError where
  | noSource
  | noPatterns
  | badPattern (pattern : String) (fault : PatternFault)
  | noMatch (patterns : List String)
  deriving DecidableEq, Inhabited

/-- The wording of an error. -/
def ResolveError.message : ResolveError → String
  | noSource => "fileset: resolver has no filesystem"
  | noPatterns => "fileset: no patterns provided"
  | badPattern pattern fault =>
    "invalid glob pattern " ++ Text.quoted pattern ++ ": " ++ fault.message
  | noMatch patterns => "patterns matched no files: " ++ Text.join ", " patterns

namespace Source

/-- What stands at a place below the base. -/
def node? (s : Source) (p : Place) : Option FileTree.Node :=
  s.tree.node? (s.base ++ p)

/-- The places that segments without `**`, the last one first, select below the base. -/
def glob (s : Source) : List String → List Place
  | [] => []
  | segment :: before =>
    let pattern := Text.join "/" (segment :: before).reverse
    if !hasMeta pattern then
      ((place? pattern).filter fun p => (s.node? p).isSome).toList
    else
      let dir := Text.join "/" before.reverse
      let folders :=
        if before.isEmpty then [[]]
        else if hasMeta dir then s.glob before
        else (place? dir).toList
      (folders.filter fun p => s.tree.isFolder (s.base ++ p)).flatMap fun p =>
        ((s.tree.names (s.base ++ p)).filter fun name =>
          (Glob.matches? segment name).getD false).map fun name => p ++ [name]

/-- The folder where the search for a pattern with `**` starts: its segments before the first that
is not plain. -/
def searchRoot (segments : List String) : String :=
  let fixed := segments.dropLast.takeWhile fun s => !hasMeta s
  if fixed.isEmpty then "."
  else if fixed.all (· == "") then ""
  else (Path.ofText (Text.join "/" (fixed.filter (· != "")))).text

/-- What keeps a search from its root, whose text and place are given: a file on the way, or a name
that nothing can have. A root that is only missing is no obstacle, and without `strict` nothing is. -/
def obstacle? (s : Source) (root : String) (p : Place) : Option FileFault :=
  if !s.strict then none
  else match FileTree.unusable? root, s.tree.follow s.base p with
    | some fault, _ => some fault
    | none, .error .notFound => none
    | none, .error fault => some fault
    | none, .ok _ => none

/-- The places that segments with `**` select below the base. -/
def search (s : Source) (segments : List String) : Except PatternFault (List Place) :=
  let root := searchRoot segments
  match place? root with
  | none => if s.strict then .error (.unreachable ⟨"stat", root, .invalid⟩) else .ok []
  | some p =>
    match s.obstacle? root p with
    | some fault => .error (.unreachable ⟨"stat", root, fault⟩)
    | none =>
      let found := (s.tree.below (s.base ++ p)).map fun q => q.drop s.base.length
      .ok (found.filter fun q => matchSegments segments (Text.splitAt '/' (placeText q)))

/-- The places that a pattern selects. Brackets and escapes must be complete in each segment. -/
def select (s : Source) (pattern : String) : Except PatternFault (List Place) :=
  let segments := Text.splitAt '/' pattern
  if segments.any fun segment => (Glob.parse? segment.toList).isNone then .error .malformed
  else if hasDoubleStar pattern.toList then s.search segments
  else .ok (s.glob segments.reverse)

/-- The files that a selected place stands for. -/
def expand (s : Source) (p : Place) : List Place :=
  match s.node? p with
  | some (.file _) => [p]
  | some .folder =>
    ((s.tree.below (s.base ++ p)).filter fun q =>
      !s.tree.isFolder q && s.extension != "" &&
        Path.extension (placeText q) == s.extension).map fun q => q.drop s.base.length
  | none => []

/-- The files that each pattern selects, and the patterns that select none. -/
def collect (s : Source) : List String → Except ResolveError (List Place × List String)
  | [] => .ok ([], [])
  | pattern :: patterns =>
    match s.select pattern with
    | .error fault => .error (.badPattern pattern fault)
    | .ok selected => do
      let files := selected.flatMap s.expand
      let (rest, missing) ← s.collect patterns
      return (files ++ rest, if files.isEmpty then pattern :: missing else missing)

end Source

/-- Sorted texts without repetitions. -/
def compact : List String → List String
  | a :: b :: rest => if a == b then compact (b :: rest) else a :: compact (b :: rest)
  | xs => xs

/-- The files that patterns select, in order and each once. Every pattern must select a file. -/
def resolve (source : Option Source) (patterns : List String) :
    Except ResolveError (List String) :=
  match source with
  | none => .error .noSource
  | some s =>
    if patterns.isEmpty then .error .noPatterns
    else do
      let (files, missing) ← s.collect patterns
      if missing.isEmpty then return compact (Text.sortTexts (files.map placeText))
      else throw (.noMatch missing)

end ErdSql.FileSet
