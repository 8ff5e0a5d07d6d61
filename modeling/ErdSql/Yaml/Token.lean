import ErdSql.Yaml.Cursor

/-!
# Tokens of a YAML text

Tokens are the marks, names and scalars of a text, and the starts and ends of blocks that follow from
the indentation. Here are the tokens whose text has rules of its own: names of values, tags and
directives.
-/

namespace ErdSql.Yaml

namespace Token

/-- What a token is. -/
inductive Kind where
  | streamEnd
  | version (major minor : Nat)
  | tagHandle (handle start : String)
  | documentStart
  | documentEnd
  | blockSeq
  | blockMap
  | blockEnd
  | openSeq
  | closeSeq
  | openMap
  | closeMap
  | item
  | comma
  | key
  | value
  | reference (name : String)
  | anchor (name : String)
  | tag (handle suffix : String)
  /-- `plain` scalars are written without quotes and may stand for something else than a text. -/
  | scalar (plain : Bool) (text : String)
  deriving DecidableEq, Inhabited

end Token

/-- A token and the line where it starts. -/
structure Token where
  line : Nat
  kind : Token.Kind
  deriving Inhabited

namespace Cursor

/-- Whether a character may stand in a name. -/
def isNameChar (ch : Char) : Bool :=
  ch.isAlphanum || ch == '_' || ch == '-'

/-- Whether a character may stand in a tag. -/
def isTagChar (ch : Char) : Bool :=
  isNameChar ch || ";/?:@&=+$,.!~*'()[]".toList.contains ch

/-- The name behind the mark of a named value or of a reference to one, and the place behind it. -/
def name? (c : Cursor) : Option (String × Cursor) :=
  let start := c.advance
  let name := start.rest.takeWhile isNameChar
  let stop := start.skip name.length
  let closed := isGap stop.rest ||
    (stop.rest.head?.map fun ch => "?:,]\x7d%@\x60".toList.contains ch).getD true
  if name.isEmpty || !closed then none else some (String.ofList name, stop)

/-- The value of a hexadecimal digit. -/
def hexDigit? (ch : Char) : Option Nat :=
  if ch.isDigit then some (ch.toNat - '0'.toNat)
  else if 'a' ≤ ch && ch ≤ 'f' then some (ch.toNat - 'a'.toNat + 10)
  else if 'A' ≤ ch && ch ≤ 'F' then some (ch.toNat - 'A'.toNat + 10)
  else none

/-- The characters of a tag, of which those behind a percent sign are given by their number, and how
many characters they take. -/
def tagText? : List Char → Option (List Char × Nat)
  | '%' :: a :: b :: rest => do
    let value := 16 * (← hexDigit? a) + (← hexDigit? b)
    let (text, n) ← tagText? rest
    if value < 0x80 then return (Char.ofNat value :: text, n + 3) else none
  | ch :: rest =>
    if ch == '%' then none
    else if isTagChar ch then (tagText? rest).map fun (text, n) => (ch :: text, n + 1)
    else some ([], 0)
  | [] => some ([], 0)

/-- The handle at the start of a tag: an exclamation mark, a name, and possibly another mark. -/
def handle (c : Cursor) : List Char :=
  let name := (c.rest.drop 1).takeWhile isNameChar
  let tail := if c.rest[name.length + 1]? == some '!' then ['!'] else []
  '!' :: name ++ tail

/-- A tag: its handle and what follows the handle, and the place behind both. -/
def tag? (c : Cursor) : Option (Token.Kind × Cursor) := do
  let (kind, stop) ←
    if c.rest[1]? == some '<' then do
      let start := c.skip 2
      let (text, n) ← tagText? start.rest
      let stop := start.skip n
      if text.isEmpty || stop.rest.head? != some '>' then none
      else pure (Token.Kind.tag "" (String.ofList text), stop.advance)
    else do
      let handle := c.handle
      let start := c.skip handle.length
      let (text, n) ← tagText? start.rest
      let isHandle := handle.length > 1 && handle.getLast? == some '!'
      if isHandle && text.isEmpty then none
      let kind :=
        if isHandle then Token.Kind.tag (String.ofList handle) (String.ofList text)
        else
          let suffix := handle.drop 1 ++ text
          if suffix.isEmpty then .tag "" "!" else .tag "!" (String.ofList suffix)
      pure (kind, start.skip n)
  if isGap stop.rest then return (kind, stop) else none

/-- A number of at most two digits, and the place behind it. -/
def versionPart? (c : Cursor) : Option (Nat × Cursor) :=
  let digits := c.rest.takeWhile Char.isDigit
  if digits.isEmpty || digits.length > 2 then none
  else some (digits.foldl (fun n ch => 10 * n + (ch.toNat - '0'.toNat)) 0, c.skip digits.length)

/-- A directive: the version of the format, or the start that a handle of tags stands for. -/
def directive? (c : Cursor) : Option (Token.Kind × Cursor) := do
  let start := c.advance
  let name := start.rest.takeWhile isNameChar
  let after := start.skip name.length
  if !isGap after.rest then none
  let (kind, stop) ←
    if name == "YAML".toList then do
      let (major, c) ← versionPart? (after.skipWhile isBlank)
      if c.rest.head? != some '.' then none
      let (minor, c) ← versionPart? c.advance
      pure (Token.Kind.version major minor, c)
    else if name == "TAG".toList then do
      let c := after.skipWhile isBlank
      let handle := c.handle
      if c.rest.head? != some '!' || !(handle == ['!'] || handle.getLast? == some '!') then none
      let c := c.skip handle.length
      if (c.rest.head?.map isBlank).getD false == false then none
      let c := c.skipWhile isBlank
      let (text, n) ← tagText? c.rest
      let c := c.skip n
      if text.isEmpty || !isGap c.rest then none
      pure (.tagHandle (String.ofList handle) (String.ofList text), c)
    else none
  let stop := stop.skipWhile isBlank
  let stop := if stop.rest.head? == some '#' then stop.toLineEnd else stop
  if isLineEnd stop.rest then return (kind, stop.advance) else none

end Cursor

end ErdSql.Yaml
