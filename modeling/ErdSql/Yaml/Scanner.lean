import ErdSql.Yaml.Scalar
import ErdSql.Yaml.Token

/-!
# Scanning YAML

A scanner turns a text into tokens, one step after another. A key shows only by the colon behind it, so
the scanner keeps the places where a key may have started and adds the tokens in front of it
afterwards.
-/

namespace ErdSql.Yaml

/-- A place where a key may have started. -/
structure Candidate where
  /-- The number of the token that starts here. -/
  token : Nat
  line : Nat
  column : Nat
  index : Nat
  /-- A key must stand here, because a mapping goes on at this column. -/
  required : Bool
  /-- The token is held back until it is known whether a key starts here. -/
  awaited : Bool

/-- What is known about keys on one level of flow collections. -/
structure KeyLevel where
  candidate : Option Candidate
  /-- The number of the last token that was a candidate here, or that opened the level. -/
  token : Nat
  deriving Inhabited

/-- The level around a closed one. A token that opened a level without candidates of its own is no
longer held back. -/
def KeyLevel.around (closed around : KeyLevel) : KeyLevel :=
  { around with candidate := around.candidate.map fun k =>
      { k with awaited := k.awaited && k.token != closed.token } }

/-- A scanner: the place in the text, the tokens that nobody has taken yet and how many were taken, and
what decides about the next token. -/
structure Scanner where
  /-- How many characters the text has, which bounds every loop. -/
  size : Nat
  cursor : Cursor
  tokens : List Token
  taken : Nat
  /-- The least column that the block collections around here leave for what stands inside them. -/
  margin : Nat
  /-- The margins of the block collections around the innermost one. -/
  outer : List Nat
  /-- The level outside of all flow collections. -/
  base : KeyLevel
  /-- The levels inside flow collections, the innermost first. -/
  levels : List KeyLevel
  /-- Whether a key may start at the next token. -/
  keyAllowed : Bool

namespace Scanner

/-- The scanner at the start of a text. -/
def start (cs : List Char) : Scanner :=
  ⟨cs.length, ⟨cs, 0, 1, 0⟩, [], 0, 0, [], ⟨none, 0⟩, [], true⟩

/-- Whether flow collections are open. -/
def inFlow (s : Scanner) : Bool := !s.levels.isEmpty

/-- The number of the next token. -/
def nextToken (s : Scanner) : Nat := s.taken + s.tokens.length

/-- The innermost level. -/
def level (s : Scanner) : KeyLevel := s.levels.head?.getD s.base

/-- Changes the innermost level. -/
def withLevel (s : Scanner) (level : KeyLevel) : Scanner :=
  match s.levels with
  | [] => { s with base := level }
  | _ :: outer => { s with levels := level :: outer }

/-- Adds a token at the end. -/
def push (s : Scanner) (line : Nat) (kind : Token.Kind) : Scanner :=
  { s with tokens := s.tokens ++ [⟨line, kind⟩] }

/-- Adds a token in front of a token, or at the end if that one was taken already. -/
def insert (s : Scanner) (before line : Nat) (kind : Token.Kind) : Scanner :=
  if before < s.taken then s.push line kind
  else
    let n := before - s.taken
    { s with tokens := s.tokens.take n ++ [⟨line, kind⟩] ++ s.tokens.drop n }

/-- Adds the token of a mark with `n` characters that stands here. -/
def pushMark (s : Scanner) (n : Nat) (kind : Token.Kind) : Scanner :=
  { s.push s.cursor.line kind with cursor := s.cursor.skip n }

/-! ### Keys -/

/-- Whether a key cannot have started at a place any more: it stands in one line and takes at most 1024
characters. -/
def isStale (s : Scanner) (k : Candidate) : Bool :=
  k.line < s.cursor.line || k.index + 1024 < s.cursor.index

/-- Gives up the candidate of the innermost level. -/
def dropKey? (s : Scanner) : Option Scanner :=
  match s.level.candidate with
  | none => some s
  | some k => if k.required then none else some (s.withLevel { s.level with candidate := none })

/-- Makes this place the candidate of the innermost level if a key may start here. -/
def saveKey? (s : Scanner) : Option Scanner :=
  if !s.keyAllowed then some s
  else do
    let c := s.cursor
    let required := !s.inFlow && s.margin == c.column + 1
    let k : Candidate := ⟨s.nextToken, c.line, c.column, c.index, required, true⟩
    return (← s.dropKey?).withLevel ⟨some k, s.nextToken⟩

/-! ### Blocks -/

/-- Opens a block collection at a column unless one is open there. Its token stands `before` another
one. -/
def openBlock (s : Scanner) (column before line : Nat) (kind : Token.Kind) : Scanner :=
  if s.inFlow || column < s.margin then s
  else { s.insert before line kind with margin := column + 1, outer := s.margin :: s.outer }

/-- Closes block collections until the margin is not above a bound. -/
def closeBlocks (s : Scanner) (bound : Nat) : Scanner :=
  if s.inFlow then s
  else
    let closed := (s.margin :: s.outer).takeWhile (bound < ·)
    let left := (s.margin :: s.outer).drop closed.length
    let ends := closed.map fun _ => (⟨s.cursor.line, .blockEnd⟩ : Token)
    { s with tokens := s.tokens ++ ends, margin := left.head?.getD 0, outer := left.drop 1 }

/-! ### Tokens -/

/-- The end of the text, which closes all blocks. -/
def streamEnd? (s : Scanner) : Option Scanner := do
  let c := s.cursor
  let c := if c.column == 0 then c else { c with line := c.line + 1, column := 0 }
  let s ← ({ s with cursor := c }.closeBlocks 0).dropKey?
  return { s.push s.cursor.line .streamEnd with keyAllowed := false }

/-- A directive in a line of its own. -/
def directive? (s : Scanner) : Option Scanner := do
  let s ← (s.closeBlocks 0).dropKey?
  let (kind, stop) ← s.cursor.directive?
  return { s.push s.cursor.line kind with cursor := stop, keyAllowed := false }

/-- The start or end of a document. -/
def documentMark? (s : Scanner) (kind : Token.Kind) : Option Scanner := do
  let s ← (s.closeBlocks 0).dropKey?
  return { s.pushMark 3 kind with keyAllowed := false }

/-- The start of a flow collection, which may be a key. -/
def openFlow? (s : Scanner) (kind : Token.Kind) : Option Scanner := do
  let s ← s.saveKey?
  if s.levels.length ≥ 10000 then none
  else return { s.pushMark 1 kind with levels := ⟨none, s.nextToken⟩ :: s.levels, keyAllowed := true }

/-- The end of a flow collection. -/
def closeFlow? (s : Scanner) (kind : Token.Kind) : Option Scanner := do
  let s ← s.dropKey?
  let s := match s.levels with
    | [] => s
    | closed :: outer =>
      let s := { s with levels := outer }
      s.withLevel (closed.around s.level)
  return { s.pushMark 1 kind with keyAllowed := false }

/-- The comma between the items of a flow collection. -/
def comma? (s : Scanner) : Option Scanner := do
  return { (← s.dropKey?).pushMark 1 .comma with keyAllowed := true }

/-- The dash of an item. -/
def item? (s : Scanner) : Option Scanner := do
  if !s.inFlow && !s.keyAllowed then none
  let s := s.openBlock s.cursor.column s.nextToken s.cursor.line .blockSeq
  return { (← s.dropKey?).pushMark 1 .item with keyAllowed := true }

/-- The mark in front of a key. -/
def key? (s : Scanner) : Option Scanner := do
  if !s.inFlow && !s.keyAllowed then none
  let s := s.openBlock s.cursor.column s.nextToken s.cursor.line .blockMap
  return { (← s.dropKey?).pushMark 1 .key with keyAllowed := !s.inFlow }

/-- The colon in front of a value. If a key may have started in this line it did, and its tokens are
added. -/
def value? (s : Scanner) : Option Scanner := do
  let cleared := s.withLevel { s.level with candidate := none }
  match s.level.candidate.filter fun k => k.required || !s.isStale k with
  | some k =>
    if s.isStale k then none
    let s := cleared.insert k.token k.line .key
    let s := s.openBlock k.column k.token k.line .blockMap
    return { s.pushMark 1 .value with keyAllowed := false }
  | none =>
    if !s.inFlow && !s.keyAllowed then none
    let s := cleared.openBlock s.cursor.column s.nextToken s.cursor.line .blockMap
    return { s.pushMark 1 .value with keyAllowed := !s.inFlow }

/-- A token that may be a key, given by its kind and the place behind it. -/
def leaf? (s : Scanner) (kind : Token.Kind) (stop : Cursor) : Option Scanner := do
  let s ← s.saveKey?
  return { s.push s.cursor.line kind with cursor := stop, keyAllowed := false }

/-- A quoted scalar. -/
def quoted? (s : Scanner) (double : Bool) : Option Scanner := do
  let start := s.cursor.advance
  let (text, stop) ← start.quoted? double (s.size + 1) []
  s.leaf? (.scalar false (String.ofList text)) stop

/-- A plain scalar. A key may start in the next line. -/
def plain? (s : Scanner) : Option Scanner := do
  let c := s.cursor
  let found ← c.plain? s.inFlow s.margin (s.size + 1) [] .empty
  let s ← s.leaf? (.scalar true (String.ofList found.text)) found.stop
  return { s with keyAllowed := found.broken }

/-- A literal or folded scalar. -/
def block? (s : Scanner) : Option Scanner := do
  let s ← s.dropKey?
  let (text, stop) ← s.cursor.block? s.margin
  return { s.push s.cursor.line (.scalar false text) with cursor := stop, keyAllowed := true }

/-- Passes a comment that stands behind a token in its line. -/
def passComment (s : Scanner) : Scanner :=
  { s with cursor := s.cursor.skipLineComment }

/-- The next token outside of documents' marks, if one starts with the character. -/
def mark? (s : Scanner) (ch : Char) (rest : List Char) : Option Scanner :=
  let gap := Cursor.isGap rest
  if ch == '[' then (s.openFlow? .openSeq).map passComment
  else if ch == '\x7b' then (s.openFlow? .openMap).map passComment
  else if ch == ']' then (s.closeFlow? .closeSeq).map passComment
  else if ch == '\x7d' then (s.closeFlow? .closeMap).map passComment
  else if ch == ',' then s.comma?.map passComment
  else if ch == '-' && gap then s.item?
  else if ch == '?' && (s.inFlow || gap) then s.key?.map passComment
  else if ch == ':' && (s.inFlow || gap) then s.value?.map passComment
  else if ch == '*' then do
    let (name, stop) ← s.cursor.name?
    (s.leaf? (.reference name) stop).map passComment
  else if ch == '&' then do
    let (name, stop) ← s.cursor.name?
    (s.leaf? (.anchor name) stop).map passComment
  else if ch == '!' then do
    let (kind, stop) ← s.cursor.tag?
    (s.leaf? kind stop).map passComment
  else if (ch == '|' || ch == '>') && !s.inFlow then s.block?
  else if ch == '\'' then (s.quoted? false).map passComment
  else if ch == '"' then (s.quoted? true).map passComment
  else if Cursor.startsPlain s.inFlow (ch :: rest) then
    s.plain?.map fun s => if s.keyAllowed then s else s.passComment
  else none

/-- The scanner with at least one more token. None for a malformed text. -/
def fetch? (s : Scanner) : Option Scanner :=
  let (c, keyAllowed) := s.cursor.toToken s.inFlow s.keyAllowed (s.size + 1)
  let s := { s with cursor := c, keyAllowed := keyAllowed }.closeBlocks (c.column + 1)
  match c.rest with
  | [] => s.streamEnd?
  | ch :: rest =>
    if c.column == 0 && ch == '%' then s.directive?
    else if c.atMarker '-' then s.documentMark? .documentStart
    else if c.atMarker '.' then s.documentMark? .documentEnd
    else s.mark? ch rest

/-- Whether the first token may turn out to be a key. None if it should have been one. -/
def holdsFirst? (s : Scanner) : Option Bool :=
  let held := (s.base :: s.levels).filterMap (·.candidate) |>.filter fun k =>
    k.awaited && k.token == s.taken
  if held.any fun k => k.required && s.isStale k then none
  else some (held.any fun k => !s.isStale k)

/-- Fetches tokens until there are three and the first one is settled. -/
def fill? : Nat → Scanner → Option Scanner
  | 0, s => some s
  | fuel + 1, s => do
    if s.tokens.length ≥ 3 then
      if ← s.holdsFirst? then fill? fuel (← s.fetch?) else return s
    else fill? fuel (← s.fetch?)

/-- The first token, which stays where it is. -/
def peek? (s : Scanner) : Option (Token × Scanner) := do
  let s ← fill? (s.size + 4) s
  return (← s.tokens.head?, s)

/-- The scanner behind its first token. -/
def take (s : Scanner) : Scanner :=
  { s with tokens := s.tokens.drop 1, taken := s.taken + 1 }

end Scanner

end ErdSql.Yaml
