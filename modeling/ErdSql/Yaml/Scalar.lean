import ErdSql.Yaml.Cursor

/-!
# Scalars in a YAML text

Plain, quoted and block scalars. Lines of plain and quoted scalars are folded into one: a single line
end becomes a blank, and of several the first is dropped.
-/

namespace ErdSql.Yaml.Cursor

/-! ### Gaps between words -/

/-- Blanks and line ends between the words of a scalar. `broken` means that a line end was passed; one
that is escaped leaves no character. -/
structure Gap where
  broken : Bool
  blanks : List Char
  first : List Char
  more : List Char
  deriving Inhabited

/-- The gap that has nothing yet. -/
def Gap.empty : Gap := ⟨false, [], [], []⟩

/-- The text that a gap stands for. -/
def Gap.text (g : Gap) : List Char :=
  if !g.broken then g.blanks
  else if g.first == ['\n'] then if g.more.isEmpty then [' '] else g.more
  else g.first ++ g.more

/-- A gap with one more character, which stands at a column. A tab before the column `margin` cannot be
indentation. -/
def Gap.add? (margin : Nat) (g : Gap) (column : Nat) (ch : Char) : Option (Gap × Nat) :=
  if isBreak ch then
    if g.broken then some ({ g with more := g.more ++ [breakText ch] }, 0)
    else some (⟨true, [], [breakText ch], []⟩, 0)
  else if !g.broken then some ({ g with blanks := g.blanks ++ [ch] }, column + 1)
  else if ch == '\t' && column < margin then none
  else some (g, column + 1)

/-- The gap that goes on here, and the place behind it. -/
def gap? (margin : Nat) (start : Gap) (c : Cursor) : Option (Gap × Cursor) :=
  let chars := c.rest.takeWhile fun ch => isBlank ch || isBreak ch
  let step : Gap × Nat → Char → Option (Gap × Nat) := fun (g, column) ch => g.add? margin column ch
  (chars.foldlM step (start, c.column)).map fun (g, _) => (g, c.skip chars.length)

/-! ### Plain scalars -/

/-- Whether a character has a meaning inside flow collections. -/
def isFlowMark (ch : Char) : Bool :=
  ch == ',' || ch == '[' || ch == ']' || ch == '\x7b' || ch == '\x7d'

/-- The characters of a plain scalar up to the next gap or mark. -/
def plainWord (inFlow : Bool) : List Char → List Char
  | [] => []
  | ch :: rest =>
    if isBlank ch || isBreak ch || (ch == ':' && isGap rest) ||
        (inFlow && (isFlowMark ch || ch == '?')) then []
    else ch :: plainWord inFlow rest

/-- Whether a plain scalar can start with the characters. -/
def startsPlain (inFlow : Bool) : List Char → Bool
  | [] => false
  | ch :: rest =>
    if ch == '-' then !((rest.head?.map isBlank).getD false)
    else if ch == '?' || ch == ':' then !inFlow && !isGap rest
    else !isBlank ch && !isBreak ch && !isFlowMark ch && !"#&*!|>'\"%@\x60".toList.contains ch

/-- What the scan of a plain scalar found: the text, whether line ends follow it, and the place behind
both. -/
structure PlainText where
  text : List Char
  broken : Bool
  stop : Cursor

/-- A plain scalar, of which the words up to here and the gap behind them are known. It goes on in
lines that are indented to `margin` at least, in flow collections in any line. -/
def plain? (inFlow : Bool) (margin : Nat) : Nat → List Char → Gap → Cursor → Option PlainText
  | 0, text, gap, c => some ⟨text, gap.broken, c⟩
  | fuel + 1, text, gap, c =>
    if c.atDocumentMark || c.rest.head? == some '#' then some ⟨text, gap.broken, c⟩
    else
      let word := plainWord inFlow c.rest
      let text := if word.isEmpty then text else text ++ gap.text ++ word
      let gap := if word.isEmpty then gap else Gap.empty
      let after := c.skip word.length
      if after.rest.isEmpty || !isGap after.rest then some ⟨text, gap.broken, after⟩
      else do
        let (gap, next) ← gap? margin gap after
        if !inFlow && next.column < margin then return ⟨text, gap.broken, next⟩
        plain? inFlow margin fuel text gap next

/-! ### Quoted scalars -/

/-- What an escape with one letter stands for. -/
def escapes : List (Char × Char) :=
  [('0', '\x00'), ('a', '\x07'), ('b', '\x08'), ('t', '\t'), ('\t', '\t'), ('n', '\n'),
    ('v', '\x0b'), ('f', '\x0c'), ('r', '\r'), ('e', '\x1b'), (' ', ' '), ('"', '"'), ('\'', '\''),
    ('\\', '\\'), ('N', '\u0085'), ('_', '\u00a0'), ('L', '\u2028'), ('P', '\u2029')]

/-- How many hexadecimal digits follow an escape letter. -/
def escapeDigits (ch : Char) : Nat :=
  if ch == 'x' then 2 else if ch == 'u' then 4 else if ch == 'U' then 8 else 0

/-- The value of hexadecimal digits. -/
def hexValue? (cs : List Char) : Option Nat :=
  cs.foldlM (fun n ch =>
    if ch.isDigit then some (16 * n + (ch.toNat - '0'.toNat))
    else if 'a' ≤ ch && ch ≤ 'f' then some (16 * n + (ch.toNat - 'a'.toNat + 10))
    else if 'A' ≤ ch && ch ≤ 'F' then some (16 * n + (ch.toNat - 'A'.toNat + 10))
    else none) 0

/-- A part of a quoted scalar without gaps: its text, how many characters it takes, and whether it ends
with an escaped line end. -/
structure QuotedWord where
  text : List Char
  length : Nat
  glued : Bool

/-- A word with more before it. -/
def QuotedWord.after (text : List Char) (length : Nat) (w : QuotedWord) : QuotedWord :=
  { w with text := text ++ w.text, length := length + w.length }

/-- The next word of a quoted scalar, which ends at a gap or at the closing quote. None for a bad
escape. -/
def quotedWord? (double : Bool) (cs : List Char) : Option QuotedWord :=
  match cs with
  | [] => some ⟨[], 0, false⟩
  | ch :: rest =>
    if isBlank ch || isBreak ch then some ⟨[], 0, false⟩
    else if !double && ch == '\'' then
      match rest with
      | '\'' :: rest => (quotedWord? double rest).map (·.after ['\''] 2)
      | _ => some ⟨[], 0, false⟩
    else if double && ch == '"' then some ⟨[], 0, false⟩
    else if double && ch == '\\' then
      match rest with
      | [] => none
      | e :: rest =>
        let n := escapeDigits e
        if isBreak e then some ⟨[], 2, true⟩
        else if n > 0 then
          match hexValue? (rest.take n) with
          | some value =>
            if rest.length < n || !(Nat.isValidChar value) then none
            else (quotedWord? double (rest.drop n)).map (·.after [Char.ofNat value] (2 + n))
          | none => none
        else match escapes.lookup e with
          | some value => (quotedWord? double rest).map (·.after [value] 2)
          | none => none
    else (quotedWord? double rest).map (·.after [ch] 1)
termination_by cs.length
decreasing_by all_goals simp only [List.length_cons, List.length_drop]; omega

/-- The text of a quoted scalar and the place behind its closing quote; the part up to here is known.
None if the quote is not closed before the end of the document. -/
def quoted? (double : Bool) : Nat → List Char → Cursor → Option (List Char × Cursor)
  | 0, _, _ => none
  | fuel + 1, text, c => do
    if c.atDocumentMark || c.rest.isEmpty then none
    else
      let word ← quotedWord? double c.rest
      let after := c.skip word.length
      let text := text ++ word.text
      if after.rest.head? == some (if double then '"' else '\'') then
        return (text, after.advance)
      let (gap, next) ← gap? 0 { Gap.empty with broken := word.glued } after
      quoted? double fuel (text ++ gap.text) next

/-! ### Block scalars -/

/-- How a block scalar ends. -/
inductive Chomping where
  | clip
  | strip
  | keep
  deriving DecidableEq

/-- The header of a block scalar behind its mark: chomping and the given indentation. -/
def blockHeader? (cs : List Char) : Option (Chomping × Nat) :=
  let marks := cs.takeWhile fun ch => ch == '+' || ch == '-' || ch.isDigit
  let tail := (cs.drop marks.length).dropWhile isBlank
  let signs := marks.filter fun ch => !ch.isDigit
  let digits := marks.filter Char.isDigit
  if !(tail.isEmpty || tail.head? == some '#') || signs.length > 1 || digits.length > 1 ||
      digits == ['0'] then none
  else
    let chomping := if signs == ['+'] then .keep else if signs == ['-'] then .strip else .clip
    some (chomping, (digits.head?.map fun d => d.toNat - '0'.toNat).getD 0)

/-- Empty lines of a block scalar: the line ends, the greatest indentation, and the place behind both.
`indent` is zero as long as it is not known. None if a tab stands where blanks are expected. -/
def emptyLines? (indent : Nat) : Nat → List Char → Nat → Cursor → Option (List Char × Nat × Cursor)
  | 0, breaks, widest, c => some (breaks, widest, c)
  | fuel + 1, breaks, widest, c =>
    let blanks := (c.rest.takeWhile (· == ' ')).length
    let c := c.skip (if indent == 0 then blanks else min blanks (indent - c.column))
    let widest := max widest c.column
    match c.rest with
    | ch :: _ =>
      if ch == '\t' && (indent == 0 || c.column < indent) then none
      else if isBreak ch then emptyLines? indent fuel (breaks ++ [breakText ch]) widest c.advance
      else some (breaks, widest, c)
    | [] => some (breaks, widest, c)

/-- The text of a block scalar so far: `last` is the end of the last line, `breaks` those of the empty
lines behind it, and `indented` means that the last line started with a blank. -/
structure BlockText where
  text : List Char
  last : List Char
  breaks : List Char
  indented : Bool

/-- The text in front of the next line, which starts with a blank or not. In a folded scalar a single
line end between two lines that start with no blank becomes a blank. -/
def BlockText.joined (folded : Bool) (b : BlockText) (blank : Bool) : List Char :=
  if folded && !b.indented && !blank && b.last == ['\n'] then
    b.text ++ (if b.breaks.isEmpty then [' '] else []) ++ b.breaks
  else b.text ++ b.last ++ b.breaks

/-- The lines of a block scalar that stand at the column `indent`. -/
def blockLines? (folded : Bool) (indent : Nat) : Nat → BlockText → Cursor → Option (BlockText × Cursor)
  | 0, b, c => some (b, c)
  | fuel + 1, b, c =>
    if c.column != indent || c.rest.isEmpty then some (b, c)
    else do
      let blank := (c.rest.head?.map isBlank).getD false
      let line := c.rest.takeWhile fun ch => !isBreak ch
      let after := c.skip line.length
      let last := (after.rest.head?.map breakText).toList
      let (breaks, _, next) ← emptyLines? indent after.rest.length [] 0 after.advance
      blockLines? folded indent fuel ⟨b.joined folded blank ++ line, last, breaks, blank⟩ next

/-- A block scalar that starts with its mark, and the place behind it. Its lines stand at the column
`margin` at least. -/
def block? (margin : Nat) (c : Cursor) : Option (String × Cursor) := do
  let header := c.rest.takeWhile fun ch => !isBreak ch
  let (chomping, given) ← blockHeader? (header.drop 1)
  let after := (c.skip header.length).advance
  let indent := if given > 0 then margin - 1 + given else 0
  let (breaks, widest, next) ← emptyLines? indent after.rest.length [] 0 after
  let indent := if indent == 0 then max (max widest margin) 1 else indent
  let (b, stop) ←
    blockLines? (header.head? == some '>') indent next.rest.length ⟨[], [], breaks, false⟩ next
  let text := match chomping with
    | .strip => b.text
    | .clip => b.text ++ b.last
    | .keep => b.text ++ b.last ++ b.breaks
  return (String.ofList text, stop)

end ErdSql.Yaml.Cursor
