import ErdSql.Text.Bytes
import ErdSql.Toml

/-!
# Quoted texts in TOML

Basic texts stand in double quotes and have escapes, literal texts stand in single quotes and have none.
Three quotes open and close a text of several lines.
-/

namespace ErdSql.Toml

/-- Whether a character may stand in a text or comment of one line. -/
def isPlain (c : Char) : Bool :=
  c == '\t' || (0x20 ≤ c.toNat && c.toNat != 0x7f)

/-- Whether a character may stand in a text of several lines. -/
def isPlainOrBreak (c : Char) : Bool :=
  isPlain c || c == '\n' || c == '\r'

/-- Whether a character separates words. -/
def isGap (c : Char) : Bool :=
  c == ' ' || c == '\t' || c == '\n' || c == '\r'

/-- The length of a basic text of one line behind its opening quote. -/
def basicLength : List Char → Except Fault Nat
  | [] => .error ⟨0, .unclosed "text"⟩
  | '"' :: _ => .ok 0
  | ['\\'] => .error ⟨1, .badEscape⟩
  | '\\' :: _ :: cs => (basicLength cs).map (2 + ·)
  | c :: cs =>
    if c == '\n' || c == '\r' then .error ⟨cs.length + 1, .unclosed "text"⟩
    else (basicLength cs).map (1 + ·)

/-- The length of a literal text of one line behind its opening quote. -/
def literalLength : List Char → Except Fault Nat
  | [] => .error ⟨0, .unclosed "text"⟩
  | '\'' :: _ => .ok 0
  | c :: cs =>
    if isPlain c then (literalLength cs).map (1 + ·)
    else .error ⟨cs.length + 1, .badCharacter⟩

/-- How many quotes close a text of several lines: three to five in a row, of which the last three are
the mark. -/
def closingQuotes (quote : Char) (cs : List Char) : Nat :=
  let n := (cs.takeWhile (· == quote)).length
  if n < 3 then 0 else n

/-- The length of a text of several lines behind its opening quotes, with the quotes that belong to
it. -/
def longLength (quote : Char) (cs : List Char) : Except Fault Nat :=
  match cs with
  | [] => .error ⟨0, .unclosed "text"⟩
  | c :: rest =>
    let n := closingQuotes quote (c :: rest)
    if n > 5 then .error ⟨cs.length - 2, .badCharacter⟩
    else if n > 0 then .ok (n - 3)
    else if c == '\\' && quote == '"' then
      match rest with
      | [] => .error ⟨0, .badEscape⟩
      | _ :: rest => (longLength quote rest).map (2 + ·)
    else if c == '\r' && rest.isEmpty then .error ⟨0, .badCharacter⟩
    else if c == '\r' && rest.head? != some '\n' then .error ⟨cs.length, .badCharacter⟩
    else if quote == '\'' && !isPlainOrBreak c then .error ⟨cs.length, .badCharacter⟩
    else (longLength quote rest).map (1 + ·)

/-- The number that hexadecimal digits spell, or what is wrong with them. There are `after` characters
behind the given ones, of which `quotes` belong to the text. The text must have `count` bytes at
least. -/
def hexNumber (after quotes count : Nat) (cs : List Char) : Except Fault Char :=
  let rec go (n : Nat) : Nat → List Char → Except Fault Nat
    | 0, _ => .ok n
    | _, [] => .error ⟨after, .badEscape⟩
    | k + 1, c :: rest =>
      match Text.hexValue? c with
      | some d => go (16 * n + d) k rest
      | none => .error ⟨rest.length + 1 + after, .badEscape⟩
  if (Text.bytes (String.ofList cs)).length + quotes < count then .error ⟨cs.length + after, .badEscape⟩
  else match go 0 count cs with
    | .error e => .error e
    | .ok n => if Nat.isValidChar n then .ok (Char.ofNat n) else .error ⟨cs.length + after, .badEscape⟩

/-- What escapes of one letter stand for. -/
def escapes : List (Char × Char) :=
  [('"', '"'), ('\\', '\\'), ('b', '\x08'), ('f', '\x0c'), ('n', '\n'), ('r', '\r'), ('t', '\t'),
    ('e', '\x1b')]

/-- Whether only blanks stand before the end of the line. -/
def atBreak (cs : List Char) : Bool :=
  match cs.dropWhile fun c => c == ' ' || c == '\t' with
  | '\n' :: _ => true
  | '\r' :: '\n' :: _ => true
  | _ => false

/-- The text that the inside of a basic text stands for. There are `after` characters behind it.
In a `long` text a backslash at the end of a line takes away all white space up to the next word. -/
def unescape (long : Bool) (after : Nat) (cs : List Char) : Except Fault (List Char) :=
  match cs with
  | [] => .ok []
  | c :: rest =>
    if c == '\\' then
      if long && atBreak rest then unescape long after (rest.dropWhile isGap)
      else match rest with
        | [] => .error ⟨after, .badEscape⟩
        | e :: tail =>
          let digits := if e == 'u' then 4 else if e == 'U' then 8 else 0
          if digits > 0 then do
            let value ← hexNumber after (if long then 3 else 0) digits tail
            return value :: (← unescape long after (tail.drop digits))
          else match escapes.lookup e with
            | some value => (unescape long after tail).map (value :: ·)
            | none => .error ⟨tail.length + 1 + after, .badEscape⟩
    else if isPlain c || (long && isPlainOrBreak c) then (unescape long after rest).map (c :: ·)
    else .error ⟨cs.length + after, .badCharacter⟩
termination_by cs.length
decreasing_by
  · have := (List.dropWhile_sublist isGap : (rest.dropWhile isGap).Sublist rest).length_le
    simp only [List.length_cons]
    omega
  all_goals simp only [List.length_cons, List.length_drop]; omega

/-- Characters without a line end at their start. -/
def dropBreak : List Char → List Char
  | '\n' :: cs => cs
  | '\r' :: '\n' :: cs => cs
  | cs => cs

/-- Whether three quotes stand at the start. -/
def opensLong (quote : Char) (cs : List Char) : Bool :=
  (cs.takeWhile (· == quote)).length ≥ 3

/-- The quoted text at the start of characters and what follows it. Texts of several lines are read
if `long` is set. -/
def quotedText (long : Bool) (cs : List Char) : Except Fault (String × List Char) := do
  let quote := (cs.head?).getD '"'
  let isLong := long && opensLong quote cs
  let width := if isLong then 3 else 1
  let inside := cs.drop width
  let n ← if isLong then longLength quote inside
    else if quote == '"' then basicLength inside
    else literalLength inside
  let rest := inside.drop (n + width)
  let body := if isLong then dropBreak (inside.take n) else inside.take n
  let after := rest.length + width
  if quote == '"' then
    return (String.ofList (← unescape isLong after body), rest)
  else
    match body.dropWhile isPlainOrBreak with
    | [] => return (String.ofList body, rest)
    | bad => throw ⟨bad.length + after, .badCharacter⟩

end ErdSql.Toml
