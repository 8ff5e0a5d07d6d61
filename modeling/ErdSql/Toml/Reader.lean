import ErdSql.Toml.Quoted
import ErdSql.Toml.Spelling

/-!
# Reading TOML

The entries of a text up to its end or to the first fault.
-/

namespace ErdSql.Toml

/-- A reader takes characters from the start of a text. -/
abbrev Reader (α : Type) : Type := StateT (List Char) (Except Fault) α

namespace Reader

/-- Fails where the reader stands. -/
def fail {α : Type} (problem : Problem) : Reader α := do
  throw ⟨(← get).length, problem⟩

/-- Skips blanks and tabs. -/
def skipBlanks : Reader Unit :=
  modify fun cs => cs.dropWhile fun c => c == ' ' || c == '\t'

/-- Takes a given character. -/
def expect (c : Char) : Reader Unit := do
  match ← get with
  | d :: rest => if c == d then set rest else fail (.expected c.toString)
  | [] => fail (.expected c.toString)

/-- Takes a line end. -/
def lineEnd : Reader Unit := do
  match ← get with
  | '\n' :: rest => set rest
  | '\r' :: '\n' :: rest => set rest
  | _ => fail (.expected "a line end")

/-- Skips a comment if one starts here. -/
def skipComment : Reader Unit := do
  match ← get with
  | '#' :: cs => do
    set (cs.dropWhile isPlain)
    match ← get with
    | [] => pure ()
    | '\n' :: _ => pure ()
    | '\r' :: '\n' :: rest => set ('\n' :: rest)
    | _ => fail .badCharacter
  | _ => pure ()

/-- Skips blanks, comments and line ends. -/
def skipLines : Nat → Reader Unit
  | 0 => pure ()
  | fuel + 1 => do
    skipBlanks
    skipComment
    match ← get with
    | '\n' :: _ => do lineEnd; skipLines fuel
    | '\r' :: _ => do lineEnd; skipLines fuel
    | _ => pure ()

/-- Skips blanks, comments and line ends up to the next content. -/
def skipGap : Reader Unit := do
  skipLines ((← get).length + 1)

/-- Whether a character may stand in a key without quotes. -/
def isKeyChar (c : Char) : Bool :=
  c.isAlphanum || c == '-' || c == '_'

/-- A quoted text. -/
def quoted (long : Bool) : Reader String := do
  let (s, rest) ← quotedText long (← get)
  set rest
  return s

/-- One part of a key. -/
def keyPart : Reader Key := do
  let cs ← get
  match cs with
  | [] => fail (.expected "a key")
  | c :: _ =>
    if c == '"' || c == '\'' then return ⟨cs.length, ← quoted false⟩
    else if isKeyChar c then
      set (cs.dropWhile isKeyChar)
      return ⟨cs.length, String.ofList (cs.takeWhile isKeyChar)⟩
    else fail (.expected "a key")

/-- The parts of a key behind the first one. -/
def keyTail : Nat → Reader (List Key)
  | 0 => pure []
  | fuel + 1 => do
    skipBlanks
    match ← get with
    | '.' :: rest => do
      set rest
      skipBlanks
      let part ← keyPart
      return part :: (← keyTail fuel)
    | _ => return []

/-- A key, whose parts are divided by dots. -/
def key : Reader (List Key) := do
  let first ← keyPart
  return first :: (← keyTail (← get).length)

/-- Takes a given word. -/
def word (w : String) : Reader Unit := do
  let cs ← get
  if w.toList.isPrefixOf cs then set (cs.drop w.length) else fail (.expected w)

/-- The length of a date or time: digits and marks, and one blank before a digit and any other
character, behind which nothing follows if it has more than one byte. -/
def dateLength (spaced : Bool) : List Char → Nat
  | [] => 0
  | [' ', d] => if !spaced && d.isDigit then 2 else 0
  | ' ' :: d :: c :: cs =>
    if spaced || !d.isDigit then 0 else if c.utf8Size > 1 then 3 else 3 + dateLength true cs
  | c :: cs =>
    if c.isDigit || "-Tt:.+Zz".toList.contains c then 1 + dateLength spaced cs else 0

/-- A date or time in which the digit behind a blank also stands for the next character, which is passed
unseen. -/
def seenMarks : List Char → List Char
  | ' ' :: d :: _ :: cs => ' ' :: d :: d :: cs
  | c :: cs => c :: seenMarks cs
  | [] => []

/-- Whether a date or time starts here: two digits and a colon, or four digits and a dash. -/
def startsDate (cs : List Char) : Bool :=
  let n := (cs.takeWhile Char.isDigit).length
  (n == 2 && cs[2]? == some ':') || (n == 4 && cs[4]? == some '-')

/-- The length of a number of base two, eight or sixteen behind its mark, or of a lone zero. -/
def zeroLength : List Char → Nat
  | 'x' :: cs => 2 + (cs.takeWhile fun c => (Text.hexValue? c).isSome || c == '_').length
  | 'o' :: cs => 2 + (cs.takeWhile fun c => ('0' ≤ c && c ≤ '7') || c == '_').length
  | 'b' :: cs => 2 + (cs.takeWhile fun c => c == '0' || c == '1' || c == '_').length
  | _ => 1

/-- What a date or time is: it has a date if there is a dash, a time if there is a mark of one, and an
offset if its mark stands behind the date. -/
def moment (cs : List Char) : Measure :=
  let cs := seenMarks cs
  let hasTime := cs.any fun c => " Tt:.".toList.contains c
  let hasOffset := (cs.any fun c => "+Zz".toList.contains c) || (cs.drop 8).contains '-'
  if !hasTime then .localDate
  else if !cs.contains '-' then .localTime
  else if hasOffset then .dateTime else .localDateTime

/-- A date or time. -/
def date : Reader Measure := do
  let cs ← get
  let n := dateLength false cs
  set (cs.drop n)
  return moment (cs.take n)

/-- A decimal number, possibly infinite or not a number. -/
def decimal : Reader Measure := do
  let digits ← get
  let rest := digits.dropWhile fun c => c.isDigit || "+-_.eE".toList.contains c
  let taken := digits.take (digits.length - rest.length)
  set rest
  match rest with
  | 'i' :: _ => do word "inf"; return .float
  | 'n' :: _ => do word "nan"; return .float
  | _ =>
    if taken.isEmpty then fail (.expected "a value")
    return if taken.any fun c => ".eE".toList.contains c then .float else .integer

/-- A number or date. -/
def number : Reader Measure := do
  let cs ← get
  if startsDate cs then date
  else match cs with
    | '0' :: c :: _ :: _ =>
      if c == '.' || c == 'e' || c == 'E' then decimal
      else do
        set (cs.drop (zeroLength (cs.drop 1)))
        return .integer
    | _ => decimal

/-- Where the spelling of a number or moment goes wrong, which starts at `left`. -/
def wrongPlace (kind : Measure) (left : Nat) (cs : List Char) : Option Nat :=
  match Spelling.check kind cs with
  | .ok _ => none
  | .error i => some (left - i)

mutual

/-- A value. -/
def value : Nat → Reader Value
  | 0 => fail (.expected "a value")
  | fuel + 1 => do
    let cs ← get
    let left := cs.length
    match cs with
    | [] => fail (.expected "a value")
    | '"' :: _ => return .text left (← quoted true)
    | '\'' :: _ => return .text left (← quoted true)
    | 't' :: _ => do word "true"; return .flag left true
    | 'f' :: _ => do word "false"; return .flag left false
    | '[' :: rest => do
      set rest
      let items ← items fuel left true
      expect ']'
      return .array left items
    | '\x7b' :: rest => do
      set rest
      let entries ← pairs fuel true
      expect '\x7d'
      return .table left entries
    | _ => do
      let kind ← number
      let after := (← get).length
      return .measure left kind (wrongPlace kind left (cs.take (left - after)))

/-- The items of an array up to its bracket. The array starts at `start`. -/
def items (fuel start : Nat) (first : Bool) : Reader (List Value) :=
  match fuel with
  | 0 => fail (.unclosed "array")
  | fuel + 1 => do
    if (← get).isEmpty then return []
    skipGap
    match ← get with
    | [] => throw ⟨start, .unclosed "array"⟩
    | ']' :: _ => return []
    | ',' :: rest => do
      if first then fail (.expected "a value")
      set rest
      skipGap
    | _ => if !first then fail (.expected "a comma")
    match ← get with
    | ']' :: _ => return []
    | _ => do
      let item ← value fuel
      skipGap
      return item :: (← items fuel start false)

/-- The entries of an inline table up to its brace. -/
def pairs (fuel : Nat) (first : Bool) : Reader (List (List Key × Value)) :=
  match fuel with
  | 0 => fail (.unclosed "table")
  | fuel + 1 => do
    let before ← get
    if before.isEmpty then return []
    skipBlanks
    match ← get with
    | [] => throw ⟨before.length, .unclosed "table"⟩
    | '\x7d' :: _ => return []
    | _ => do
      if !first then
        expect ','
        skipBlanks
      let key ← key
      skipBlanks
      expect '='
      skipBlanks
      let value ← value fuel
      return (key, value) :: (← pairs fuel false)

end

/-- A header behind its first bracket. -/
def header : Reader Entry := do
  match ← get with
  | '[' :: rest => do
    set rest
    skipBlanks
    let key ← key
    skipBlanks
    expect ']'
    expect ']'
    return .header true key
  | _ => do
    skipBlanks
    let key ← key
    skipBlanks
    expect ']'
    return .header false key

/-- A key and its value. -/
def pair : Reader Entry := do
  let key ← key
  skipBlanks
  expect '='
  skipBlanks
  let value ← value (2 * (← get).length + 2)
  return .pair key value

/-- What the line says where the reader stands, if it says anything. -/
def line : Reader (Option Entry) := do
  skipBlanks
  match ← get with
  | [] => return none
  | '#' :: _ => do skipComment; return none
  | '\n' :: _ => return none
  | '\r' :: _ => return none
  | '[' :: rest => do
    set rest
    let entry ← header
    skipBlanks
    skipComment
    return some entry
  | _ => do
    let entry ← pair
    skipBlanks
    skipComment
    return some entry

end Reader

/-- The entries of the lines from here on, and the fault at which reading stopped. A fault behind an
entry in its line comes after the entry. -/
def lines : Nat → List Char → List Entry × Option Fault
  | 0, _ => ([], none)
  | fuel + 1, cs =>
    match (Reader.line).run cs with
    | .error fault => ([], some fault)
    | .ok (entry, rest) =>
      let (entries, fault) :=
        if rest.isEmpty then ([], none)
        else match (Reader.lineEnd).run rest with
          | .error fault => ([], some fault)
          | .ok (_, next) => if next.isEmpty then ([], none) else lines fuel next
      (entry.toList ++ entries, fault)

/-- The entries of a text, and the fault at which reading stopped. -/
def read (cs : List Char) : List Entry × Option Fault :=
  lines (cs.length + 1) cs

end ErdSql.Toml
