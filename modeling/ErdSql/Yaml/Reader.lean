import ErdSql.Text.Split
import ErdSql.Yaml.Kind
import ErdSql.Yaml.Scanner

/-!
# Reading YAML

The first document of a text as a value. Tokens are fetched as they are needed: what follows the
document is looked at only as far as three tokens have to be known at any time.
-/

namespace ErdSql.Yaml

/-- What a reader works on: the scanner, the named values so far, and the starts that the handles of
tags stand for. -/
structure Source where
  scanner : Scanner
  anchors : List (String × Yaml)
  handles : List (String × String)

/-- A reader, which fails on malformed text. -/
abbrev Reader (α : Type) : Type := StateT Source Option α

/-- What a value has in front of it. A tag may leave the kind open. -/
structure Properties where
  anchor : Option String
  tag : Option Tag
  isTagged : Bool

namespace Reader

/-- The next token. -/
def peek : Reader Token := fun source => do
  let (token, scanner) ← source.scanner.peek?
  return (token, { source with scanner := scanner })

/-- Passes the next token. -/
def skip : Reader Unit := modify fun source => { source with scanner := source.scanner.take }

/-- The kind of the next token. -/
def peekKind : Reader Token.Kind := do return (← peek).kind

/-- A value that is not there, in a line. -/
def missing (line : Nat) : Yaml := .scalar line .null ""

/-- The start of the names of the kinds that every document knows. -/
def standardStart : String := "tag:yaml.org,2002:"

/-- The handles of tags that every document knows. -/
def standardHandles : List (String × String) :=
  [("!", "!"), ("!!", standardStart)]

/-- The kind that a tag gives, none for a tag that leaves the kind open. -/
def tagOf (handle suffix : String) : Reader (Option Tag) := do
  let name ← if handle.isEmpty then pure suffix
    else match (← get).handles.lookup handle with
      | some start => pure (start ++ suffix)
      | none => failure
  if name == "!" then return none
  match Text.dropStart? standardStart name with
  | some short => return some (Tag.ofName ("!!" ++ short))
  | none => return some (Tag.ofName name)

/-- The name and the tag in front of a value, in either order. -/
def properties : Reader Properties := do
  match ← peekKind with
  | .anchor name =>
    skip
    match ← peekKind with
    | .tag handle suffix => skip; return ⟨some name, ← tagOf handle suffix, true⟩
    | _ => return ⟨some name, none, false⟩
  | .tag handle suffix =>
    skip
    match ← peekKind with
    | .anchor name => skip; return ⟨some name, ← tagOf handle suffix, true⟩
    | _ => return ⟨none, ← tagOf handle suffix, true⟩
  | _ => return ⟨none, none, false⟩

/-- Remembers a value under the name in front of it. -/
def named (p : Properties) (value : Yaml) : Reader Yaml := do
  match p.anchor with
  | some name => modify fun source => { source with anchors := (name, value) :: source.anchors }
  | none => pure ()
  return value

/-- A scalar of the kind that its tag or its spelling gives. -/
def scalarValue (p : Properties) (line : Nat) (plain : Bool) (text : String) : Reader Yaml :=
  named p (.scalar line (p.tag.getD (if plain then plainTag text else .str)) text)

/-- The value that only has a name or a tag. -/
def empty (p : Properties) (line : Nat) : Reader Yaml :=
  if p.anchor.isNone && !p.isTagged then failure else scalarValue p line true ""

/-- A comma in front of every item of a flow collection but the first. -/
def separator (first : Bool) : Reader Unit := do
  if !first then
    if (← peekKind) != .comma then failure
    skip

mutual

/-- A value. Block collections are read only in a `block`, and a sequence whose dashes stand at the
column of its key only behind this `key`. -/
def node (fuel : Nat) (block behindKey : Bool) : Reader Yaml :=
  match fuel with
  | 0 => failure
  | fuel + 1 => do
    let first ← peek
    if let .reference name := first.kind then
      skip
      match (← get).anchors.lookup name with
      | some target => return .reference first.line name target
      | none => failure
    let p ← properties
    let token ← peek
    let seq (items : List Yaml) := named p (.seq first.line (p.tag.getD .seq) items)
    let map (entries : List (Yaml × Yaml)) := named p (.map first.line (p.tag.getD .map) entries)
    match token.kind with
    | .item => if behindKey then seq (← openItems fuel) else empty p first.line
    | .scalar plain text => skip; scalarValue p first.line plain text
    | .openSeq => skip; seq (← flowItems fuel true)
    | .openMap => skip; map (← flowEntries fuel true)
    | .blockSeq => if block then skip; seq (← blockItems fuel) else empty p first.line
    | .blockMap => if block then skip; map (← blockEntries fuel) else empty p first.line
    | _ => empty p first.line
termination_by structural fuel

/-- The items of a block sequence. -/
def blockItems (fuel : Nat) : Reader (List Yaml) :=
  match fuel with
  | 0 => failure
  | fuel + 1 => do
    let token ← peek
    match token.kind with
    | .item =>
      skip
      let next ← peekKind
      let item ← if next == .item || next == .blockEnd then pure (missing token.line)
        else node fuel true false
      return item :: (← blockItems fuel)
    | .blockEnd => skip; return []
    | _ => failure
termination_by structural fuel

/-- The items of a sequence whose dashes stand at the column of its key. -/
def openItems (fuel : Nat) : Reader (List Yaml) :=
  match fuel with
  | 0 => failure
  | fuel + 1 => do
    let token ← peek
    match token.kind with
    | .item =>
      skip
      let next ← peekKind
      let item ← if next == .item || next == .key || next == .value || next == .blockEnd then
          pure (missing token.line)
        else node fuel true false
      return item :: (← openItems fuel)
    | _ => return []
termination_by structural fuel

/-- The key or the value behind its mark in a block mapping. -/
def blockPart (fuel line : Nat) : Reader Yaml :=
  match fuel with
  | 0 => failure
  | fuel + 1 => do
    let next ← peekKind
    if next == .key || next == .value || next == .blockEnd then return missing line
    node fuel true true
termination_by structural fuel

/-- The entries of a block mapping. -/
def blockEntries (fuel : Nat) : Reader (List (Yaml × Yaml)) :=
  match fuel with
  | 0 => failure
  | fuel + 1 => do
    let token ← peek
    match token.kind with
    | .key =>
      skip
      let key ← blockPart fuel token.line
      let mark ← peek
      let value ← if mark.kind == .value then do skip; blockPart fuel mark.line
        else pure (missing mark.line)
      return (key, value) :: (← blockEntries fuel)
    | .blockEnd => skip; return []
    | _ => failure
termination_by structural fuel

/-- The items of a flow sequence. A key among them makes a mapping with one entry. -/
def flowItems (fuel : Nat) (first : Bool) : Reader (List Yaml) :=
  match fuel with
  | 0 => failure
  | fuel + 1 => do
    if (← peekKind) == .closeSeq then
      skip
      return []
    separator first
    let token ← peek
    match token.kind with
    | .closeSeq => skip; return []
    | .key =>
      skip
      let next ← peek
      let key ← if next.kind == .value || next.kind == .comma || next.kind == .closeSeq then do
          skip
          pure (missing next.line)
        else node fuel false false
      let value ← flowValue fuel .closeSeq
      return .map token.line .map [(key, value)] :: (← flowItems fuel false)
    | _ =>
      let item ← node fuel false false
      return item :: (← flowItems fuel false)
termination_by structural fuel

/-- The entries of a flow mapping. -/
def flowEntries (fuel : Nat) (first : Bool) : Reader (List (Yaml × Yaml)) :=
  match fuel with
  | 0 => failure
  | fuel + 1 => do
    if (← peekKind) == .closeMap then
      skip
      return []
    separator first
    match ← peekKind with
    | .closeMap => skip; return []
    | .key =>
      skip
      let next ← peek
      let key ← if next.kind == .value || next.kind == .comma || next.kind == .closeMap then
          pure (missing next.line)
        else node fuel false false
      let value ← flowValue fuel .closeMap
      return (key, value) :: (← flowEntries fuel false)
    | _ =>
      let key ← node fuel false false
      let value := missing (← peek).line
      return (key, value) :: (← flowEntries fuel false)
termination_by structural fuel

/-- The value behind a key in a flow collection that ends with `close`. -/
def flowValue (fuel : Nat) (close : Token.Kind) : Reader Yaml :=
  match fuel with
  | 0 => failure
  | fuel + 1 => do
    let mark ← peek
    if mark.kind != .value then return missing mark.line
    skip
    let next ← peek
    if next.kind == .comma || next.kind == close then return missing next.line
    node fuel false false
termination_by structural fuel

end

/-- The directives in front of a document. The version must be 1.1, and no directive is given twice. -/
def directives : Nat → Bool → List (String × String) → Reader Unit
  | 0, _, _ => failure
  | fuel + 1, versioned, handles => do
    match ← peekKind with
    | .version major minor =>
      if versioned || major != 1 || minor != 1 then failure
      skip
      directives fuel true handles
    | .tagHandle handle start =>
      if (handles.lookup handle).isSome then failure
      skip
      directives fuel versioned (handles ++ [(handle, start)])
    | _ => modify fun source => { source with handles := handles ++ standardHandles }

/-- The first document, if there is one. Its end is looked at, but not what follows. -/
def document (fuel : Nat) : Reader (Option Yaml) := do
  let token ← peek
  match token.kind with
  | .streamEnd => return none
  | .version _ _ => marked
  | .tagHandle _ _ => marked
  | .documentStart => marked
  | _ =>
    directives fuel false []
    let root ← node fuel true false
    let _ ← peek
    return some root
where
  /-- A document that starts with its mark. -/
  marked : Reader (Option Yaml) := do
    directives fuel false []
    if (← peekKind) != .documentStart then failure
    skip
    let next ← peek
    let root ← match next.kind with
      | .version _ _ => pure (missing next.line)
      | .tagHandle _ _ => pure (missing next.line)
      | .documentStart => pure (missing next.line)
      | .documentEnd => pure (missing next.line)
      | .streamEnd => pure (missing next.line)
      | _ => node fuel true false
    let _ ← peek
    return some root

end Reader

/-- Line ends of one or two characters as single line feeds. -/
def plainBreaks : List Char → List Char
  | '\r' :: '\n' :: cs => '\n' :: plainBreaks cs
  | '\r' :: cs => '\n' :: plainBreaks cs
  | c :: cs => c :: plainBreaks cs
  | [] => []

/-- Whether a character may stand in a YAML text. -/
def isAllowed (c : Char) : Bool :=
  let n := c.toNat
  n == 9 || n == 10 || n == 13 || (0x20 ≤ n && n ≤ 0x7e) || n == 0x85 ||
    (0xa0 ≤ n && n != 0xfffe && n != 0xffff)

/-- Reads the first document of a text. The outer option is none for a malformed text, the inner one
for a text without document. -/
def read? (s : String) : Option (Option Yaml) :=
  let cs := match s.toList with
    | '\ufeff' :: cs => cs
    | cs => cs
  if !cs.all isAllowed then none
  else ((Reader.document (8 * cs.length + 32)).run ⟨.start (plainBreaks cs), [], []⟩).map (·.1)

end ErdSql.Yaml
