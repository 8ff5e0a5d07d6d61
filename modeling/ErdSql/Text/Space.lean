import ErdSql.Text.Ranges

/-!
# White space

The characters with the property `White_Space`, and trimming by them.
-/

namespace ErdSql.Text

/-- White space beyond ASCII. -/
def spaceRanges : Array CodeRange := #[
  (0x85, 0x85), (0xa0, 0xa0), (0x1680, 0x1680), (0x2000, 0x200a), (0x2028, 0x2029),
  (0x202f, 0x202f), (0x205f, 0x205f), (0x3000, 0x3000)]

/-- All white space characters. -/
def spaceChars : List Char :=
  ['\t', '\n', '\x0b', '\x0c', '\r', ' '] ++
    spaceRanges.toList.flatMap fun (low, high) =>
      (List.range (high + 1 - low)).map fun k => Char.ofNat (low + k)

/-- Whether a character is white space: a blank, tab, line feed, vertical tab, form feed or carriage
return, or one of the white space characters beyond ASCII. -/
def isSpace (c : Char) : Bool :=
  if c.toNat < 0x80 then c == ' ' || (9 ≤ c.toNat && c.toNat ≤ 13)
  else inRanges spaceRanges c.toNat

/-- A list without the elements at its end that satisfy `p`. -/
def dropWhileEnd {α : Type} (p : α → Bool) (xs : List α) : List α :=
  (xs.reverse.dropWhile p).reverse

/-- Characters without the white space around them. -/
def trimChars (cs : List Char) : List Char :=
  dropWhileEnd isSpace (cs.dropWhile isSpace)

/-- A text without the white space around it. -/
def trim (s : String) : String :=
  String.ofList (trimChars s.toList)

/-- Whether a text has nothing but white space. -/
def isBlank (s : String) : Bool :=
  s.toList.all isSpace

/-- A text without the characters at its end that satisfy `p`. -/
def trimEndWhere (p : Char → Bool) (s : String) : String :=
  String.ofList (dropWhileEnd p s.toList)

/-- The words of a text: its longest runs without white space. -/
def words (s : String) : List String :=
  go [] s.toList
where
  /-- Collects the current word, reversed, until white space ends it. -/
  go (word : List Char) : List Char → List String
    | [] => if word.isEmpty then [] else [String.ofList word.reverse]
    | c :: cs =>
      if isSpace c then
        if word.isEmpty then go [] cs else String.ofList word.reverse :: go [] cs
      else go (c :: word) cs

end ErdSql.Text
