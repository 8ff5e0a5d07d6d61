import ErdSql.Text.CaseTable

/-!
# Upper and lower case

Case mappings of one character to one character, and the comparison that ignores case. The comparison
is only ever made with an ASCII word; besides the two ASCII spellings of a letter it accepts the long
s for `s` and the Kelvin sign for `k`, the two characters beyond ASCII that fold to ASCII letters.
-/

namespace ErdSql.Text

/-- The image of a code point under the first row that speaks about it. -/
def mapCase (runs : Array CaseRun) (c : Char) : Char :=
  match runs.findSome? fun r => r.apply? c.toNat with
  | some n => Char.ofNat n
  | none => c

/-- The upper-case form of a character. -/
def upperChar (c : Char) : Char :=
  if c.toNat < 0x80 then c.toUpper else mapCase upperRuns c

/-- The lower-case form of a character. -/
def lowerChar (c : Char) : Char :=
  if c.toNat < 0x80 then c.toLower else mapCase lowerRuns c

/-- A text in upper case. -/
def upper (s : String) : String :=
  String.ofList (s.toList.map upperChar)

/-- A text in lower case. -/
def lower (s : String) : String :=
  String.ofList (s.toList.map lowerChar)

/-- The lower-case ASCII letter that a character stands for when case is ignored, or the character
itself. -/
def foldChar (c : Char) : Char :=
  if c == '\u017f' then 's' else if c == '\u212a' then 'k' else c.toLower

/-- Whether a text spells an ASCII word when case is ignored. -/
def spells (word s : String) : Bool :=
  s.toList.map foldChar == word.toList.map foldChar

end ErdSql.Text
