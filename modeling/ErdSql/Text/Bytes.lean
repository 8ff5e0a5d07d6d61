import ErdSql.Text.Space

/-!
# Texts as bytes

The UTF-8 encoding of a text, its strict decoding, and the order of texts by their bytes.
-/

namespace ErdSql.Text

/-- The UTF-8 encoding of a list of characters. -/
def encode (cs : List Char) : List UInt8 :=
  cs.flatMap String.utf8EncodeChar

/-- The UTF-8 encoding of a text. -/
def bytes (s : String) : List UInt8 :=
  encode s.toList

/-- The characters that the bytes encode, unless they are not UTF-8. -/
def decode? (bs : List UInt8) : Option (List Char) :=
  (ByteArray.mk bs.toArray).utf8Decode?.map Array.toList

/-- The character that some bytes start with, unless they start with a byte that belongs to none. -/
def firstChar? (bs : List UInt8) : Option Char :=
  [1, 2, 3, 4].findSome? fun n =>
    match decode? (bs.take n) with
    | some [c] => some c
    | _ => none

/-- The characters that the bytes encode, with a replacement character for each byte that belongs to
none. -/
def decodeLossy : List UInt8 → List Char
  | [] => []
  | b :: rest =>
    match firstChar? (b :: rest) with
    | some c => c :: decodeLossy (rest.drop (c.utf8Size - 1))
    | none => '\ufffd' :: decodeLossy rest
termination_by bs => bs.length
decreasing_by
  all_goals simp only [List.length_drop, List.length_cons]; omega

/-- The text that the bytes encode. A byte that belongs to no character is shown as a replacement
character. -/
def ofBytes (bs : List UInt8) : String :=
  String.ofList ((decode? bs).getD (decodeLossy bs))

/-- The byte of an ASCII character. -/
def ascii (c : Char) : UInt8 := c.toUInt8

/-- Number of bytes of a list of characters. -/
def byteSize (cs : List Char) : Nat :=
  cs.foldl (fun n c => n + c.utf8Size) 0

/-- The characters that start at or after a byte offset. -/
def dropBytes : Nat → List Char → List Char
  | 0, cs => cs
  | _, [] => []
  | n + 1, c :: cs => dropBytes (n + 1 - c.utf8Size) cs

/-- The characters that start before a byte offset. -/
def takeBytes : Nat → List Char → List Char
  | 0, _ => []
  | _, [] => []
  | n + 1, c :: cs => c :: takeBytes (n + 1 - c.utf8Size) cs

/-- The characters between two byte offsets. -/
def slice (cs : List Char) (start stop : Nat) : List Char :=
  takeBytes (stop - start) (dropBytes start cs)

/-- Whether one byte string comes before another or equals it, compared byte by byte. -/
def bytesLE : List UInt8 → List UInt8 → Bool
  | [], _ => true
  | _ :: _, [] => false
  | a :: as, b :: bs => a < b || (a == b && bytesLE as bs)

/-- Whether one text comes before another or equals it in the order of their bytes, which is the
order of their code points. -/
def textLE (a b : String) : Bool :=
  go a.toList b.toList
where
  /-- Compares code point by code point. -/
  go : List Char → List Char → Bool
    | [], _ => true
    | _ :: _, [] => false
    | c :: cs, d :: ds => c.toNat < d.toNat || (c == d && go cs ds)

/-- Texts in the order of their bytes. -/
def sortTexts (xs : List String) : List String :=
  xs.mergeSort textLE

/-- The encodings of the white space characters. -/
def spaceEncodings : List (List UInt8) :=
  spaceChars.map String.utf8EncodeChar

/-- Bytes without the encodings that they start with. -/
def dropEncodings (encodings : List (List UInt8)) : List UInt8 → List UInt8
  | [] => []
  | b :: rest =>
    match encodings.find? (·.isPrefixOf (b :: rest)) with
    | some e => dropEncodings encodings (rest.drop (e.length - 1))
    | none => b :: rest
termination_by bs => bs.length
decreasing_by
  simp only [List.length_drop, List.length_cons]
  omega

/-- Bytes without the encodings of white space around them. -/
def trimBytes (bs : List UInt8) : List UInt8 :=
  (dropEncodings (spaceEncodings.map List.reverse)
    (dropEncodings spaceEncodings bs).reverse).reverse

/-- A byte as two hexadecimal digits. -/
def hexByte (b : UInt8) : List Char :=
  [Nat.digitChar (b.toNat / 16), Nat.digitChar (b.toNat % 16)]

/-- Bytes in lower-case hexadecimal. -/
def hex (bs : List UInt8) : String :=
  String.ofList (bs.flatMap hexByte)

/-- The value of a hexadecimal digit of either case. -/
def hexValue? (c : Char) : Option Nat :=
  if '0' ≤ c && c ≤ '9' then some (c.toNat - '0'.toNat)
  else if 'a' ≤ c && c ≤ 'f' then some (c.toNat - 'a'.toNat + 10)
  else if 'A' ≤ c && c ≤ 'F' then some (c.toNat - 'A'.toNat + 10)
  else none

/-- The bytes written in hexadecimal. -/
def ofHex? : List Char → Option (List UInt8)
  | [] => some []
  | a :: b :: rest => do
    let high ← hexValue? a
    let low ← hexValue? b
    let tail ← ofHex? rest
    return UInt8.ofNat (16 * high + low) :: tail
  | _ => none

end ErdSql.Text
