import ErdSql.Text.Bytes
import ErdSql.Text.Case

/-!
# UUID texts

The four spellings of a UUID: 32 hexadecimal digits; the same with dashes; that behind `urn:uuid:`;
and that between one byte in front and one behind, whatever they are.
-/

namespace ErdSql.Uuid

/-- Whether a byte is a hexadecimal digit. -/
def isHexByte (b : UInt8) : Bool :=
  (0x30 ≤ b && b ≤ 0x39) || (0x41 ≤ b && b ≤ 0x46) || (0x61 ≤ b && b ≤ 0x66)

/-- Whether bytes start with digits in groups of 8, 4, 4, 4 and 12 with dashes between them. -/
def isDashed (bs : List UInt8) : Bool :=
  36 ≤ bs.length &&
    (bs.take 36).zipIdx.all fun (b, i) =>
      if i == 8 || i == 13 || i == 18 || i == 23 then b == 0x2d else isHexByte b

/-- Whether a text is a UUID. -/
def isValid (s : String) : Bool :=
  let bs := Text.bytes s
  match bs.length with
  | 32 => bs.all isHexByte
  | 36 => isDashed bs
  | 38 => isDashed (bs.drop 1)
  | 45 => Text.spells "urn:uuid:" (Text.ofBytes (bs.take 9)) && isDashed (bs.drop 9)
  | _ => false

end ErdSql.Uuid
