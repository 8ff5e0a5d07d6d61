import ErdSql.Digest.Sha256
import ErdSql.Text.Bytes

/-!
# Keys from several texts

A key is the hash of some byte strings, each behind its length, so that no two lists of strings give
the same bytes to hash.
-/

namespace ErdSql.Digest

/-- A byte string behind its length as eight bytes. -/
def framed (part : List UInt8) : List UInt8 :=
  Sha256.bigEndian64 part.length ++ part

/-- Byte strings one after another, each behind its length. -/
def frame (parts : List (List UInt8)) : List UInt8 :=
  parts.flatMap framed

/-- The key of some byte strings, in hexadecimal. -/
def key (hash : List UInt8 → List UInt8) (parts : List (List UInt8)) : String :=
  Text.hex (hash (frame parts))

end ErdSql.Digest
