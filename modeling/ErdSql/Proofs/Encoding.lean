import ErdSql.Script.Word
import ErdSql.Sql.StringLiteral
import ErdSql.Token
import Mathlib

/-!
# Quoted runs as bytes

The bytes of a text, and how the quoted runs of a script end.

* `Text.encode_doubleChar`: doubling a character of ASCII doubles its byte.
* `Text.collapsePairs_flatMap`: halving pairs undoes doubling.
* `Token.unquoteChars_enclosed`: a literal without its quotes is what was put in quotes.
* `Text.bytes_standardLiteral`, `Text.bytes_escapeLiteral`: the bytes of a string literal.
* `Script.quotedLength_of_enclosed`, `Script.Word.literalLength?_of_enclosed`: a run whose quotes stand
  in pairs ends at the quote behind it, for the cutting into pieces and for the cutting into words.
-/

namespace ErdSql

namespace Text

/-! ### Lists -/

/-- A list is cut in one way at the first of a character. -/
lemma append_cons_inj {α : Type} {a : α} {xs xs' ys ys' : List α} (h : a ∉ xs) (h' : a ∉ xs')
    (same : xs ++ a :: ys = xs' ++ a :: ys') : xs = xs' ∧ ys = ys' := by
  induction xs generalizing xs' with
  | nil =>
    cases xs' with
    | nil => exact ⟨rfl, List.tail_eq_of_cons_eq same⟩
    | cons x' xs' => exact absurd (List.head_eq_of_cons_eq same ▸ List.mem_cons_self) h'
  | cons x xs ih =>
    cases xs' with
    | nil => exact absurd (List.head_eq_of_cons_eq same ▸ List.mem_cons_self) h
    | cons x' xs' =>
      obtain ⟨rfl, rest⟩ := List.cons_eq_cons.1 same
      obtain ⟨rfl, rfl⟩ := ih (List.not_mem_of_not_mem_cons h) (List.not_mem_of_not_mem_cons h') rest
      exact ⟨rfl, rfl⟩

/-- A number is written with digits. -/
lemma notMem_toString {c : Char} (h : c.isDigit = false) (n : Nat) : c ∉ (toString n).toList := by
  rw [Nat.toString_eq_repr, Nat.toList_repr]
  intro mem
  rw [Nat.isDigit_of_mem_toDigits (b := 10) (by decide) (by decide) mem] at h
  cases h

/-! ### Encodings -/

/-- The bytes of two texts, one after the other. -/
@[simp]
lemma bytes_append (a b : String) : bytes (a ++ b) = bytes a ++ bytes b := by
  simp [bytes, encode]

/-- The bytes of a text are read back as the text. -/
lemma decode?_bytes (s : String) : decode? (bytes s) = some s.toList := by
  have same : ByteArray.mk (bytes s).toArray = s.toList.utf8Encode := by
    apply ByteArray.ext
    simp [bytes, encode, List.utf8Encode]
  rw [decode?, same, List.utf8Decode?_utf8Encode]
  rfl

/-- A text that is spelled out has the bytes of its characters. Bytes of a literal are computed from
these: the literal itself would first be encoded and then decoded. -/
lemma bytes_ofList (cs : List Char) : bytes (String.ofList cs) = encode cs := by
  rw [bytes, String.toList_ofList]

/-- A text can be told from its bytes. -/
lemma bytes_inj {s t : String} : bytes s = bytes t ↔ s = t := by
  refine ⟨fun h => ?_, congrArg bytes⟩
  have same := congrArg decode? h
  rw [decode?_bytes, decode?_bytes, Option.some_inj] at same
  exact String.toList_inj.1 same

/-- The encoding of one more character. -/
lemma encode_cons (c : Char) (cs : List Char) :
    encode (c :: cs) = String.utf8EncodeChar c ++ encode cs := rfl

/-- The encoding of two lists of characters. -/
lemma encode_append (cs ds : List Char) : encode (cs ++ ds) = encode cs ++ encode ds := by
  simp [encode]

/-- A character of ASCII is one byte. -/
lemma utf8EncodeChar_of_lt {c : Char} (h : c.toNat < 0x80) :
    String.utf8EncodeChar c = [ascii c] := by
  have small : c.val.toNat ≤ 0x7f := by
    have := c.toNat_val
    omega
  rw [String.utf8EncodeChar, if_pos small]
  rfl

/-- The bytes of a character beyond ASCII are beyond ASCII. -/
lemma le_of_mem_utf8EncodeChar {c : Char} (h : 0x80 ≤ c.toNat) {b : UInt8}
    (hb : b ∈ String.utf8EncodeChar c) : 0x80 ≤ b := by
  have big : ¬ c.val.toNat ≤ 0x7f := by
    have := c.toNat_val
    omega
  have bound := c.val.toNat_lt
  rw [String.utf8EncodeChar, if_neg big] at hb
  rw [UInt8.le_iff_toNat_le]
  split at hb
  · simp only [List.mem_cons, List.not_mem_nil, or_false] at hb
    rcases hb with rfl | rfl <;> simp <;> omega
  · split at hb
    · simp only [List.mem_cons, List.not_mem_nil, or_false] at hb
      rcases hb with rfl | rfl | rfl <;> simp <;> omega
    · simp only [List.mem_cons, List.not_mem_nil, or_false] at hb
      rcases hb with rfl | rfl | rfl | rfl <;> simp <;> omega

/-- The number of the byte of an ASCII character. -/
lemma toNat_ascii {c : Char} (h : c.toNat < 0x80) : (ascii c).toNat = c.toNat := by
  have := c.toNat_val
  simp only [ascii, Char.toUInt8, UInt32.toNat_toUInt8]
  omega

/-- Characters of ASCII differ in their bytes. -/
lemma ascii_inj {c d : Char} (hc : c.toNat < 0x80) (hd : d.toNat < 0x80) :
    ascii c = ascii d ↔ c = d := by
  constructor
  · intro h
    have same : c.toNat = d.toNat := by rw [← toNat_ascii hc, ← toNat_ascii hd, h]
    exact Char.toNat_inj.1 same
  · intro h
    rw [h]

/-- A byte of a character is that of an ASCII character only if the two are the same. -/
lemma eq_of_ascii_mem_utf8EncodeChar {c q : Char} (hq : q.toNat < 0x80)
    (h : ascii q ∈ String.utf8EncodeChar c) : c = q := by
  by_cases hc : c.toNat < 0x80
  · rw [utf8EncodeChar_of_lt hc, List.mem_singleton, eq_comm, ascii_inj hc hq] at h
    exact h
  · have big := le_of_mem_utf8EncodeChar (by omega) h
    rw [UInt8.le_iff_toNat_le, toNat_ascii hq] at big
    simp at big
    omega

lemma count_feed_utf8EncodeChar (c : Char) :
    (String.utf8EncodeChar c).count (ascii '\n') = [c].count '\n' := by
  by_cases feed : c = '\n'
  · subst feed
    rfl
  · rw [List.count_singleton, if_neg (by simpa using feed), List.count_eq_zero]
    exact fun inside => feed (eq_of_ascii_mem_utf8EncodeChar (by decide) inside)

lemma count_feed_encode (cs : List Char) : (encode cs).count (ascii '\n') = cs.count '\n' := by
  induction cs with
  | nil => rfl
  | cons c cs ih =>
    rw [encode_cons, List.count_append, ih, count_feed_utf8EncodeChar, ← List.count_append]
    rfl

/-- The characters of bytes in UTF-8 are encoded to the bytes. -/
lemma encode_of_decode? {src : List UInt8} {cs : List Char} (h : decode? src = some cs) :
    encode cs = src := by
  obtain ⟨chars, decoded, rfl⟩ := Option.map_eq_some_iff.1 h
  have valid : (ByteArray.mk src.toArray).utf8Decode?.isSome = true := by rw [decoded]; rfl
  have same := ByteArray.utf8Encode_get_utf8Decode? (h := valid)
  simp only [decoded, Option.get_some] at same
  have bytes := congrArg (fun b => b.data.toList) same
  simpa [encode, List.utf8Encode] using bytes

/-- Bytes in UTF-8 are those of a text. -/
lemma exists_eq_bytes {bs : List UInt8} (encoded : (decode? bs).isSome = true) : ∃ s, bs = bytes s := by
  obtain ⟨cs, valid⟩ := Option.isSome_iff_exists.1 encoded
  exact ⟨String.ofList cs, by rw [bytes_ofList, encode_of_decode? valid]⟩

/-! ### Doubled bytes -/

/-- Every byte of the given kind is written twice. -/
def doubleByte (quote : UInt8) (bs : List UInt8) : List UInt8 :=
  bs.flatMap fun b => if b == quote then [b, b] else [b]

/-- A byte string without the quote stays as it is. -/
lemma doubleByte_of_not_mem {quote : UInt8} {bs : List UInt8} (h : quote ∉ bs) :
    doubleByte quote bs = bs := by
  induction bs with
  | nil => rfl
  | cons b bs ih =>
    rw [List.mem_cons, not_or] at h
    rw [doubleByte, List.flatMap_cons, if_neg (by simpa using Ne.symm h.1)]
    exact congrArg (b :: ·) (ih h.2)

/-- Doubling a character of ASCII doubles its byte. -/
lemma encode_doubleChar {quote : Char} (hq : quote.toNat < 0x80) (cs : List Char) :
    encode (doubleChar quote cs) = doubleByte (ascii quote) (encode cs) := by
  induction cs with
  | nil => rfl
  | cons c cs ih =>
    have split : doubleByte (ascii quote) (encode (c :: cs)) =
        doubleByte (ascii quote) (String.utf8EncodeChar c) ++ doubleByte (ascii quote) (encode cs) := by
      rw [encode_cons, doubleByte, List.flatMap_append]
      rfl
    rw [split, ← ih, doubleChar, List.flatMap_cons, encode_append]
    congr 1
    by_cases h : c = quote
    · rw [if_pos (by simpa using h), h, encode_cons, encode_cons, utf8EncodeChar_of_lt hq]
      simp [doubleByte, encode]
    · rw [if_neg (by simpa using h), doubleByte_of_not_mem]
      · simp [encode]
      · exact fun mem => h (eq_of_ascii_mem_utf8EncodeChar hq mem)

/-- Halving pairs undoes doubling, for characters and for bytes. -/
lemma collapsePairs_flatMap {α : Type} [BEq α] [LawfulBEq α] (quote : α) (xs : List α) :
    collapsePairs quote (xs.flatMap fun x => if x == quote then [x, x] else [x]) = xs := by
  induction xs with
  | nil => rfl
  | cons x xs ih =>
    rw [List.flatMap_cons]
    by_cases h : x = quote
    · rw [if_pos (by simpa using h), h, List.cons_append, List.singleton_append, collapsePairs,
        if_pos (by simp)]
      exact congrArg (quote :: ·) ih
    · rw [if_neg (by simpa using h), List.singleton_append]
      generalize xs.flatMap (fun x => if x == quote then [x, x] else [x]) = rest at ih ⊢
      cases rest with
      | nil =>
        rw [← ih]
        rfl
      | cons d ds => rw [collapsePairs, if_neg (by simp [h]), ih]

lemma collapsePairs_doubleByte (quote : UInt8) (bs : List UInt8) :
    collapsePairs quote (doubleByte quote bs) = bs :=
  collapsePairs_flatMap quote bs

lemma collapsePairs_doubleChar (quote : Char) (cs : List Char) :
    collapsePairs quote (doubleChar quote cs) = cs :=
  collapsePairs_flatMap quote cs

/-- The bytes of a standard literal. -/
lemma bytes_standardLiteral (s : String) : bytes (Sql.standardLiteral s) =
    ascii '\'' :: doubleByte (ascii '\'') (bytes s) ++ [ascii '\''] := by
  rw [Sql.standardLiteral, bytes_append, bytes_append, bytes_ofList (doubleChar _ _),
    encode_doubleChar (by decide)]
  rfl

/-- The bytes of an escape literal. -/
lemma bytes_escapeLiteral (s : String) : bytes (Sql.escapeLiteral s) = ascii 'E' :: ascii '\'' ::
    doubleByte (ascii '\\') (doubleByte (ascii '\'') (bytes s)) ++ [ascii '\''] := by
  rw [Sql.escapeLiteral, bytes_append, bytes_append, bytes_ofList (doubleChar _ _),
    encode_doubleChar (by decide), encode_doubleChar (by decide)]
  rfl

end Text

/-- A literal without its quotes is what was put in quotes. -/
lemma Token.unquoteChars_enclosed {q : Char} (quote : q = '\'' ∨ q = '"') (cs : List Char) :
    unquoteChars (q :: (Text.doubleChar q cs ++ [q])) = cs := by
  have isQuote : (q == '\'' || q == '"') = true := by
    rcases quote with rfl | rfl <;> decide
  obtain ⟨d, rest, e⟩ : ∃ d rest, Text.doubleChar q cs ++ [q] = d :: rest :=
    List.exists_cons_of_ne_nil (by simp)
  rw [e, unquoteChars, ← e, isQuote, List.getLast?_concat, if_pos (by simp), List.dropLast_concat,
    Text.collapsePairs_doubleChar]

namespace Script

open Text (ascii doubleByte)

/-! ### Runs between quotes -/

/-- A run in which quotes stand in pairs and, where there are escapes, a backslash takes the next byte
with it. -/
inductive Enclosed (quote : UInt8) (escapes : Bool) : List UInt8 → Prop
  | nil : Enclosed quote escapes []
  | plain {b : UInt8} {bs : List UInt8} (other : b ≠ quote)
      (unescaped : escapes = true → b ≠ ascii '\\') (rest : Enclosed quote escapes bs) :
      Enclosed quote escapes (b :: bs)
  | pair {bs : List UInt8} (rest : Enclosed quote escapes bs) :
      Enclosed quote escapes (quote :: quote :: bs)
  | escaped {b : UInt8} {bs : List UInt8} (allowed : escapes = true) (rest : Enclosed quote escapes bs) :
      Enclosed quote escapes (ascii '\\' :: b :: bs)

/-- A doubled text is a run without escapes. -/
lemma enclosed_doubleByte (quote : UInt8) (bs : List UInt8) :
    Enclosed quote false (doubleByte quote bs) := by
  induction bs with
  | nil => exact .nil
  | cons b bs ih =>
    rw [doubleByte, List.flatMap_cons]
    by_cases h : b = quote
    · rw [if_pos (by simpa using h), h]
      exact .pair ih
    · rw [if_neg (by simpa using h)]
      exact .plain h nofun ih

/-- A text with quotes and backslashes doubled is a run, with escapes and without. -/
lemma enclosed_doubleByte_backslash {quote : UInt8} (hq : quote ≠ ascii '\\') (escapes : Bool)
    (bs : List UInt8) :
    Enclosed quote escapes (doubleByte (ascii '\\') (doubleByte quote bs)) := by
  induction bs with
  | nil => exact .nil
  | cons b bs ih =>
    have step : doubleByte (ascii '\\') (doubleByte quote (b :: bs)) =
        doubleByte (ascii '\\') (if b == quote then [b, b] else [b]) ++
          doubleByte (ascii '\\') (doubleByte quote bs) := by
      rw [doubleByte, doubleByte, List.flatMap_cons, List.flatMap_append]
      rfl
    rw [step]
    by_cases h : b = quote
    · have twice : doubleByte (ascii '\\') [quote, quote] = [quote, quote] :=
        Text.doubleByte_of_not_mem (by simpa using Ne.symm hq)
      rw [if_pos (by simpa using h), h, twice]
      exact .pair ih
    · rw [if_neg (by simpa using h)]
      by_cases hb : b = ascii '\\'
      · rw [hb]
        cases escapes with
        | true => exact .escaped rfl ih
        | false => exact .plain (Ne.symm hq) nofun (.plain (Ne.symm hq) nofun ih)
      · rw [Text.doubleByte_of_not_mem (by simpa using Ne.symm hb)]
        exact .plain h (fun _ => hb) ih

/-- A run ends at the quote behind it, unless another quote follows. -/
lemma quotedLength_of_enclosed {quote : UInt8} {escapes : Bool} (hq : quote ≠ ascii '\\')
    {bs next : List UInt8} (h : Enclosed quote escapes bs) (hn : next.head? ≠ some quote) :
    quotedLength quote escapes (bs ++ quote :: next) = bs.length + 1 := by
  induction h with
  | nil =>
    cases next with
    | nil => rfl
    | cons d ds =>
      rw [List.nil_append, quotedLength, if_neg (by simp [hq]), if_pos (by simp), if_neg]
      · rfl
      · simpa using hn
  | @plain b bs other unescaped rest ih =>
    obtain ⟨d, ds, tail⟩ : ∃ d ds, bs ++ quote :: next = d :: ds :=
      List.exists_cons_of_ne_nil (by simp)
    rw [List.cons_append, tail, quotedLength, if_neg (by simpa using unescaped),
      if_neg (by simpa using other), ← tail, ih, List.length_cons]
    omega
  | pair rest ih =>
    rw [List.cons_append, List.cons_append, quotedLength, if_neg (by simp [hq]), if_pos (by simp),
      if_pos (by simp), ih, List.length_cons, List.length_cons]
    omega
  | escaped allowed rest ih =>
    rw [List.cons_append, List.cons_append, quotedLength, if_pos (by simp [allowed]), ih,
      List.length_cons, List.length_cons]
    omega

namespace Word

/-- A literal ends at the quote behind it, unless another quote follows. -/
lemma literalLength?_of_enclosed {quote : UInt8} {bs next : List UInt8}
    (h : Enclosed quote false bs) (hn : next.head? ≠ some quote) :
    literalLength? quote (bs ++ quote :: next) = some (bs.length + 1) := by
  induction h with
  | nil =>
    cases next with
    | nil => simp [literalLength?]
    | cons d ds =>
      rw [List.nil_append, literalLength?, if_neg (by simp), if_pos]
      · rfl
      · simpa using hn
  | @plain b bs other unescaped rest ih =>
    obtain ⟨d, ds, tail⟩ : ∃ d ds, bs ++ quote :: next = d :: ds :=
      List.exists_cons_of_ne_nil (by simp)
    rw [List.cons_append, tail, literalLength?, if_pos (by simpa using other), ← tail, ih]
    rfl
  | pair rest ih =>
    rw [List.cons_append, List.cons_append, literalLength?, if_neg (by simp), if_neg (by simp), ih]
    rfl
  | escaped allowed => cases allowed

end Word

end Script

end ErdSql
