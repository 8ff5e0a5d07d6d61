import ErdSql.Ddl.NameTable
import ErdSql.Dialect
import ErdSql.Proofs.Heads
import ErdSql.Proofs.Lexemes
import ErdSql.Proofs.Normalization

/-!
# Names and clauses in SQL

The phrases that SQL statements are put together from: plain words, names with their quotes, literals,
and clauses, which reading an item of a list passes over.

* `Sql.phrase_name`: a name is a phrase, whatever its characters.
* `Sql.namePart?_partWord`: a part of a name is read back, unless it has a NUL character.
* `Sql.name_reads_back`: so is the whole name.
* `Sql.constraintWords_partWord`: a part is taken for a table constraint if it spells `EXCLUDE`, the
  one such word that is not reserved.
* `Clause`: what may stand behind a column name.
-/

namespace ErdSql

open Script
open Script.Head (keyword nameWords Inside Outside)
open Text (ascii)

/-! ### Plain words -/

namespace Text

/-- Letters and digits are characters of ASCII. -/
lemma toNat_lt_of_isAlphanum {c : Char} (h : c.isAlphanum = true) : c.toNat < 0x80 := by
  simp only [Char.isAlphanum, Char.isAlpha, Char.isUpper, Char.isLower, Char.isDigit, Bool.or_eq_true,
    Bool.and_eq_true, decide_eq_true_eq, UInt32.le_iff_toNat_le] at h
  have := c.toNat_val
  simp at h
  omega

end Text

namespace Sql

lemma toNat_lt_of_isPlainPart {c : Char} (h : isPlainPart c = true) : c.toNat < 0x80 := by
  rw [isPlainPart, Bool.or_eq_true, beq_iff_eq] at h
  rcases h with h | rfl
  · exact Text.toNat_lt_of_isAlphanum h
  · decide

lemma isPlainPart_of_isPlainStart {c : Char} (h : isPlainStart c = true) : isPlainPart c = true := by
  rw [isPlainStart, Bool.or_eq_true] at h
  rcases h with h | h
  · simp [isPlainPart, Char.isAlphanum, h]
  · simp [isPlainPart, h]

/-- A plain word is one letter or underscore and more letters, digits and underscores. -/
lemma isPlainWord_iff {s : String} : isPlainWord s = true ↔
    ∃ c cs, s.toList = c :: cs ∧ isPlainStart c = true ∧ ∀ d ∈ cs, isPlainPart d = true := by
  unfold isPlainWord
  split
  · next h => simp [h]
  · next c cs h => simp [h]

lemma isPlainPart_of_mem {s : String} (h : isPlainWord s = true) {c : Char} (hc : c ∈ s.toList) :
    isPlainPart c = true := by
  obtain ⟨d, ds, e, start, part⟩ := isPlainWord_iff.1 h
  rw [e] at hc
  rcases List.mem_cons.1 hc with rfl | hc
  · exact isPlainPart_of_isPlainStart start
  · exact part c hc

/-- The encoding of characters of ASCII goes character by character. -/
lemma encode_of_isPlainPart {cs : List Char} (h : ∀ c ∈ cs, isPlainPart c = true) :
    Text.encode cs = cs.map ascii := by
  induction cs with
  | nil => rfl
  | cons c cs ih =>
    have small := toNat_lt_of_isPlainPart (h c List.mem_cons_self)
    rw [Text.encode_cons, Text.utf8EncodeChar_of_lt small, ih fun d hd => h d (List.mem_cons_of_mem c hd)]
    rfl

/-- A plain word is a word of a script. -/
lemma atom_of_isPlainWord {s : String} (h : isPlainWord s = true) :
    Atom (Text.bytes s) (keyword s) := by
  obtain ⟨c, cs, e, start, part⟩ := isPlainWord_iff.1 h
  have startTable : ∀ c : Char, c.toNat < 0x80 → isPlainStart c = true →
      Word.isNameStart (ascii c) = true := Text.forall_ascii (by decide)
  have partTable : ∀ c : Char, c.toNat < 0x80 → isPlainPart c = true → isWordByte (ascii c) = true :=
    Text.forall_ascii (by decide)
  have bytes : Text.bytes s = ascii c :: cs.map ascii := by
    rw [Text.bytes, encode_of_isPlainPart fun d hd => isPlainPart_of_mem h hd, e]
    rfl
  rw [keyword, bytes]
  refine Atom.name ?_ fun b hb => ?_
  · exact startTable c (toNat_lt_of_isPlainPart (isPlainPart_of_isPlainStart start)) start
  · obtain ⟨d, hd, rfl⟩ := List.mem_map.1 hb
    exact partTable d (toNat_lt_of_isPlainPart (part d hd)) (part d hd)

/-- A plain word spells an upper-case word if that is its upper-case form. -/
lemma spells_keyword {s word : String} (h : isPlainWord s = true)
    (upper : word.toList.all Char.isUpper = true) :
    (keyword s).spells word = true ↔ Text.upper s = word := by
  rw [List.all_eq_true] at upper
  -- character by character: the bytes agree up to case if the upper-case forms agree
  have lowered : ∀ c : Char, c.toNat < 0x80 → Word.lowerByte (ascii c) = ascii c.toLower ∧
      c.toLower.toNat < 0x80 := Text.forall_ascii (by decide)
  have forms : ∀ c : Char, c.toNat < 0x80 → c.toUpper.toLower = c.toLower ∧
      c.toLower.toUpper = c.toUpper := Text.forall_ascii (by decide)
  have fixed : ∀ c : Char, c.toNat < 0x80 → c.isUpper = true → c.toUpper = c :=
    Text.forall_ascii (by decide)
  have letter {c : Char} (hc : c.isUpper = true) : isPlainPart c = true := by
    simp [isPlainPart, Char.isAlphanum, Char.isAlpha, hc]
  have char {c d : Char} (hc : isPlainPart c = true) (hd : d.isUpper = true) :
      Word.lowerByte (ascii c) = Word.lowerByte (ascii d) ↔ Text.upperChar c = d := by
    have small := toNat_lt_of_isPlainPart hc
    have small' := toNat_lt_of_isPlainPart (letter hd)
    have upperForm : Text.upperChar c = c.toUpper := if_pos small
    rw [(lowered c small).1, (lowered d small').1,
      Text.ascii_inj (lowered c small).2 (lowered d small').2, upperForm]
    constructor
    · intro same
      rw [← (forms c small).2, same, (forms d small').2, fixed d small' hd]
    · rintro rfl
      exact (forms c small).1.symm
  have list : ∀ cs ds : List Char, (∀ c ∈ cs, isPlainPart c = true) → (∀ d ∈ ds, d.isUpper = true) →
      ((cs.map ascii).map Word.lowerByte = (ds.map ascii).map Word.lowerByte ↔
        cs.map Text.upperChar = ds) := by
    intro cs ds plain upper
    induction cs generalizing ds with
    | nil => cases ds <;> simp
    | cons c cs ih =>
      cases ds with
      | nil => simp
      | cons d ds =>
        have first := char (plain c List.mem_cons_self) (upper d List.mem_cons_self)
        have rest := ih ds (fun x hx => plain x (List.mem_cons_of_mem c hx))
          (fun x hx => upper x (List.mem_cons_of_mem d hx))
        simp only [List.map_cons, List.cons.injEq, first, rest]
  have plain : ∀ c ∈ s.toList, isPlainPart c = true := fun c hc => isPlainPart_of_mem h hc
  have same := list s.toList word.toList plain upper
  have bytes : Text.bytes s = s.toList.map ascii := encode_of_isPlainPart plain
  have bytes' : Text.bytes word = word.toList.map ascii :=
    encode_of_isPlainPart fun c hc => letter (upper c hc)
  have equal : Text.upper s = word ↔ s.toList.map Text.upperChar = word.toList := by
    rw [Text.upper, ← String.toList_inj, String.toList_ofList]
  rw [equal, ← same, ← bytes, ← bytes', Word.spells, keyword]
  simp only [Bool.or_eq_true, beq_iff_eq, Bool.and_eq_true, beq_self_eq_true, true_and]
  constructor
  · rintro (e | e)
    · rw [e]
    · exact e
  · exact .inr

/-! ### Names -/

/-- The word of a part of a name. -/
def partWord (s : String) : Word :=
  if isPlainName s then keyword s else ⟨.quotedName, Text.bytes (quotePart s)⟩

/-- A part in quotes, byte by byte. -/
lemma bytes_quotePart (s : String) : Text.bytes (quotePart s) =
    ascii '"' :: Text.doubleByte (ascii '"') (Text.encode (s.toList.filter (· != '\x00'))) ++
      [ascii '"'] := by
  rw [quotePart, Text.bytes_append, Text.bytes_append, Text.bytes_ofList (Text.doubleChar _ _),
    Text.encode_doubleChar (by decide)]
  rfl

/-- A part of a name is one word. -/
lemma atom_namePart (s : String) : Atom (Text.bytes (namePart s)) (partWord s) := by
  unfold namePart partWord
  split
  · next plain =>
    rw [isPlainName, Bool.and_eq_true] at plain
    exact atom_of_isPlainWord plain.1
  · rw [bytes_quotePart]
    exact .quotedName _

lemma kind_partWord (s : String) : (partWord s).kind ≠ .number := by
  unfold partWord
  split <;> nofun

/-- A part of a name is read back without its quotes. -/
lemma namePart?_partWord {s : String} (h : '\x00' ∉ s.toList) :
    Head.namePart? (partWord s) = some (Text.bytes s) := by
  unfold partWord
  split
  · rfl
  · have kept : s.toList.filter (· != '\x00') = s.toList := by
      rw [List.filter_eq_self]
      intro c hc
      have : c ≠ '\x00' := fun e => h (e ▸ hc)
      simp [this]
    rw [Head.namePart?, bytes_quotePart, kept]
    simp only [List.cons_append, List.drop_succ_cons, List.drop_zero, List.dropLast_concat,
      Text.collapsePairs_doubleByte]
    rfl

/-- A part of a name opens a table constraint if it spells the one word for it that is not
reserved. -/
lemma constraintWords_partWord (s : String) :
    Head.constraintWords.any (partWord s).spells = (isPlainWord s && Text.upper s == "EXCLUDE") := by
  unfold partWord
  split
  · next plain =>
    rw [isPlainName, Bool.and_eq_true, Bool.not_eq_true'] at plain
    obtain ⟨plain, free⟩ := plain
    have reserved : ∀ word ∈ Head.constraintWords,
        word = "EXCLUDE" ∨ reservedWords.contains word = true := by decide
    have upper : ∀ word ∈ Head.constraintWords, word.toList.all Char.isUpper = true := by decide
    rw [Bool.eq_iff_iff, List.any_eq_true, plain, Bool.true_and, beq_iff_eq]
    constructor
    · rintro ⟨word, mem, spelt⟩
      rw [spells_keyword plain (upper word mem)] at spelt
      rcases reserved word mem with rfl | taken
      · exact spelt
      · rw [← spelt, free] at taken
        cases taken
    · intro e
      have mem : "EXCLUDE" ∈ Head.constraintWords := by decide
      exact ⟨"EXCLUDE", mem, (spells_keyword plain (upper _ mem)).2 e⟩
  · next quoted =>
    have quote : ∀ word ∈ Head.constraintWords, (Text.bytes word).head? ≠ some (ascii '"') := by
      decide
    have left : Head.constraintWords.any
        (Word.spells · ⟨.quotedName, Text.bytes (quotePart s)⟩) = false := by
      rw [List.any_eq_false]
      intro word mem spelt
      rw [Word.spells] at spelt
      have same : Text.bytes (quotePart s) = Text.bytes word := by simpa using spelt
      rw [bytes_quotePart] at same
      exact quote word mem (by rw [← same]; rfl)
    have right : (isPlainWord s && Text.upper s == "EXCLUDE") = false := by
      rw [Bool.and_eq_false_iff, ← Bool.not_eq_true, ← Bool.not_eq_true, ← not_and_or]
      rintro ⟨plain, e⟩
      rw [beq_iff_eq] at e
      have free : reservedWords.contains "EXCLUDE" = false := by decide
      exact quoted (by rw [isPlainName, plain, e, free]; rfl)
    rw [right]
    exact left

/-- Parts with dots between them are a phrase. -/
lemma phrase_dots {parts : List String} (ne : parts ≠ []) :
    Phrase (Text.bytes (Text.join "." (parts.map namePart))) (nameWords (parts.map partWord)) := by
  induction parts with
  | nil => exact absurd rfl ne
  | cons part parts ih =>
    cases parts with
    | nil => exact .atom (atom_namePart part)
    | cons next parts =>
      have rest := Phrase.dotted (atom_namePart part) (kind_partWord part) (ih (by simp))
      have bytes : Text.bytes (Text.join "." ((part :: next :: parts).map namePart)) =
          Text.bytes (namePart part) ++
            ascii '.' :: Text.bytes (Text.join "." ((next :: parts).map namePart)) := by
        simp only [List.map_cons, Text.join, Text.bytes_append, List.append_assoc]
        rfl
      rw [bytes]
      exact rest

/-- The parts of a name. -/
def parts (s : String) : List String := Text.splitAt '.' s

lemma parts_ne_nil (s : String) : parts s ≠ [] := by
  rw [parts, Text.splitAt, Ne, List.map_eq_nil_iff]
  exact Ddl.splitList_ne_nil _ _

/-- A name is a phrase. -/
lemma phrase_name (s : String) :
    Phrase (Text.bytes (name s)) (nameWords ((parts s).map partWord)) :=
  phrase_dots (parts_ne_nil s)

/-- The pieces of a list hold its elements. -/
lemma mem_of_mem_splitList {α : Type} [BEq α] {separator : α} {xs piece : List α}
    (h : piece ∈ Text.splitList separator xs) {x : α} (hx : x ∈ piece) : x ∈ xs := by
  induction xs generalizing piece with
  | nil =>
    rw [Text.splitList, List.mem_singleton] at h
    rw [h] at hx
    cases hx
  | cons y ys ih =>
    rw [Text.splitList] at h
    split at h
    · rcases List.mem_cons.1 h with rfl | h
      · cases hx
      · exact List.mem_cons_of_mem y (ih h hx)
    · split at h
      · rw [List.mem_singleton.1 h] at hx
        exact List.mem_cons.2 (.inl (List.mem_singleton.1 hx))
      · next first pieces e =>
        rcases List.mem_cons.1 h with rfl | h
        · rcases List.mem_cons.1 hx with rfl | hx
          · exact List.mem_cons_self
          · exact List.mem_cons_of_mem y (ih (by rw [e]; exact List.mem_cons_self) hx)
        · exact List.mem_cons_of_mem y (ih (by rw [e]; exact List.mem_cons_of_mem first h) hx)

/-- A name that is read back part by part is the whole name. -/
lemma text_parts (s : String) : Name.text ((parts s).map Text.bytes) = Text.bytes s := by
  have pieces : ∀ cs : List Char,
      Name.text ((Text.splitList '.' cs).map Text.encode) = Text.encode cs := by
    intro cs
    induction cs with
    | nil => rfl
    | cons c cs ih =>
      rw [Text.splitList]
      split
      · next dot =>
        rw [beq_iff_eq] at dot
        rw [dot, Text.encode_cons]
        cases e : Text.splitList '.' cs with
        | nil => exact absurd e (Ddl.splitList_ne_nil _ _)
        | cons piece more =>
          rw [e] at ih
          rw [← ih]
          rfl
      · cases e : Text.splitList '.' cs with
        | nil => exact absurd e (Ddl.splitList_ne_nil _ _)
        | cons piece more =>
          rw [e] at ih
          rw [Text.encode_cons, ← ih]
          -- the character goes in front of the first piece
          cases more with
          | nil => rfl
          | cons next more =>
            simp only [List.map_cons, Name.text, Text.encode_cons, List.append_assoc]
  have bytes : (parts s).map Text.bytes = (Text.splitList '.' s.toList).map Text.encode := by
    rw [parts, Text.splitAt, List.map_map]
    exact List.map_congr_left fun cs _ => Text.bytes_ofList cs
  rw [bytes, pieces]
  rfl

/-- The words of a name are read back as its parts. -/
lemma namePart?_parts {s : String} (h : '\x00' ∉ s.toList) :
    List.Forall₂ (fun w part => Head.namePart? w = some part) ((parts s).map partWord)
      ((parts s).map Text.bytes) := by
  rw [List.forall₂_map_left_iff, List.forall₂_map_right_iff, List.forall₂_same]
  intro part hp
  apply namePart?_partWord
  intro mem
  obtain ⟨piece, hpiece, rfl⟩ := List.mem_map.1 hp
  rw [String.toList_ofList] at mem
  exact h (mem_of_mem_splitList hpiece mem)

/-- A name without NUL characters is read back as a whole, with nothing left, and its parts make up the
same name. So no two of them are written alike. -/
theorem name_reads_back {s : String} (h : '\x00' ∉ s.toList) :
    (∃ ws parts, Word.words? (Text.bytes (name s)) = some ws ∧ Head.name? ws = some (parts, []) ∧
      Name.text parts = Text.bytes s) ∧
    ∀ t : String, '\x00' ∉ t.toList → name t = name s → t = s := by
  have read {u : String} (free : '\x00' ∉ u.toList) :
      (Word.words? (Text.bytes (name u))).bind Head.name? = some ((parts u).map Text.bytes, []) := by
    have ne : (parts u).map partWord ≠ [] := List.map_eq_nil_iff.not.2 (parts_ne_nil u)
    rw [(phrase_name u).words?_eq, Option.bind_some, ← List.append_nil (nameWords _),
      @Head.name?_append _ _ (namePart?_parts free) ne [] nofun]
  constructor
  · obtain ⟨ws, words, named⟩ := Option.bind_eq_some_iff.1 (read h)
    exact ⟨ws, _, words, named, text_parts s⟩
  · intro t free same
    have again := read free
    rw [same, read h, Option.some_inj, Prod.mk.injEq] at again
    have texts := congrArg Name.text again.1
    rw [text_parts, text_parts] at texts
    exact (Text.bytes_inj.1 texts).symm

/-- A name with a quote, an empty part and a reserved word is written in quotes and read back. -/
theorem name_reads_back_of_quotes : '\x00' ∉ "a.b\"c..select".toList ∧
    name "a.b\"c..select" = "a.\"b\"\"c\".\"\".\"select\"" ∧
    ∃ ws parts, Word.words? (Text.bytes "a.\"b\"\"c\".\"\".\"select\"") = some ws ∧
      Head.name? ws = some (parts, []) ∧ Name.text parts = Text.bytes "a.b\"c..select" := by
  have free : '\x00' ∉ "a.b\"c..select".toList := by decide
  have written : name "a.b\"c..select" = "a.\"b\"\"c\".\"\".\"select\"" := by decide +kernel
  exact ⟨free, written, written ▸ (name_reads_back free).1⟩

end Sql

/-! ### Clauses -/

/-- A text that reading an item of a list passes over. -/
def Clause (s : String) : Prop :=
  ∃ ws, Phrase (Text.bytes s) ws ∧ Outside ws

lemma clause_of_atom {s : String} {w : Word} (a : Atom (Text.bytes s) w) : Clause s :=
  ⟨[w], .atom a, Head.outside_plain (Head.plain_of_atom a).1 (Head.plain_of_atom a).2⟩

lemma clause_word {s : String} (h : Sql.isPlainWord s = true) : Clause s :=
  clause_of_atom (Sql.atom_of_isPlainWord h)

/-- The words of a name are passed over, with or without the first. -/
lemma outside_parts (parts : List String) :
    Outside ((parts.map Sql.partWord).flatMap fun v => [mark '.', v]) := by
  induction parts with
  | nil => exact Head.outside_nil
  | cons part parts ih =>
    have plain := Head.plain_of_atom (Sql.atom_namePart part)
    exact (Head.outside_plain (w := mark '.') (by decide) (by decide)).append
      ((Head.outside_plain plain.1 plain.2).append ih)

lemma clause_name (s : String) : Clause (Sql.name s) := by
  refine ⟨_, Sql.phrase_name s, ?_⟩
  cases e : Sql.parts s with
  | nil => exact absurd e (Sql.parts_ne_nil s)
  | cons part parts =>
    have plain := Head.plain_of_atom (Sql.atom_namePart part)
    exact (Head.outside_plain plain.1 plain.2).append (outside_parts parts)

/-- Two phrases with a space between them. -/
lemma phrase_spaced {s t : String} {ws vs : List Word} (h : Phrase (Text.bytes s) ws)
    (h' : Phrase (Text.bytes t) vs) : Phrase (Text.bytes (s ++ " " ++ t)) (ws ++ vs) := by
  have bytes : Text.bytes (s ++ " " ++ t) = Text.bytes s ++ ascii ' ' :: Text.bytes t := by
    rw [Text.bytes_append, Text.bytes_append, List.append_assoc]
    rfl
  rw [bytes]
  exact .spaced h h'

/-- Clauses with spaces between them. -/
lemma clause_join {ss : List String} (h : ∀ s ∈ ss, Clause s) (ne : ss ≠ []) :
    Clause (Text.join " " ss) := by
  induction ss with
  | nil => exact absurd rfl ne
  | cons s ss ih =>
    cases ss with
    | nil => exact h s List.mem_cons_self
    | cons t ss =>
      obtain ⟨ws, phrase, outside⟩ := h s List.mem_cons_self
      obtain ⟨vs, phrase', outside'⟩ := ih (fun t ht => h t (List.mem_cons_of_mem s ht)) (by simp)
      exact ⟨ws ++ vs, phrase_spaced phrase phrase', outside.append outside'⟩

/-- Plain words with spaces between them are a clause. -/
lemma clause_words (words : List String) {text : String} (e : text = Text.join " " words)
    (ne : words ≠ []) (plain : ∀ w ∈ words, Sql.isPlainWord w = true) : Clause text := by
  rw [e]
  exact clause_join (fun w hw => clause_word (plain w hw)) ne

/-- Phrases with commas between them. -/
lemma phrase_join {ss : List String} (h : ∀ s ∈ ss, ∃ ws, Phrase (Text.bytes s) ws) (ne : ss ≠ []) :
    ∃ ws, Phrase (Text.bytes (Text.join ", " ss)) ws := by
  induction ss with
  | nil => exact absurd rfl ne
  | cons s ss ih =>
    cases ss with
    | nil => exact h s List.mem_cons_self
    | cons t ss =>
      obtain ⟨ws, phrase⟩ := h s List.mem_cons_self
      obtain ⟨vs, phrase'⟩ := ih (fun t ht => h t (List.mem_cons_of_mem s ht)) (by simp)
      have bytes : Text.bytes (Text.join ", " (s :: t :: ss)) =
          Text.bytes s ++ ascii ',' :: ascii ' ' :: Text.bytes (Text.join ", " (t :: ss)) := by
        rw [Text.join, Text.bytes_append, Text.bytes_append, List.append_assoc]
        rfl
      rw [bytes]
      exact ⟨_, .listed phrase phrase'⟩

/-- A list in parentheses, which may be empty. -/
lemma clause_list {ss : List String} (h : ∀ s ∈ ss, ∃ ws, Phrase (Text.bytes s) ws) :
    Clause ("(" ++ Text.join ", " ss ++ ")") := by
  have bytes : Text.bytes ("(" ++ Text.join ", " ss ++ ")") =
      ascii '(' :: Text.bytes (Text.join ", " ss) ++ [ascii ')'] := by
    rw [Text.bytes_append, Text.bytes_append]
    rfl
  rw [Clause, bytes]
  by_cases ne : ss = []
  · rw [ne]
    exact ⟨_, .unit, @Head.outside_parens [] fun _ _ _ => rfl⟩
  · obtain ⟨ws, phrase⟩ := phrase_join h ne
    exact ⟨_, .parens phrase, Head.outside_parens (Head.inside_of_phrase phrase)⟩

lemma clause_nameList (names : List String) : Clause ("(" ++ Sql.nameList names ++ ")") := by
  refine clause_list fun s hs => ?_
  obtain ⟨n, -, rfl⟩ := List.mem_map.1 hs
  exact ⟨_, Sql.phrase_name n⟩

/-- A clause with a clause in parentheses directly behind it. -/
lemma Clause.behind {s t : String} (h : Clause s) (h' : Clause ("(" ++ t)) :
    Clause (s ++ "(" ++ t) := by
  obtain ⟨ws, phrase, outside⟩ := h
  obtain ⟨vs, phrase', outside'⟩ := h'
  have bytes : Text.bytes (s ++ "(" ++ t) = Text.bytes s ++ ascii '(' :: Text.bytes t := by
    rw [Text.bytes_append, Text.bytes_append, List.append_assoc]
    rfl
  rw [Clause, bytes]
  rw [Text.bytes_append] at phrase'
  exact ⟨_, .behind phrase phrase', outside.append outside'⟩

/-- A clause with empty square brackets behind it. -/
lemma Clause.brackets {s : String} (h : Clause s) : Clause (s ++ "[]") := by
  obtain ⟨ws, phrase, outside⟩ := h
  rw [Clause, Text.bytes_append]
  exact ⟨_, .brackets phrase, outside.append Head.outside_brackets⟩

/-! ### Literals -/

lemma clause_standardLiteral (s : String) : Clause (Sql.standardLiteral s) := by
  apply clause_of_atom
  rw [Text.bytes_standardLiteral]
  exact .string _

lemma clause_escapeLiteral (s : String) : Clause (Sql.escapeLiteral s) := by
  apply clause_of_atom
  rw [Text.bytes_escapeLiteral]
  exact .escape _

lemma clause_quoteString (d : Dialect) (s : String) : Clause (d.quoteString s) := by
  cases d with
  | postgresql =>
    change Clause (Sql.literal s)
    unfold Sql.literal
    split
    · exact clause_escapeLiteral s
    · exact clause_standardLiteral s
  | sqlite => exact clause_standardLiteral s

lemma clause_stringList (d : Dialect) (values : List String) :
    Clause ("(" ++ d.stringList values ++ ")") := by
  refine clause_list fun s hs => ?_
  obtain ⟨v, -, rfl⟩ := List.mem_map.1 hs
  obtain ⟨ws, phrase, -⟩ := clause_quoteString d v
  exact ⟨ws, phrase⟩

/-- A string in single quotes is a standard literal as it stands. -/
lemma exists_standardLiteral_of_isString {s : String} (h : Scan.isString s = true)
    (single : s.toList.head? ≠ some '"') : ∃ body, s = Sql.standardLiteral body := by
  obtain ⟨q, body, hq, e⟩ := Scan.body_of_isString h
  rw [e] at single
  rcases hq with rfl | rfl
  · refine ⟨String.ofList body, ?_⟩
    rw [← String.toList_inj, e, Sql.standardLiteral]
    simp
  · exact absurd rfl single

lemma clause_of_isString {s : String} (h : Scan.isString s = true)
    (single : s.toList.head? ≠ some '"') : Clause s := by
  obtain ⟨body, rfl⟩ := exists_standardLiteral_of_isString h single
  exact clause_standardLiteral body

/-- A number is a literal as it stands. -/
lemma clause_of_isNumber {s : String} (h : Scan.isNumber s = true) : Clause s := by
  have table : ∀ c : Char, c.toNat < 0x80 → c.isDigit = true → isDigitByte (ascii c) = true :=
    Text.forall_ascii (by decide)
  have plain {c : Char} (hc : c.isDigit = true) : Sql.isPlainPart c = true := by
    simp [Sql.isPlainPart, Char.isAlphanum, hc]
  have digit {c : Char} (hc : c.isDigit = true) : isDigitByte (ascii c) = true :=
    table c (Sql.toNat_lt_of_isPlainPart (plain hc)) hc
  have digits {cs : List Char} (hcs : ∀ c ∈ cs, c.isDigit = true) :
      Text.encode cs = cs.map ascii ∧ ∀ b ∈ cs.map ascii, isDigitByte b = true := by
    refine ⟨Sql.encode_of_isPlainPart fun c hc => plain (hcs c hc), fun b hb => ?_⟩
    obtain ⟨c, hc, rfl⟩ := List.mem_map.1 hb
    exact digit (hcs c hc)
  rcases Scan.digits_of_isNumber h with ⟨c, cs, e, all⟩ | ⟨c, cs, d, ds, e, front, back⟩
  · obtain ⟨bytes, part⟩ := digits all
    apply clause_of_atom
    rw [Text.bytes, e, bytes]
    exact .whole (digit (all c List.mem_cons_self)) fun b hb => part b (List.mem_cons_of_mem _ hb)
  · obtain ⟨bytes, part⟩ := digits front
    obtain ⟨bytes', part'⟩ := digits back
    apply clause_of_atom
    rw [Text.bytes, e, Text.encode_append, bytes, Text.encode_cons, bytes']
    exact .decimal (digit (front c List.mem_cons_self))
      (fun b hb => part b (List.mem_cons_of_mem _ hb)) (digit (back d List.mem_cons_self))
      fun b hb => part' b (List.mem_cons_of_mem _ hb)

/-! ### Derived names -/

namespace Ddl

/-- Adding a part keeps the characters of a name plain. -/
lemma isPlainPart_addPart {state : List Char × Bool} (h : ∀ c ∈ state.1, Sql.isPlainPart c = true)
    (part : List Char) : ∀ c ∈ (addPart state part).1, Sql.isPlainPart c = true := by
  rw [addPart]
  induction part generalizing state with
  | nil => exact h
  | cons d ds ih =>
    rw [List.foldl_cons]
    apply ih
    obtain ⟨out, after⟩ := state
    dsimp only
    split
    · next plain =>
      intro c hc
      rcases List.mem_append.1 hc with hc | hc
      · exact h c hc
      · rw [List.mem_singleton.1 hc, Sql.isPlainPart, Bool.or_eq_true]
        exact .inl plain
    · split
      · exact h
      · intro c hc
        rcases List.mem_append.1 hc with hc | hc
        · exact h c hc
        · rw [List.mem_singleton.1 hc]
          decide

lemma isPlainPart_joinParts (parts : List String) :
    ∀ c ∈ joinParts parts, Sql.isPlainPart c = true := by
  cases parts with
  | nil => exact nofun
  | cons first rest =>
    have start : ∀ c ∈ (addPart ([], false) first.toList).1, Sql.isPlainPart c = true :=
      isPlainPart_addPart (by simp) _
    have fold : ∀ state : List Char × Bool, (∀ c ∈ state.1, Sql.isPlainPart c = true) →
        ∀ c ∈ (rest.foldl (fun state part =>
          addPart (addUnderscore state.1 state.2, true) part.toList) state).1,
          Sql.isPlainPart c = true := by
      induction rest with
      | nil => exact fun _ h => h
      | cons part rest ih =>
        intro state h
        rw [List.foldl_cons]
        apply ih
        apply isPlainPart_addPart
        unfold addUnderscore
        split
        · exact h
        · intro c hc
          rcases List.mem_append.1 hc with hc | hc
          · exact h c hc
          · rw [List.mem_singleton.1 hc]
            decide
    exact fold _ start

/-- A derived name is a plain word. -/
lemma isPlainWord_derivedName (parts : List String) : Sql.isPlainWord (derivedName parts) = true := by
  unfold derivedName
  split
  · decide
  · next c cs e =>
    have all : ∀ d ∈ c :: cs, Sql.isPlainPart d = true := by
      intro d hd
      rw [← e] at hd
      have inner := Text.dropWhileEnd_subset _ _ hd
      exact isPlainPart_joinParts parts d ((List.dropWhile_sublist _).subset inner)
    split
    · have chars : ("n_" ++ String.ofList (c :: cs)).toList = 'n' :: '_' :: c :: cs := by
        simp
      refine Sql.isPlainWord_iff.2 ⟨_, _, chars, by decide, fun d hd => ?_⟩
      rcases List.mem_cons.1 hd with rfl | hd
      · decide
      · exact all d hd
    · next noDigit =>
      refine Sql.isPlainWord_iff.2 ⟨c, cs, String.toList_ofList, ?_,
        fun d hd => all d (List.mem_cons_of_mem c hd)⟩
      have plain := all c List.mem_cons_self
      rw [Sql.isPlainPart, Bool.or_eq_true, Char.isAlphanum, Bool.or_eq_true] at plain
      rw [Sql.isPlainStart, Bool.or_eq_true]
      rcases plain with (alpha | digit) | underscore
      · exact .inl alpha
      · exact absurd digit noDigit
      · exact .inr underscore

/-- A plain word with a number behind it is a plain word. -/
lemma isPlainWord_numbered {base : String} (h : Sql.isPlainWord base = true) (i : Nat) :
    Sql.isPlainWord (NameTable.numbered base i) = true := by
  obtain ⟨c, cs, e, start, part⟩ := Sql.isPlainWord_iff.1 h
  have chars : (NameTable.numbered base i).toList = c :: (cs ++ '_' :: (toString i).toList) := by
    rw [NameTable.numbered, String.toList_append, String.toList_append, e]
    simp
  refine Sql.isPlainWord_iff.2 ⟨c, _, chars, start, fun d hd => ?_⟩
  rcases List.mem_append.1 hd with hd | hd
  · exact part d hd
  rcases List.mem_cons.1 hd with rfl | hd
  · decide
  · have digit : d.isDigit = true := by
      rw [Nat.toString_eq_repr, Nat.toList_repr] at hd
      exact Nat.isDigit_of_mem_toDigits (by decide) (by decide) hd
    simp [Sql.isPlainPart, Char.isAlphanum, digit]

/-- A name that the table gives out is a plain word. -/
lemma isPlainWord_claimName (parts : List String) (names : NameTable) :
    Sql.isPlainWord ((claimName parts).run names).1 = true := by
  change Sql.isPlainWord (names.claim (derivedName parts)).1 = true
  unfold NameTable.claim
  split
  · exact isPlainWord_derivedName parts
  · exact isPlainWord_numbered (isPlainWord_derivedName parts) _

end Ddl

end ErdSql
