import ErdSql.Proofs.EnumNotations
import ErdSql.Proofs.StringLiterals

/-!
# Quoted texts

A text in quotes, in which each quote of this kind is doubled, is one token of a document, and the token
without its quotes is the text. The scanner pairs quotes with one character of lookahead and the reader of
literals halves them from left to right, so runs of quotes at the start, at the end and in between are where
the two could disagree.

* `Token.quote`: a text in quotes.
* `Token.unquote_quote`, `Token.quote_unquote`: putting in quotes and taking out of them undo each other.
* `Scan.ofBytes_quote`: what is scanned of a quoted text.
* `Scan.quoted_texts_survive`: quoted texts are the string tokens.
-/

namespace ErdSql

/-- A text in quotes: a quote of this kind within the text is doubled. -/
def Token.quote (q : Char) (s : String) : String :=
  String.ofList (q :: (Text.doubleChar q s.toList ++ [q]))

namespace Token

variable {q : Char} {s : String}

lemma toList_quote : (quote q s).toList = q :: (Text.doubleChar q s.toList ++ [q]) :=
  String.toList_ofList

lemma unquote_quote (h : q = '\'' ∨ q = '"') (s : String) : unquote (quote q s) = s := by
  rw [unquote, toList_quote, unquoteChars_enclosed h, String.ofList_toList]

/-- A string is the quoted text of its value, in the quotes that it starts with. -/
lemma quote_unquote (h : Scan.isString s = true) :
    ∃ q, (q = '\'' ∨ q = '"') ∧ s.toList.head? = some q ∧ quote q (unquote s) = s := by
  obtain ⟨q, body, isQuote, chars⟩ := Scan.body_of_isString h
  have quoted : s = quote q (String.ofList body) := by
    rw [← String.toList_inj, toList_quote, String.toList_ofList]
    exact chars
  refine ⟨q, isQuote, ?_, ?_⟩
  · rw [chars]
    rfl
  · conv_lhs => rw [quoted, unquote_quote isQuote]
    exact quoted.symm

end Token

namespace Position

/-- Behind a text on one line. -/
lemma advanceBy_of_feed_notMem {cs : List Char} (h : '\n' ∉ cs) (p : Position) :
    p.advanceBy cs = ⟨p.offset + Text.byteSize cs, p.line, p.column + cs.length⟩ := by
  induction cs generalizing p with
  | nil => rfl
  | cons c cs ih =>
    rw [List.mem_cons, not_or] at h
    show (p.advance c).advanceBy cs = _
    rw [ih h.2, line_advance (Ne.symm h.1), column_advance (Ne.symm h.1), Document.byteSize_cons,
      List.length_cons]
    have offset : (p.advance c).offset = p.offset + c.utf8Size := by
      unfold advance
      split
      · rfl
      · rfl
    rw [offset, mk.injEq]
    omega

end Position

namespace Scan

variable {q : Char} {s : String}

/-- A quoted text on one line is a string. -/
lemma isString_quote (h : q = '\'' ∨ q = '"') (line : '\n' ∉ s.toList) :
    isString (Token.quote q s) = true := by
  have formed : (Document.Label.quoted q s).WellFormed := ⟨h, line⟩
  exact Document.isString_text formed

lemma feed_notMem_quote (h : q = '\'' ∨ q = '"') (line : '\n' ∉ s.toList) :
    '\n' ∉ (Token.quote q s).toList := by
  have apart : q ≠ '\n' := by
    rcases h with rfl | rfl <;> decide
  intro feed
  rw [Token.toList_quote, List.mem_cons, List.mem_append, List.mem_singleton] at feed
  rcases feed with feed | feed | feed
  · exact apart feed.symm
  · obtain ⟨c, hc, feed⟩ := List.mem_flatMap.1 feed
    split at feed
    · rcases List.mem_cons.1 feed with rfl | feed
      · exact line hc
      · exact line (List.mem_singleton.1 feed ▸ hc)
    · exact line (List.mem_singleton.1 feed ▸ hc)
  · exact apart feed.symm

/-- A quoted text on one line is scanned as one token, from its first byte to its last. -/
lemma ofBytes_quote (h : q = '\'' ∨ q = '"') (line : '\n' ∉ s.toList) :
    let text := Token.quote q s
    let size := (Text.bytes text).length
    ofBytes (Text.bytes text) =
      ⟨[⟨.string, text, 1, 1, 0, size, 1⟩, ⟨.eof, "", 1, text.length + 1, size, size, 1⟩], []⟩ := by
  intro text size
  have step := step_string (isString_quote h line) Token.toList_quote (show ends [] = true from rfl) false
  have place : Position.start.advanceBy (Token.quote q s).toList = ⟨size, 1, text.length + 1⟩ := by
    rw [Position.advanceBy_of_feed_notMem (feed_notMem_quote h line), ← length_encode, String.length_toList]
    simp only [Position.start, Nat.zero_add, Nat.add_comm 1]
    rfl
  have scanned := scanFrom_token step .start
  rw [List.append_nil, ← Token.toList_quote, place, scanFrom] at scanned
  rw [ofBytes_bytes, ofChars, scanned]
  simp only [tokensAt, tokenAt, place, prepend, String.ofList_toList]
  rfl

/-- **Quoted texts are the string tokens.** A text on one line, put in quotes with its quotes of this kind
doubled, is scanned without a fault: one string token from the first byte to the last, and the end; the
value of the token is the text. And every string token of a document is its value in the quotes that it
starts with. -/
theorem quoted_texts_survive :
    (∀ (q : Char) (s : String), q = '\'' ∨ q = '"' → '\n' ∉ s.toList →
      let text := Token.quote q s
      let size := (Text.bytes text).length
      ofBytes (Text.bytes text) =
          ⟨[⟨.string, text, 1, 1, 0, size, 1⟩, ⟨.eof, "", 1, text.length + 1, size, size, 1⟩], []⟩ ∧
        Token.unquote text = s) ∧
    ∀ (src : List UInt8) (t : Token), t ∈ (ofBytes src).tokens → t.kind = .string →
      ∃ q, (q = '\'' ∨ q = '"') ∧ t.text.toList.head? = some q ∧
        Token.quote q (Token.unquote t.text) = t.text := by
  constructor
  · intro q s quote line
    exact ⟨ofBytes_quote quote line, Token.unquote_quote quote s⟩
  · intro src t ht kind
    have text : t.text = t.spelling := by
      rw [Token.text, kind]
    rw [text]
    exact Token.quote_unquote (isString_of_mem_ofBytes ht kind)

/-- A text with quotes at its start, at its end and in a row, and a document with a string in double
quotes that has a single quote. -/
theorem quoted_texts_survive_of_runs :
    ofBytes (Text.bytes "'''a''''b'''") =
        ⟨[⟨.string, "'''a''''b'''", 1, 1, 0, 12, 1⟩, ⟨.eof, "", 1, 13, 12, 12, 1⟩], []⟩ ∧
      Token.unquote "'''a''''b'''" = "'a''b'" ∧
      ⟨.string, "\"it's\"", 1, 2, 1, 7, 1⟩ ∈ (ofBytes (Text.bytes ",\"it's\"")).tokens ∧
      Token.quote '"' (Token.unquote "\"it's\"") = "\"it's\"" := by
  have quoted : Token.quote '\'' "'a''b'" = "'''a''''b'''" := by decide
  have size : (Text.bytes "'''a''''b'''").length = 12 := by decide
  obtain ⟨scanned, value⟩ := quoted_texts_survive.1 '\'' "'a''b'" (by decide) (by decide)
  simp only [quoted, size] at scanned value
  have string : ⟨.string, "\"it's\"", 1, 2, 1, 7, 1⟩ ∈ (ofBytes (Text.bytes ",\"it's\"")).tokens := by
    rw [ofBytes_bytes]
    decide +kernel
  obtain ⟨q, -, first, back⟩ := quoted_texts_survive.2 _ _ string rfl
  obtain rfl : '"' = q := Option.some.inj first
  exact ⟨scanned, value, string, back⟩

end Scan

end ErdSql
