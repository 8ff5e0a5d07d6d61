import ErdSql.Proofs.Scanning

/-!
# Reading the tokens of a line

`Reads` says that a reader takes some tokens and leaves the rest, wherever it starts. The readers of
literals and lists are shown to take the tokens of every literal and list that can be written.

* `Document.exists_pieces`: what a literal is cut into, and that it is read back.
* `Document.reads_commaList`: items divided by commas are read one by one.
-/

namespace ErdSql.Document

open ErdSql.Document.Parser ErdSql.Scan

/-! ### Readers that succeed -/

/-- A reader takes the tokens of `input` up to `rest` and gives a value with a property. -/
def Reads {α : Type} (reader : Parser α) (input rest : List Token) (P : α → Prop) : Prop :=
  ∀ previous atEnd, ∃ a previous',
    reader ⟨previous, input, atEnd⟩ = .ok a ⟨previous', rest, atEnd⟩ ∧ P a

/-- A test fails at the front of some tokens, and at the end of a line. -/
def Fails (test : Token → Bool) (ts : List Token) : Prop :=
  (∀ t ∈ ts.head?, test t = false) ∧ ∀ t : Token, t.kind = .eof → test t = false

namespace Reads

variable {α β : Type} {P : α → Prop} {Q : β → Prop} {input middle rest : List Token} {t : Token}
  {test : Token → Bool}

lemma pure {a : α} (h : P a) : Reads (Pure.pure a) rest rest P :=
  fun previous _ => ⟨a, previous, rfl, h⟩

lemma bind {reader : Parser α} {next : α → Parser β} (first : Reads reader input middle P)
    (last : ∀ a, P a → Reads (next a) middle rest Q) : Reads (reader >>= next) input rest Q := by
  intro previous atEnd
  obtain ⟨a, previous', eq, ha⟩ := first previous atEnd
  obtain ⟨b, previous'', eq', hb⟩ := last a ha previous' atEnd
  refine ⟨b, previous'', ?_, hb⟩
  change Parser.bind reader next _ = _
  rw [Parser.bind, eq]
  exact eq'

/-- A reader whose value is known is followed by the next one. -/
lemma step {reader : Parser α} {next : α → Parser β} {a : α} (first : Reads reader input middle (· = a))
    (last : Reads (next a) middle rest Q) : Reads (reader >>= next) input rest Q :=
  first.bind fun _ e => e ▸ last

lemma mono {R : α → Prop} {reader : Parser α} (h : Reads reader input rest P) (imp : ∀ a, P a → R a) :
    Reads reader input rest R := by
  intro previous atEnd
  obtain ⟨a, previous', eq, ha⟩ := h previous atEnd
  exact ⟨a, previous', eq, imp a ha⟩

lemma peek : Reads Parser.peek (t :: rest) (t :: rest) (· = t) :=
  fun previous _ => ⟨t, previous, rfl, rfl⟩

lemma next : Reads Parser.next (t :: rest) rest (· = t) :=
  fun _ _ => ⟨t, t, rfl, rfl⟩

lemma previous : Reads Parser.previous rest rest fun _ => True :=
  fun previous _ => ⟨previous, previous, rfl, trivial⟩

lemma remaining : Reads Parser.remaining rest rest (· = rest) :=
  fun previous _ => ⟨rest, previous, rfl, rfl⟩

lemma finish (expected : Expected) : Reads (Parser.finish expected) [] [] fun _ => True :=
  fun previous _ => ⟨(), previous, rfl, trivial⟩

lemma satisfy (expected : Expected) (h : test t = true) :
    Reads (Parser.satisfy test expected) (t :: rest) rest (· = t) := by
  intro previous atEnd
  refine ⟨t, t, ?_, rfl⟩
  change (if test t then _ else _) = _
  rw [if_pos h]
  rfl

lemma sees (h : test t = true) : Reads (Parser.sees test) (t :: rest) (t :: rest) (· = true) :=
  fun previous _ => ⟨test t, previous, rfl, h⟩

lemma seesNot (h : Fails test rest) : Reads (Parser.sees test) rest rest (· = false) := by
  intro previous atEnd
  refine ⟨_, previous, rfl, ?_⟩
  cases rest with
  | nil => exact h.2 _ rfl
  | cons t rest => exact h.1 t rfl

end Reads

lemma fails_of_head {test : Token → Bool} (final : ∀ t : Token, t.kind = .eof → test t = false)
    {t : Token} {ts : List Token} (h : test t = false) : Fails test (t :: ts) :=
  ⟨fun _ e => by cases e; exact h, final⟩

lemma isSymbol_of_kind {t : Token} (h : t.kind ≠ .symbol) (c : Char) : t.isSymbol c = false := by
  simp [Token.isSymbol, h]

/-- No opening parenthesis stands at the front. -/
abbrev NotCalled (ts : List Token) : Prop :=
  Fails (·.isSymbol '(') ts

lemma notCalled_nil : NotCalled [] :=
  ⟨fun _ e => (nomatch e), fun t h => isSymbol_of_kind (by simp [h]) '('⟩

lemma notCalled_cons {t : Token} (h : t.isSymbol '(' = false) (ts : List Token) :
    NotCalled (t :: ts) :=
  fails_of_head (fun t h => isSymbol_of_kind (by simp [h]) '(') h

/-! ### Texts at their places -/

lemma foldl_utf8Size (n : Nat) (cs : List Char) :
    cs.foldl (fun n c => n + c.utf8Size) n = n + Text.byteSize cs := by
  induction cs generalizing n with
  | nil => rfl
  | cons c cs ih =>
    rw [Text.byteSize, List.foldl_cons, List.foldl_cons, ih, ih]
    omega

lemma byteSize_cons (c : Char) (cs : List Char) :
    Text.byteSize (c :: cs) = c.utf8Size + Text.byteSize cs := by
  rw [Text.byteSize, List.foldl_cons, foldl_utf8Size]
  omega

lemma offset_advanceBy (p : Position) (cs : List Char) :
    (p.advanceBy cs).offset = p.offset + Text.byteSize cs := by
  induction cs generalizing p with
  | nil => rfl
  | cons c cs ih =>
    change ((p.advance c).advanceBy cs).offset = _
    rw [ih, byteSize_cons, Position.advance]
    split <;> exact Nat.add_assoc ..

lemma dropBytes_append (cs ds : List Char) : Text.dropBytes (Text.byteSize cs) (cs ++ ds) = ds := by
  induction cs with
  | nil => cases ds <;> rfl
  | cons c cs ih =>
    obtain ⟨n, hn⟩ := Nat.exists_eq_add_of_lt c.utf8Size_pos
    rw [byteSize_cons, hn, List.cons_append]
    have total : 0 + n + 1 + Text.byteSize cs = n + Text.byteSize cs + 1 := by omega
    rw [total, Text.dropBytes, hn]
    have left : n + Text.byteSize cs + 1 - (0 + n + 1) = Text.byteSize cs := by omega
    rw [left, ih]

lemma takeBytes_append (cs ds : List Char) : Text.takeBytes (Text.byteSize cs) (cs ++ ds) = cs := by
  induction cs with
  | nil => cases ds <;> rfl
  | cons c cs ih =>
    obtain ⟨n, hn⟩ := Nat.exists_eq_add_of_lt c.utf8Size_pos
    rw [byteSize_cons, hn, List.cons_append]
    have total : 0 + n + 1 + Text.byteSize cs = n + Text.byteSize cs + 1 := by omega
    rw [total, Text.takeBytes, hn]
    have left : n + Text.byteSize cs + 1 - (0 + n + 1) = Text.byteSize cs := by omega
    rw [left, ih]

/-- A text stands at a place of a document. -/
def Stands (src : List Char) (p : Position) (cs : List Char) : Prop :=
  ∃ before after, src = before ++ (cs ++ after) ∧ p = Position.start.advanceBy before

namespace Stands

variable {src cs ds : List Char} {p : Position}

lemma left (h : Stands src p (cs ++ ds)) : Stands src p cs := by
  obtain ⟨before, after, rfl, rfl⟩ := h
  exact ⟨before, ds ++ after, by rw [List.append_assoc], rfl⟩

lemma right (h : Stands src p (cs ++ ds)) : Stands src (p.advanceBy cs) ds := by
  obtain ⟨before, after, rfl, rfl⟩ := h
  exact ⟨before ++ cs, after, by simp only [List.append_assoc], by rw [Position.advanceBy_append]⟩

/-- The text between the two ends of a stretch is the stretch. -/
lemma slice_eq (h : Stands src p cs) : Text.slice src p.offset (p.advanceBy cs).offset = cs := by
  obtain ⟨before, after, rfl, rfl⟩ := h
  have start : (Position.start.advanceBy before).offset = Text.byteSize before := by
    rw [offset_advanceBy]
    exact Nat.zero_add _
  rw [offset_advanceBy _ cs, start, Text.slice, dropBytes_append, Nat.add_sub_cancel_left,
    takeBytes_append]

end Stands

/-! ### Parentheses -/

/-- Pieces whose parentheses are balanced, so that looking for the end of a list passes over them. -/
def Neutral (ps : List Piece) : Prop :=
  ∀ p depth rest,
    balancedEnd (depth + 1) (tokensAt p ps ++ rest) = balancedEnd (depth + 1) rest ∧
      fieldBehindArguments (depth + 1) (tokensAt p ps ++ rest) = fieldBehindArguments (depth + 1) rest

namespace Neutral

variable {ps qs : List Piece}

lemma nil : Neutral [] :=
  fun _ _ _ => ⟨rfl, rfl⟩

lemma append (left : Neutral ps) (right : Neutral qs) : Neutral (ps ++ qs) := by
  intro p depth rest
  rw [tokensAt_append, List.append_assoc]
  obtain ⟨first, first'⟩ := left p depth (tokensAt (p.advanceBy (chars ps)) qs ++ rest)
  obtain ⟨last, last'⟩ := right (p.advanceBy (chars ps)) depth rest
  exact ⟨first.trans last, first'.trans last'⟩

lemma gap (c : Char) (h : Neutral ps) : Neutral (.gap c :: ps) :=
  fun p depth rest => h (p.advance c) depth rest

/-- A token that is no parenthesis. -/
lemma token {kind : Token.Kind} {spelling : String} {text : List Char}
    (plain : kind ≠ .symbol ∨ (spelling ≠ "(" ∧ spelling ≠ ")")) (h : Neutral ps) :
    Neutral (.token kind spelling text :: ps) := by
  intro p depth rest
  have opening : (tokenAt p kind spelling text).isSymbol '(' = false := by
    rcases plain with symbol | ⟨other, -⟩
    · exact isSymbol_of_kind symbol _
    · exact Bool.and_eq_false_imp.2 fun _ => beq_false_of_ne other
  have closing : (tokenAt p kind spelling text).isSymbol ')' = false := by
    rcases plain with symbol | ⟨-, other⟩
    · exact isSymbol_of_kind symbol _
    · exact Bool.and_eq_false_imp.2 fun _ => beq_false_of_ne other
  rw [tokensAt, List.cons_append, balancedEnd, fieldBehindArguments.eq_def]
  simp only [opening, closing, Bool.false_eq_true, if_false]
  exact h _ depth rest

lemma parentheses (h : Neutral ps) : Neutral (.symbol '(' :: (ps ++ [.symbol ')'])) := by
  intro p depth rest
  change balancedEnd _ (tokenAt p .symbol "(" ['('] :: (tokensAt _ (ps ++ _) ++ rest)) = _ ∧
    fieldBehindArguments _ (tokenAt p .symbol "(" ['('] :: (tokensAt _ (ps ++ _) ++ rest)) = _
  rw [tokensAt_append, List.append_assoc, balancedEnd, fieldBehindArguments.eq_def]
  have opening : (tokenAt p .symbol "(" ['(']).isSymbol '(' = true := rfl
  simp only [opening, if_true]
  obtain ⟨inner, inner'⟩ := h (p.advanceBy ['(']) (depth + 1)
    (tokensAt ((p.advanceBy ['(']).advanceBy (chars ps)) [.symbol ')'] ++ rest)
  refine ⟨inner.trans ?_, inner'.trans ?_⟩
  · exact rfl
  · exact rfl

end Neutral

/-! ### Texts and their pieces -/

/-- A text is cut into the given pieces wherever its last lexeme is ended. -/
structure Spelled (s : String) (ps : List Piece) : Prop where
  text : chars ps = s.toList
  cuts : ∀ after, ends after = true → Cuts false ps false after

/-- The pieces of white space. -/
def gaps (s : String) : List Piece :=
  s.toList.map .gap

@[simp]
lemma chars_gaps (s : String) : chars (gaps s) = s.toList := by
  simp [chars, gaps, List.flatMap_map, Piece.chars]

lemma cuts_gaps {s : String} (h : IsGap s) (opens : Bool) (after : List Char) :
    Cuts opens (gaps s) opens after := by
  have all : ∀ cs : List Char, (∀ c ∈ cs, Text.isSpace c = true ∧ c ≠ '\n') →
      Cuts opens (cs.map .gap) opens after := by
    intro cs
    induction cs with
    | nil => exact fun _ => .nil
    | cons c cs ih =>
      intro h
      obtain ⟨first, rest⟩ := List.forall_mem_cons.1 h
      exact .gap first.1 first.2 (ih rest)
  exact all s.toList h

lemma tokensAt_gaps (p : Position) (s : String) : tokensAt p (gaps s) = [] := by
  rw [gaps]
  generalize s.toList = cs
  induction cs generalizing p with
  | nil => rfl
  | cons c cs ih => exact ih _

lemma neutral_gaps (s : String) : Neutral (gaps s) := by
  intro p depth rest
  rw [tokensAt_gaps]
  exact ⟨rfl, rfl⟩

lemma ends_gap {s : String} (h : IsGap s) {after : List Char} (end_ : ends after = true) :
    ends (s.toList ++ after) = true := by
  cases e : s.toList with
  | nil => exact end_
  | cons c cs =>
    have space := (h c (by simp [e])).1
    simp [ends, space]

/-! ### Names -/

lemma nameToken_of_keyword {s : String} {k : Keyword} (h : Keyword.ofText? s = some k) :
    nameToken s.toList = .keyword k := by
  rw [nameToken, String.ofList_toList, h]

lemma isName_of_isIdentifier {s : String} (h : isIdentifier s = true) : isName s = true := by
  simp only [isIdentifier, Bool.and_eq_true] at h
  exact h.1.1

lemma nameToken_of_isIdentifier {s : String} (h : isIdentifier s = true) :
    nameToken s.toList = .identifier := by
  simp only [isIdentifier, Bool.and_eq_true, Option.isNone_iff_eq_none] at h
  rw [nameToken, String.ofList_toList, h.1.2]

/-- An identifier is none of the contextual words. -/
lemma spells_of_isIdentifier {s w : String} (h : isIdentifier s = true) (hw : w ∈ contextualWords) :
    Text.spells w s = false := by
  simp only [isIdentifier, Bool.and_eq_true, List.all_eq_true] at h
  simpa using h.2 w hw

/-- No expression is expected behind an identifier. -/
lemma opensExpr_of_isIdentifier {s : String} (h : isIdentifier s = true) :
    opensExpr (nameToken s.toList) s = false := by
  rw [nameToken_of_isIdentifier h]
  exact spells_of_isIdentifier h (by simp [contextualWords])

lemma nameToken_ne_symbol (cs : List Char) : nameToken cs ≠ .symbol := by
  rw [nameToken]
  split <;> simp

lemma Neutral.name (s : String) {ps : List Piece} (h : Neutral ps) : Neutral (.name s :: ps) :=
  .token (.inl (nameToken_ne_symbol _)) h

lemma cuts_identifier {opens opens' : Bool} {s : String} {ps : List Piece} {after : List Char}
    (h : isIdentifier s = true) (end_ : ends (chars ps ++ after) = true)
    (rest : Cuts false ps opens' after) : Cuts opens (.name s :: ps) opens' after := by
  refine .name (isName_of_isIdentifier h) end_ ?_
  rw [opensExpr_of_isIdentifier h]
  exact rest

/-- Only behind `CHECK` an expression is expected. -/
lemma cuts_keyword {opens opens' : Bool} {s : String} {k : Keyword} {ps : List Piece}
    {after : List Char} (h : isName s = true) (keyword : Keyword.ofText? s = some k)
    (end_ : ends (chars ps ++ after) = true) (rest : Cuts (k == .check) ps opens' after) :
    Cuts opens (.name s :: ps) opens' after := by
  refine .name h end_ ?_
  rw [nameToken_of_keyword keyword]
  cases k <;> exact rest

/-- The piece of a keyword in upper case. -/
def keywordPiece (k : Keyword) : Piece :=
  .lexeme (.keyword k) k.word

lemma cuts_upper {opens opens' : Bool} (k : Keyword) {ps : List Piece} {after : List Char}
    (end_ : ends (chars ps ++ after) = true) (rest : Cuts (k == .check) ps opens' after) :
    Cuts opens (keywordPiece k :: ps) opens' after := by
  have name : isName k.word = true := by
    cases k <;> decide
  have keyword : Keyword.ofText? k.word = some k := by
    cases k <;> decide
  have := @cuts_keyword opens _ _ _ _ _ name keyword end_ rest
  rwa [Piece.name, nameToken_of_keyword keyword] at this

/-- The piece of a contextual word. -/
def wordPiece (w : String) : Piece :=
  .lexeme .identifier w

lemma cuts_word {opens opens' : Bool} {w : String} (h : w ∈ contextualWords) {ps : List Piece}
    {after : List Char} (end_ : ends (chars ps ++ after) = true)
    (rest : Cuts (w == "USING") ps opens' after) : Cuts opens (wordPiece w :: ps) opens' after := by
  have word : ∀ w ∈ contextualWords, isName w = true ∧ nameToken w.toList = .identifier ∧
      Text.spells "USING" w = (w == "USING") := by
    decide
  obtain ⟨name, identifier, expr⟩ := word w h
  have cut : Cuts opens (.name w :: ps) opens' after := by
    refine .name name end_ ?_
    rw [identifier]
    change Cuts (Text.spells "USING" w) _ _ _
    rw [expr]
    exact rest
  rwa [Piece.name, identifier] at cut

/-! ### Literals -/

/-- The arguments of a call end at the parenthesis that closes it. -/
lemma reads_balanced {ps : List Piece} (h : Neutral ps) (p : Position) (rest : List Token) :
    Reads balanced (tokensAt p (.symbol '(' :: (ps ++ [Piece.symbol ')'])) ++ rest) rest
      (·.stop = (p.advanceBy (chars (.symbol '(' :: (ps ++ [Piece.symbol ')'])))).offset) := by
  intro previous atEnd
  let close := tokenAt ((p.advanceBy ['(']).advanceBy (chars ps)) .symbol ")" [')']
  have closing : balancedEnd 0 (tokensAt p (.symbol '(' :: (ps ++ [.symbol ')'])) ++ rest) =
      some (close, rest) := by
    change balancedEnd 1 (tokensAt (p.advanceBy ['(']) (ps ++ [.symbol ')']) ++ rest) = _
    rw [tokensAt_append, List.append_assoc, (h _ 0 _).1]
    rfl
  refine ⟨close, close, ?_, ?_⟩
  · rw [balanced, closing]
  · change _ = (p.advanceBy (['('] ++ chars (ps ++ [.symbol ')']))).offset
    rw [chars_append, Position.advanceBy_append, Position.advanceBy_append]
    rfl

lemma spelled_lexeme {kind : Token.Kind} {s : String}
    (cuts : ∀ after, ends after = true → Cuts false [.lexeme kind s] false after) :
    Spelled s [.lexeme kind s] :=
  ⟨List.append_nil _, cuts⟩

/-- The first token of some pieces closes no list. -/
def Starts (ps : List Piece) : Prop :=
  ∀ p, ∃ t ts, tokensAt p ps = t :: ts ∧ t.isSymbol ')' = false

lemma starts_name (s : String) (ps : List Piece) : Starts (.name s :: ps) := by
  intro p
  refine ⟨tokenAt p (nameToken s.toList) s s.toList, tokensAt (p.advanceBy s.toList) ps, rfl, ?_⟩
  refine isSymbol_of_kind ?_ _
  rw [kind_tokenAt]
  exact nameToken_ne_symbol s.toList

/-- What a literal is cut into, and that it is read back. -/
lemma exists_pieces {kind? : Option Literal.Kind} {s : String} (h : LiteralText kind? s) :
    ∃ ps, Spelled s ps ∧ Neutral ps ∧ ∀ kind, kind? = some kind → Starts ps ∧ ∀ src p rest,
      Stands src p (chars ps) → NotCalled rest →
        Reads (literal (Text.slice src)) (tokensAt p ps ++ rest) rest fun l =>
          l.kind = kind ∧ l.text = if kind = .null then "NULL" else s := by
  induction h with
  | number hs =>
    refine ⟨_, spelled_lexeme fun after end_ => .number hs end_ .nil, .token (.inl (by simp)) .nil, ?_⟩
    rintro _ ⟨⟩
    refine ⟨fun p => ⟨_, _, rfl, rfl⟩, fun src p rest _ _ => ?_⟩
    exact .step .peek (.step .next (.pure ⟨rfl, rfl⟩))
  | @negative s hs =>
    refine ⟨[.symbol '-', .lexeme .number s], ⟨?_, ?_⟩, ?_, ?_⟩
    · simp [Piece.lexeme, Piece.symbol, Piece.chars]
    · intro after end_
      exact .mark (by decide) (.number hs end_ .nil)
    · exact .token (.inr (by decide)) (.token (.inl (by simp)) .nil)
    · rintro _ ⟨⟩
      refine ⟨fun p => ⟨_, _, rfl, rfl⟩, fun src p rest _ _ => ?_⟩
      refine .step .peek (.step .remaining ?_)
      exact .step .next (.step .next (.pure ⟨rfl, rfl⟩))
  | string hs =>
    refine ⟨_, spelled_lexeme fun after end_ => .string hs end_ .nil, .token (.inl (by simp)) .nil, ?_⟩
    rintro _ ⟨⟩
    refine ⟨fun p => ⟨_, _, rfl, rfl⟩, fun src p rest _ _ => ?_⟩
    exact .step .peek (.step .next (.pure ⟨rfl, rfl⟩))
  | list hs =>
    refine ⟨_, spelled_lexeme fun after _ => .list hs .nil, .token (.inl (by simp)) .nil, ?_⟩
    rintro _ ⟨⟩
    refine ⟨fun p => ⟨_, _, rfl, rfl⟩, fun src p rest _ _ => ?_⟩
    exact .step .peek (.step .next (.pure ⟨rfl, rfl⟩))
  | null hs word =>
    refine ⟨_, spelled_lexeme fun after end_ => cuts_keyword hs word end_ .nil,
      .name _ .nil, ?_⟩
    rintro _ ⟨⟩
    refine ⟨starts_name _ _, fun src p rest _ _ => ?_⟩
    rw [nameToken_of_keyword word]
    exact .step .peek (.step .next (.pure ⟨rfl, rfl⟩))
  | identifier hs =>
    refine ⟨_, spelled_lexeme fun after end_ => cuts_identifier hs end_ .nil, .name _ .nil, ?_⟩
    rintro _ ⟨⟩
    refine ⟨starts_name _ _, fun src p rest _ follows => ?_⟩
    rw [nameToken_of_isIdentifier hs]
    exact .step .peek (.step .next (.step (.seesNot follows) (.pure ⟨rfl, rfl⟩)))
  | @call name gap args hname hgap hargs ih =>
    obtain ⟨ps, ⟨text, cuts⟩, neutral, -⟩ := ih
    have whole : chars (.name name :: (gaps gap ++ .symbol '(' :: (ps ++ [.symbol ')']))) =
        (name ++ gap ++ "(" ++ args ++ ")").toList := by
      simp [text, Piece.name, Piece.lexeme, Piece.symbol, Piece.chars]
    refine ⟨.name name :: (gaps gap ++ .symbol '(' :: (ps ++ [.symbol ')'])), ⟨whole, ?_⟩, ?_, ?_⟩
    · intro after end_
      refine cuts_identifier hname ?_ ((cuts_gaps hgap _ _).append ?_)
      · rw [chars_append, chars_gaps, List.append_assoc]
        exact ends_gap hgap rfl
      · exact .mark (by decide) ((cuts _ rfl).append (.mark (by decide) .nil))
    · exact .name _ ((neutral_gaps _).append neutral.parentheses)
    · rintro _ ⟨⟩
      refine ⟨starts_name _ _, fun src p rest stands _ => ?_⟩
      change Reads _ (tokenAt p (nameToken name.toList) name name.toList ::
        (tokensAt (p.advanceBy name.toList) (gaps gap ++ _) ++ rest)) _ _
      rw [tokensAt_append, tokensAt_gaps, List.nil_append, chars_gaps, nameToken_of_isIdentifier hname]
      refine .step .peek (.step .next (.step (.sees rfl) ?_))
      refine (reads_balanced neutral _ rest).bind fun close hclose => .pure ⟨rfl, ?_⟩
      -- the text is the slice from the name to the parenthesis that closes the arguments
      have slice := congrArg String.ofList stands.slice_eq
      rw [whole, String.ofList_toList, ← whole, chars_cons, chars_append, chars_gaps] at slice
      rw [hclose, ← Position.advanceBy_append, ← Position.advanceBy_append, if_neg (by simp)]
      exact slice
  | @blank gap hgap =>
    refine ⟨gaps gap, ⟨chars_gaps gap, fun after _ => cuts_gaps hgap _ _⟩, neutral_gaps gap, ?_⟩
    rintro _ ⟨⟩
  | @argument kind before s behind hbefore hs hbehind ih =>
    obtain ⟨ps, ⟨text, cuts⟩, neutral, -⟩ := ih
    refine ⟨gaps before ++ (ps ++ gaps behind), ⟨?_, ?_⟩, ?_, ?_⟩
    · simp [text]
    · intro after end_
      refine (cuts_gaps hbefore _ _).append ((cuts _ ?_).append (cuts_gaps hbehind _ _))
      rw [chars_gaps]
      exact ends_gap hbehind end_
    · exact (neutral_gaps _).append (neutral.append (neutral_gaps _))
    · rintro _ ⟨⟩
  | @more s t hs ht left right =>
    obtain ⟨ps, ⟨text, cuts⟩, neutral, -⟩ := left
    obtain ⟨qs, ⟨text', cuts'⟩, neutral', -⟩ := right
    refine ⟨ps ++ .symbol ',' :: qs, ⟨?_, ?_⟩, ?_, ?_⟩
    · simp [text, text', Piece.symbol, Piece.lexeme, Piece.chars]
    · intro after end_
      exact (cuts _ rfl).append (.mark (by decide) (cuts' after end_))
    · exact neutral.append (.token (.inr (by decide)) neutral')
    · rintro _ ⟨⟩

/-! ### Lists -/

/-- The pieces of some items with a comma and a blank between neighbours. -/
def joined : List (List Piece) → List Piece
  | [] => []
  | [ps] => ps
  | ps :: qs :: rest => ps ++ (.symbol ',' :: .gap ' ' :: joined (qs :: rest))

lemma spelled_joined {ss : List String} {pss : List (List Piece)} (h : List.Forall₂ Spelled ss pss) :
    Spelled (Text.join ", " ss) (joined pss) := by
  induction h with
  | nil => exact ⟨rfl, fun _ _ => .nil⟩
  | cons first others ih =>
    cases others with
    | nil => exact first
    | cons second others =>
      refine ⟨?_, fun after end_ => ?_⟩
      · rw [joined, chars_append, first.text, chars_cons, chars_cons, ih.text]
        simp [Text.join, Piece.symbol, Piece.lexeme, Piece.chars]
      · exact (first.cuts _ rfl).append (.mark (by decide) (.blank (ih.cuts after end_)))

lemma neutral_joined {pss : List (List Piece)} (h : ∀ ps ∈ pss, Neutral ps) : Neutral (joined pss) := by
  induction pss with
  | nil => exact .nil
  | cons ps pss ih =>
    obtain ⟨first, others⟩ := List.forall_mem_cons.1 h
    cases pss with
    | nil => exact first
    | cons qs pss => exact first.append (.token (.inr (by decide)) (.gap _ (ih others)))

/-- The last item of a list stands in front of the closing parenthesis. -/
lemma Reads.commaList_last {α : Type} {item : Parser α} {P : α → Prop} {input rest : List Token}
    {close : Token} (unfinished : Expected) (first : Reads item input (close :: rest) P)
    (comma : close.isSymbol ',' = false) (closing : close.isSymbol ')' = true) :
    Reads (commaList item unfinished) input rest fun r => ∃ a, r.1 = [a] ∧ P a := by
  intro previous atEnd
  obtain ⟨a, previous', eq, ha⟩ := first previous atEnd
  refine ⟨([a], close), close, ?_, a, rfl, ha⟩
  rw [commaList, eq]
  change (if close.isSymbol ',' = true then _ else if close.isSymbol ')' = true then _ else _) = _
  rw [comma, if_neg Bool.false_ne_true, if_pos closing]
  rfl

/-- Behind an item and a comma the list goes on. -/
lemma Reads.commaList_more {α : Type} {item : Parser α} {P : α → Prop} {Q : List α × Token → Prop}
    {input middle rest : List Token} {t : Token} {unfinished : Expected}
    (first : Reads item input (t :: middle) P) (comma : t.isSymbol ',' = true)
    (shorter : middle.length < input.length)
    (others : Reads (commaList item unfinished) middle rest Q) :
    Reads (commaList item unfinished) input rest fun r =>
      ∃ a as close, r = (a :: as, close) ∧ P a ∧ Q (as, close) := by
  intro previous atEnd
  obtain ⟨a, previous', eq, ha⟩ := first previous atEnd
  obtain ⟨⟨as, close⟩, previous'', eq', has⟩ := others t atEnd
  refine ⟨(a :: as, close), previous'', ?_, a, as, close, rfl, ha, has⟩
  have here : (Cursor.mk previous' (t :: middle) atEnd).current.isSymbol ',' = true := comma
  have behind : (Cursor.mk previous' (t :: middle) atEnd).skip = ⟨t, middle, atEnd⟩ := rfl
  rw [commaList, eq]
  dsimp only
  rw [if_pos here, behind, if_pos shorter, eq']

/-- Items divided by commas are read one by one, up to and with the closing parenthesis. -/
lemma reads_commaList {α β : Type} {src : List Char} {item : Parser α} {R : β → α → Prop}
    {bs : List β} {pss : List (List Piece)} (unfinished : Expected)
    (h : List.Forall₂ (fun b ps => ∀ p rest, Stands src p (chars ps) → NotCalled rest →
      Reads item (tokensAt p ps ++ rest) rest (R b)) bs pss) (ne : bs ≠ [])
    {p : Position} (stands : Stands src p (chars (joined pss))) (q : Position) (rest : List Token) :
    Reads (commaList item unfinished) (tokensAt p (joined pss) ++ (tokensAt q [.symbol ')'] ++ rest))
      rest fun r => List.Forall₂ R bs r.1 := by
  induction h generalizing p with
  | nil => exact absurd rfl ne
  | @cons b ps bs pss first others ih =>
    cases others with
    | nil =>
      have last := first p (tokensAt q [.symbol ')'] ++ rest) stands (notCalled_cons rfl rest)
      refine (last.commaList_last unfinished rfl rfl).mono ?_
      rintro _ ⟨a, e, ha⟩
      rw [e]
      exact .cons ha .nil
    | @cons b' qs bs pss second others =>
      rw [joined, chars_append] at stands
      rw [joined, tokensAt_append, List.append_assoc]
      have item := first p (tokensAt (p.advanceBy (chars ps))
        (.symbol ',' :: .gap ' ' :: joined (qs :: pss)) ++ (tokensAt q [.symbol ')'] ++ rest))
          stands.left (notCalled_cons rfl _)
      have behind : Stands src (p.advanceBy (chars ps)) ([',', ' '] ++ chars (joined (qs :: pss))) :=
        stands.right
      refine (item.commaList_more rfl ?_ (ih (by simp) behind.right)).mono ?_
      · rw [List.length_append]
        exact Nat.lt_add_left _ (Nat.lt_succ_self _)
      · rintro _ ⟨a, as, close, rfl, ha, has⟩
        exact .cons ha has

/-- The pieces of a list in parentheses. -/
def listed (pss : List (List Piece)) : List Piece :=
  .symbol '(' :: (joined pss ++ [.symbol ')'])

lemma chars_listed {ss : List String} {pss : List (List Piece)} (h : List.Forall₂ Spelled ss pss) :
    chars (listed pss) = ("(" ++ Text.join ", " ss ++ ")").toList := by
  simp [listed, Piece.symbol, Piece.lexeme, Piece.chars, (spelled_joined h).text]

lemma cuts_listed {ss : List String} {pss : List (List Piece)} (h : List.Forall₂ Spelled ss pss)
    (after : List Char) : Cuts false (listed pss) false after :=
  .mark (by decide) (((spelled_joined h).cuts _ rfl).append (.mark (by decide) .nil))

lemma tokensAt_listed (p : Position) (pss : List (List Piece)) (rest : List Token) :
    tokensAt p (listed pss) ++ rest = tokenAt p .symbol "(" ['('] ::
      (tokensAt (p.advanceBy ['(']) (joined pss) ++
        (tokensAt ((p.advanceBy ['(']).advanceBy (chars (joined pss))) [.symbol ')'] ++ rest)) := by
  rw [listed, ← List.append_assoc, ← tokensAt_append]
  rfl

lemma isName_nameToken (p : Position) (s : String) (text : List Char) :
    (tokenAt p (nameToken s.toList) s text).isName = true := by
  rw [nameToken, String.ofList_toList]
  cases Keyword.ofText? s <;> rfl

lemma reads_name (expected : Expected) (p : Position) (s : String) (rest : List Token) :
    Reads (Parser.name expected) (tokensAt p [.name s] ++ rest) rest (·.spelling = s) := by
  refine (Reads.satisfy expected ?_).mono fun t e => ?_
  · exact isName_nameToken p s s.toList
  · rw [e]
    rfl

lemma fails_joined {ps : List Piece} (h : Starts ps) (pss : List (List Piece)) (p : Position)
    (rest : List Token) : Fails (·.isSymbol ')') (tokensAt p (joined (ps :: pss)) ++ rest) := by
  have final (t : Token) (h : t.kind = .eof) : t.isSymbol ')' = false := isSymbol_of_kind (by simp [h]) _
  obtain ⟨t, ts, e, ht⟩ := h p
  cases pss with
  | nil =>
    rw [joined, e]
    exact fails_of_head final ht
  | cons qs pss =>
    rw [joined, tokensAt_append, e]
    exact fails_of_head final ht

/-- The pieces of names in parentheses. -/
def columnPieces (columns : List String) : List Piece :=
  listed (columns.map fun c => [.name c])

lemma spelled_columns {columns : List String} (h : ∀ c ∈ columns, isIdentifier c = true) :
    List.Forall₂ Spelled columns (columns.map fun c => [.name c]) := by
  rw [List.forall₂_map_right_iff, List.forall₂_same]
  intro c hc
  exact spelled_lexeme fun after end_ => cuts_identifier (h c hc) end_ .nil

lemma neutral_columns (columns : List String) : Neutral (joined (columns.map fun c => [.name c])) := by
  apply neutral_joined
  intro ps hps
  obtain ⟨c, -, rfl⟩ := List.mem_map.1 hps
  exact .name c .nil

/-- Names in parentheses are read as they stand. -/
lemma reads_nameList (item : ListItem) (columns : List String) {src : List Char} {p : Position}
    (stands : Stands src p (chars (columnPieces columns))) (rest : List Token) :
    Reads (nameList item) (tokensAt p (columnPieces columns) ++ rest) rest (· = columns) := by
  have inside : Stands src (p.advanceBy ['(']) (chars (joined (columns.map fun c => [.name c])) ++ [')']) := by
    rw [columnPieces, listed, chars_cons, chars_append] at stands
    exact stands.right
  rw [columnPieces, tokensAt_listed]
  refine .step (.satisfy _ rfl) ?_
  cases columns with
  | nil => exact .step (.sees rfl) (.step .next (.pure rfl))
  | cons c columns =>
    refine .step (.seesNot (fails_joined (starts_name c []) _ _ _)) ?_
    have names := reads_commaList (R := fun c (t : Token) => c = t.spelling) (.listItemsEnd item)
      (List.forall₂_map_right_iff.2 (List.forall₂_same.2 fun c _ p rest _ _ =>
        (reads_name (.listItem item) p c rest).mono fun _ e => e.symm)) (List.cons_ne_nil c columns)
      inside.left
    refine (names _ rest).bind ?_
    rintro ⟨ts, close⟩ spelled
    refine .pure ?_
    rw [← List.forall₂_map_right_iff, List.forall₂_eq_eq_eq] at spelled
    exact spelled.symm

/-- Literals in parentheses are read one by one. -/
lemma reads_typeArguments {src : List Char} {ls : List Literal} {pss : List (List Piece)}
    (h : List.Forall₂ (fun l ps => Starts ps ∧ ∀ p rest, Stands src p (chars ps) → NotCalled rest →
      Reads (literal (Text.slice src)) (tokensAt p ps ++ rest) rest (·.unplaced = l)) ls pss) (ne : ls ≠ [])
    {p : Position} (stands : Stands src p (chars (listed pss))) (rest : List Token) :
    Reads (typeArguments (Text.slice src)) (tokensAt p (listed pss) ++ rest) rest
      (·.1.map (·.unplaced) = ls) := by
  have inside : Stands src (p.advanceBy ['(']) (chars (joined pss) ++ [')']) := by
    rw [listed, chars_cons, chars_append] at stands
    exact stands.right
  have items := reads_commaList (R := fun l (l' : Literal) => l = l'.unplaced) .typeArgumentsEnd
    (h.imp fun l ps hl p rest stands follows =>
      (hl.2 p rest stands follows).mono fun _ e => e.symm) ne inside.left
  rw [tokensAt_listed]
  refine .step .next ?_
  cases h with
  | nil => exact absurd rfl ne
  | cons first others =>
    refine .step (.seesNot (fails_joined first.1 _ _ _)) ((items _ rest).mono ?_)
    rintro ⟨ls', close⟩ same
    rw [← List.forall₂_map_right_iff, List.forall₂_eq_eq_eq] at same
    exact same.symm

end ErdSql.Document
