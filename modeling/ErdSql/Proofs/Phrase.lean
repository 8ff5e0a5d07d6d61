import ErdSql.Proofs.Encoding
import ErdSql.Script.Head
import ErdSql.Sql.Name

/-!
# Phrases

A grammar of the SQL that is written for a schema, and how it is read: `Phrase s ws` says that the
text `s` is made of the words `ws`, with single spaces and tight brackets.

* `Phrase.exists_pieces`: a phrase is cut into pieces on its own, whatever follows it, and the normal
  layout of the pieces is the phrase.
* `Phrase.words?_append`: the words of a phrase are the ones that the grammar gives.

What follows a phrase is only ever a space, a comma, a bracket or a semicolon, and neither of the two
looks further ahead than that.
-/

namespace ErdSql.Script

open Text (ascii doubleByte)

/-! ### What may follow -/

/-- What no word and no quoted run goes on with. -/
def Ends (rest : List UInt8) : Prop :=
  ∀ b ∈ rest.head?, isWordByte b = false ∧ b ≠ ascii '$' ∧ b ≠ ascii '\'' ∧ b ≠ ascii '"'

/-- What may follow a phrase. -/
def Stops (rest : List UInt8) : Prop :=
  ∀ b ∈ rest.head?, b ∈ Text.bytes " ,()[];"

/-- A property of bytes that holds of all pairs of hexadecimal digits holds of every byte. -/
lemma forall_byte {p : UInt8 → Prop} (h : ∀ m n : Fin 16, p (UInt8.ofNat (16 * m + n))) (b : UInt8) :
    p b := by
  have lt := b.toNat_lt
  have digits : UInt8.ofNat (16 * (b.toNat / 16) + b.toNat % 16) = b := by
    rw [Nat.div_add_mod, UInt8.ofNat_toNat]
  rw [← digits]
  exact h ⟨b.toNat / 16, by omega⟩ ⟨b.toNat % 16, by omega⟩

/-- Nothing goes on behind a phrase. -/
lemma Stops.ends {rest : List UInt8} (h : Stops rest) : Ends rest := by
  intro b hb
  have table : ∀ b : UInt8, b ∈ Text.bytes " ,()[];" →
      isWordByte b = false ∧ b ≠ ascii '$' ∧ b ≠ ascii '\'' ∧ b ≠ ascii '"' :=
    forall_byte (by decide)
  exact table b (h b hb)

/-- A number does not go on behind a phrase. -/
lemma Stops.ne_dot {rest : List UInt8} (h : Stops rest) : rest.head? ≠ some (ascii '.') := by
  intro hd
  have := h _ hd
  revert this
  decide

/-- What follows a phrase is fixed by its first byte. -/
lemma stops_cons {b : UInt8} (h : b ∈ Text.bytes " ,()[];") (rest : List UInt8) :
    Stops (b :: rest) := by
  rintro _ ⟨⟩
  exact h

/-! ### Pieces -/

/-- Whether a byte is a piece of its own wherever it stands: a word byte or punctuation. -/
def isSafe (b : UInt8) : Bool := isWordByte b || Word.isPunctuation b

/-- A safe byte is a piece of its own. -/
lemma pieceAt_of_isSafe {b : UInt8} (h : isSafe b = true) (before : Before) (rest : List UInt8) :
    pieceAt before b rest = (.other b, 0) := by
  have table : ∀ b : UInt8, isSafe b = true → (b == ascii ';') = false ∧ isBlankByte b = false ∧
      (b == ascii '-') = false ∧ (b == ascii '/') = false ∧ (b == ascii '\'') = false ∧
      (b == ascii '"') = false ∧ (b == ascii '$') = false := forall_byte (by decide)
  obtain ⟨h1, h2, h3, h4, h5, h6, h7⟩ := table b h
  simp [pieceAt, h1, h2, h3, h4, h5, h6, h7]

/-- What stands before a place matters only to a word or a string. -/
lemma pieces_of_ends {rest : List UInt8} (h : Ends rest) (before : Before) :
    pieces before rest = pieces .nothing rest := by
  cases rest with
  | nil => rw [pieces, pieces]
  | cons b rest =>
    obtain ⟨noWord, -, noQuote, -⟩ := h b rfl
    have same : pieceAt before b rest = pieceAt .nothing b rest := by
      simp [pieceAt, noQuote]
    rw [pieces, pieces, same]
    dsimp only
    split
    · simp [Before.push, noWord]
    · rfl

/-- Safe bytes are cut one by one. -/
lemma pieces_of_isSafe {bs rest : List UInt8} (safe : ∀ b ∈ bs, isSafe b = true) (h : Ends rest)
    (before : Before) : pieces before (bs ++ rest) = bs.map .other ++ pieces .nothing rest := by
  induction bs generalizing before with
  | nil => exact pieces_of_ends h before
  | cons b bs ih =>
    rw [List.cons_append, pieces, pieceAt_of_isSafe (safe b List.mem_cons_self)]
    exact congrArg (.other b :: ·) (ih (fun c hc => safe c (List.mem_cons_of_mem b hc)) _)

/-- A blank is a gap. -/
lemma pieces_blank {b : UInt8} (h : isBlankByte b = true) (before : Before) (rest : List UInt8) :
    pieces before (b :: rest) = .blank b :: pieces .nothing rest := by
  have noSemicolon : b ≠ ascii ';' := by
    rintro rfl
    exact absurd h (by decide)
  have blank : pieceAt before b rest = (.blank b, 0) := by simp [pieceAt, h, noSemicolon]
  rw [pieces, blank]
  rfl

/-- A space is a gap. -/
lemma pieces_space (before : Before) (rest : List UInt8) :
    pieces before (ascii ' ' :: rest) = .blank (ascii ' ') :: pieces .nothing rest :=
  pieces_blank (by decide) before rest

/-- A semicolon ends a statement. -/
lemma pieces_semicolon (before : Before) (rest : List UInt8) :
    pieces before (ascii ';' :: rest) = .semicolon :: pieces .nothing rest := by
  have semicolon : pieceAt before (ascii ';') rest = (.semicolon, 0) := by simp [pieceAt]
  rw [pieces, semicolon]
  rfl

/-- A quoted run is one piece. -/
lemma pieces_of_enclosed {quote : UInt8} (hq : quote = ascii '\'' ∨ quote = ascii '"')
    {before : Before} {escapes : Bool}
    (mode : quote = ascii '\'' → escapes = (before == .escapeMark))
    (plain : quote = ascii '"' → escapes = false)
    {bs next : List UInt8} (h : Enclosed quote escapes bs) (hn : next.head? ≠ some quote) :
    pieces before (quote :: bs ++ quote :: next) =
      .quoted (quote :: bs ++ [quote]) :: pieces .nothing next := by
  have notBackslash : quote ≠ ascii '\\' := by
    rcases hq with rfl | rfl <;> decide
  have length := quotedLength_of_enclosed notBackslash h hn
  have piece : pieceAt before quote (bs ++ quote :: next) =
      (.quoted (quote :: (bs ++ quote :: next).take (bs.length + 1)), bs.length + 1) := by
    rcases hq with rfl | rfl
    · rw [← length, mode rfl]
      rfl
    · rw [← length, plain rfl]
      rfl
  have run : bs ++ quote :: next = (bs ++ [quote]) ++ next := by simp
  rw [List.cons_append, pieces, piece]
  simp only [run]
  rw [List.take_left' (by simp), List.drop_left' (by simp)]
  rfl

/-- Punctuation is a piece of its own, and nothing goes on behind it. -/
lemma pieces_punctuation {b : UInt8} (h : Word.isPunctuation b = true) (before : Before)
    (rest : List UInt8) : pieces before (b :: rest) = .other b :: pieces .nothing rest := by
  have table : ∀ b : UInt8, Word.isPunctuation b = true → isWordByte b = false :=
    forall_byte (by decide)
  rw [pieces, pieceAt_of_isSafe (by simp [isSafe, h])]
  simp [Before.push, table b h]

/-- A star is a piece of its own. -/
lemma pieces_star (before : Before) (rest : List UInt8) :
    pieces before (ascii '*' :: rest) = .other (ascii '*') :: pieces .nothing rest := by
  have other : pieceAt before (ascii '*') rest = (.other (ascii '*'), 0) := rfl
  rw [pieces, other]
  rfl

/-! ### Atoms -/

/-- A text that is one word. -/
inductive Atom : List UInt8 → Word → Prop
  | name {b : UInt8} {bs : List UInt8} (start : Word.isNameStart b = true)
      (part : ∀ c ∈ bs, isWordByte c = true) : Atom (b :: bs) ⟨.name, b :: bs⟩
  | whole {b : UInt8} {bs : List UInt8} (start : isDigitByte b = true)
      (part : ∀ c ∈ bs, isDigitByte c = true) : Atom (b :: bs) ⟨.number, b :: bs⟩
  | decimal {b : UInt8} {bs : List UInt8} {d : UInt8} {ds : List UInt8} (start : isDigitByte b = true)
      (part : ∀ c ∈ bs, isDigitByte c = true) (first : isDigitByte d = true)
      (fraction : ∀ c ∈ ds, isDigitByte c = true) :
      Atom (b :: bs ++ ascii '.' :: d :: ds) ⟨.number, b :: bs ++ ascii '.' :: d :: ds⟩
  | quotedName (content : List UInt8) :
      Atom (ascii '"' :: doubleByte (ascii '"') content ++ [ascii '"'])
        ⟨.quotedName, ascii '"' :: doubleByte (ascii '"') content ++ [ascii '"']⟩
  | string (content : List UInt8) :
      Atom (ascii '\'' :: doubleByte (ascii '\'') content ++ [ascii '\''])
        ⟨.string, ascii '\'' :: doubleByte (ascii '\'') content ++ [ascii '\'']⟩
  | escape (content : List UInt8) :
      Atom (ascii 'E' :: ascii '\'' ::
          doubleByte (ascii '\\') (doubleByte (ascii '\'') content) ++ [ascii '\''])
        ⟨.string, ascii 'E' :: ascii '\'' ::
          doubleByte (ascii '\\') (doubleByte (ascii '\'') content) ++ [ascii '\'']⟩

/-- Whether a byte is visible and no separator. -/
def isSolid (b : UInt8) : Bool :=
  32 < b && b < 128 && b != ascii ';' && b != ascii ',' && b != ascii '('

/-- Bytes of words are safe and solid. -/
lemma isSafe_and_isSolid_of_isWordByte {b : UInt8} (h : isWordByte b = true) :
    isSafe b = true ∧ isSolid b = true := by
  have table : ∀ b : UInt8, isWordByte b = true → isSafe b = true ∧ isSolid b = true :=
    forall_byte (by decide)
  exact table b h

/-- Digits are bytes of words. -/
lemma isWordByte_of_isDigitByte {b : UInt8} (h : isDigitByte b = true) : isWordByte b = true := by
  have table : ∀ b : UInt8, isDigitByte b = true → isWordByte b = true :=
    forall_byte (by decide)
  exact table b h

/-- The start of a name is a byte of words. -/
lemma isWordByte_of_isNameStart {b : UInt8} (h : Word.isNameStart b = true) : isWordByte b = true := by
  rw [Word.isNameStart, Bool.and_eq_true] at h
  exact h.1

/-- Pieces without semicolon whose normal layout is the given text: with a space before it if there is
a gap, and otherwise directly behind what stands before. -/
structure Lays (ps : List Piece) (bs : List UInt8) : Prop where
  closed : .semicolon ∉ ps
  laid : ∀ last gap more, (gap = true → last ≠ some (ascii '(')) →
    layout last gap (ps ++ more) =
      (if gap && last.isSome then [ascii ' '] else []) ++ bs ++ layout bs.getLast? false more

/-- One piece lays out its text, unless it is tight. -/
lemma lays_singleton {p : Piece} {text : List UInt8} (h : p.text? = some text)
    (ne : text ≠ [ascii ')'] ∧ text ≠ [ascii ',']) : Lays [p] text := by
  constructor
  · intro mem
    rw [List.mem_singleton] at mem
    rw [← mem] at h
    cases h
  · intro last gap more notOpen
    rw [List.singleton_append, layout, h]
    cases last with
    | none => simp
    | some b =>
      cases gap with
      | false => simp
      | true =>
        have : b ≠ ascii '(' := fun e => notOpen rfl (congrArg some e)
        simp [isTight, ne, this]

/-- Pieces that lay out two texts, without a gap between them. -/
lemma Lays.append {ps qs : List Piece} {bs cs : List UInt8} (h : Lays ps bs) (h' : Lays qs cs)
    (ne : cs ≠ []) : Lays (ps ++ qs) (bs ++ cs) := by
  constructor
  · rw [List.mem_append, not_or]
    exact ⟨h.closed, h'.closed⟩
  · intro last gap more notOpen
    rw [List.append_assoc, h.laid last gap _ notOpen, h'.laid _ false _ nofun,
      List.getLast?_append_of_ne_nil bs ne]
    simp

/-- Pieces that lay out two texts with a gap between them. -/
lemma Lays.append_gap {ps qs : List Piece} {bs cs : List UInt8} (h : Lays ps bs) (h' : Lays qs cs)
    (last : ∃ b, bs.getLast? = some b ∧ b ≠ ascii '(') (ne : cs ≠ []) :
    Lays (ps ++ .blank (ascii ' ') :: qs) (bs ++ ascii ' ' :: cs) := by
  obtain ⟨b, hb, notOpen⟩ := last
  constructor
  · simp [h.closed, h'.closed]
  · intro last gap more notOpen'
    have gapped : layout bs.getLast? false (.blank (ascii ' ') :: (qs ++ more)) =
        layout bs.getLast? true (qs ++ more) := by
      rw [layout]
      rfl
    rw [List.append_assoc, h.laid last gap _ notOpen', List.cons_append, gapped,
      h'.laid _ true _ (by simp [hb, notOpen]), hb,
      List.getLast?_append_of_ne_nil bs (by simp), List.getLast?_cons_of_ne_nil ne]
    simp

/-- A closing bracket or a comma is laid out behind a text. -/
lemma Lays.append_tight {ps : List Piece} {bs : List UInt8} {b : UInt8} (h : Lays ps bs)
    (hb : b < 0x80) : Lays (ps ++ [.other b]) (bs ++ [b]) := by
  constructor
  · simp [h.closed]
  · intro last gap more notOpen
    have one : (Piece.other b).text? = some [b] := by rw [Piece.text?, if_pos hb]
    rw [List.append_assoc, h.laid last gap _ notOpen, List.singleton_append, layout, one]
    cases bs.getLast? <;> simp

/-- Bytes of ASCII that are no separators lay out themselves. -/
lemma lays_map_other {bs : List UInt8} (h : ∀ b ∈ bs, b < 0x80 ∧ b ≠ ascii ')' ∧ b ≠ ascii ',')
    (ne : bs ≠ []) : Lays (bs.map .other) bs := by
  induction bs with
  | nil => exact absurd rfl ne
  | cons b bs ih =>
    obtain ⟨small, noClose, noComma⟩ := h b List.mem_cons_self
    have one : (Piece.other b).text? = some [b] := by rw [Piece.text?, if_pos small]
    have first : Lays [.other b] [b] := lays_singleton one (by simp [noClose, noComma])
    by_cases hb : bs = []
    · rw [hb]
      exact first
    · exact first.append (ih (fun c hc => h c (List.mem_cons_of_mem b hc)) hb) hb

/-- A quoted run lays out itself. -/
lemma lays_quoted {quote : UInt8} (bs : List UInt8) :
    Lays [.quoted (quote :: bs ++ [quote])] (quote :: bs ++ [quote]) :=
  lays_singleton rfl (by simp)

/-- Bytes of words and dots are cut one by one and lay out themselves. -/
lemma exists_pieces_of_wordBytes {bs : List UInt8} (h : ∀ c ∈ bs, isWordByte c = true ∨ c = ascii '.')
    (ne : bs ≠ []) : ∃ ps, Lays ps bs ∧
      ∀ rest, Ends rest → pieces .nothing (bs ++ rest) = ps ++ pieces .nothing rest := by
  have table : ∀ b : UInt8, isWordByte b = true ∨ b = ascii '.' →
      (b < 0x80 ∧ b ≠ ascii ')' ∧ b ≠ ascii ',') ∧ isSafe b = true := forall_byte (by decide)
  refine ⟨bs.map .other, lays_map_other (fun b hb => (table b (h b hb)).1) ne, fun rest ends => ?_⟩
  exact pieces_of_isSafe (fun b hb => (table b (h b hb)).2) ends _

/-- An atom is cut into pieces that lay out the atom, whatever follows it. -/
lemma Atom.exists_pieces {bs : List UInt8} {w : Word} (a : Atom bs w) :
    ∃ ps, Lays ps bs ∧ ∀ rest, Ends rest → pieces .nothing (bs ++ rest) = ps ++ pieces .nothing rest := by
  cases a with
  | name start part =>
    refine exists_pieces_of_wordBytes (fun c hc => .inl ?_) (by simp)
    rcases List.mem_cons.1 hc with rfl | hc
    · exact isWordByte_of_isNameStart start
    · exact part c hc
  | whole start part =>
    refine exists_pieces_of_wordBytes (fun c hc => .inl ?_) (by simp)
    rcases List.mem_cons.1 hc with rfl | hc
    · exact isWordByte_of_isDigitByte start
    · exact isWordByte_of_isDigitByte (part c hc)
  | decimal start part first fraction =>
    refine exists_pieces_of_wordBytes (fun c hc => ?_) (by simp)
    simp only [List.cons_append, List.mem_cons, List.mem_append] at hc
    rcases hc with rfl | hc | rfl | rfl | hc
    · exact .inl (isWordByte_of_isDigitByte start)
    · exact .inl (isWordByte_of_isDigitByte (part c hc))
    · exact .inr rfl
    · exact .inl (isWordByte_of_isDigitByte first)
    · exact .inl (isWordByte_of_isDigitByte (fraction c hc))
  | quotedName content =>
    refine ⟨_, lays_quoted _, fun rest ends => ?_⟩
    rw [List.append_assoc]
    refine pieces_of_enclosed (.inr rfl) (by decide) (fun _ => rfl) (enclosed_doubleByte _ _) ?_
    exact fun h => (ends _ h).2.2.2 rfl
  | string content =>
    refine ⟨_, lays_quoted _, fun rest ends => ?_⟩
    rw [List.append_assoc]
    refine pieces_of_enclosed (.inl rfl) (fun _ => rfl) (by decide) (enclosed_doubleByte _ _) ?_
    exact fun h => (ends _ h).2.2.1 rfl
  | escape content =>
    refine ⟨_, (@lays_singleton (.other (ascii 'E')) _ rfl (by decide)).append (lays_quoted _) (by simp),
      fun rest ends => ?_⟩
    have noQuote : rest.head? ≠ some (ascii '\'') := fun h => (ends _ h).2.2.1 rfl
    -- the letter before the quote turns escapes on
    have run := @pieces_of_enclosed _ (.inl rfl) .escapeMark true (fun _ => rfl) (by decide) _ rest
      (enclosed_doubleByte_backslash (by decide) true content) noQuote
    rw [List.append_assoc, List.cons_append, pieces, pieceAt_of_isSafe (by decide)]
    exact congrArg (_ :: ·) run

/-- The first and the last byte of an atom are solid. -/
lemma Atom.isSolid {bs : List UInt8} {w : Word} (a : Atom bs w) :
    (∃ b, bs.head? = some b ∧ isSolid b = true) ∧ ∃ b, bs.getLast? = some b ∧ isSolid b = true := by
  have last {b : UInt8} {bs : List UInt8} (h : ∀ c ∈ b :: bs, isWordByte c = true) :
      ∃ c, (b :: bs).getLast? = some c ∧ Script.isSolid c = true :=
    ⟨(b :: bs).getLast (by simp), List.getLast?_eq_some_getLast _,
      (isSafe_and_isSolid_of_isWordByte (h _ (List.getLast_mem _))).2⟩
  cases a with
  | name start part =>
    refine ⟨⟨_, rfl, (isSafe_and_isSolid_of_isWordByte (isWordByte_of_isNameStart start)).2⟩, last ?_⟩
    intro c hc
    rcases List.mem_cons.1 hc with rfl | hc
    · exact isWordByte_of_isNameStart start
    · exact part c hc
  | whole start part =>
    refine ⟨⟨_, rfl, (isSafe_and_isSolid_of_isWordByte (isWordByte_of_isDigitByte start)).2⟩, last ?_⟩
    intro c hc
    rcases List.mem_cons.1 hc with rfl | hc
    · exact isWordByte_of_isDigitByte start
    · exact isWordByte_of_isDigitByte (part c hc)
  | @decimal b bs d ds start part first fraction =>
    refine ⟨⟨_, rfl, (isSafe_and_isSolid_of_isWordByte (isWordByte_of_isDigitByte start)).2⟩, ?_⟩
    obtain ⟨c, hc, solid⟩ := @last d ds (by
      intro c hc
      rcases List.mem_cons.1 hc with rfl | hc
      · exact isWordByte_of_isDigitByte first
      · exact isWordByte_of_isDigitByte (fraction c hc))
    refine ⟨c, ?_, solid⟩
    rw [List.getLast?_append_of_ne_nil _ (by simp), List.getLast?_cons_of_ne_nil (by simp)]
    exact hc
  | quotedName content => exact ⟨⟨_, rfl, by decide⟩, ascii '"', List.getLast?_concat, by decide⟩
  | string content => exact ⟨⟨_, rfl, by decide⟩, ascii '\'', List.getLast?_concat, by decide⟩
  | escape content => exact ⟨⟨_, rfl, by decide⟩, ascii '\'', List.getLast?_concat, by decide⟩

/-! ### Words -/

namespace Word

/-- A blank is skipped. -/
lemma words?_space (rest : List UInt8) : words? (ascii ' ' :: rest) = words? rest := by
  rw [words?, if_pos (by decide)]

/-- A word at the front, and the words behind it. -/
lemma words?_of_wordAt {b : UInt8} {bs rest : List UInt8} {kind : Kind} (solid : isSolid b = true)
    (h : wordAt b (bs ++ rest) = some (kind, bs.length)) :
    words? (b :: bs ++ rest) = (words? rest).map (⟨kind, b :: bs⟩ :: ·) := by
  have table : ∀ b : UInt8, isSolid b = true → isBlankByte b = false := forall_byte (by decide)
  rw [List.cons_append, words?, table b solid, if_neg (by decide), h]
  dsimp only
  rw [List.take_left' rfl, List.drop_left' rfl]

/-- Punctuation is a word of its own. -/
lemma words?_punctuation {b : UInt8} (h : isPunctuation b = true) (rest : List UInt8) :
    words? (b :: rest) = (words? rest).map (⟨.punctuation, [b]⟩ :: ·) := by
  have table : ∀ b : UInt8, isPunctuation b = true → isBlankByte b = false ∧ b ≠ ascii '"' ∧
      b ≠ ascii '\'' ∧ isNameStart b = false ∧ isDigitByte b = false := forall_byte (by decide)
  obtain ⟨noBlank, noName, noString, noStart, noDigit⟩ := table b h
  have word : wordAt b rest = some (.punctuation, 0) := by
    simp [wordAt, noName, noString, noStart, noDigit, h]
  rw [words?, noBlank, if_neg (by decide), word]
  rfl

/-- A star before a space is a word of its own. -/
lemma words?_star (rest : List UInt8) :
    words? (ascii '*' :: ascii ' ' :: rest) = (words? rest).map (⟨.other, [ascii '*']⟩ :: ·) := by
  have word : wordAt (ascii '*') (ascii ' ' :: rest) = some (.other, 0) := rfl
  rw [words?, if_neg (by decide), word]
  exact congrArg (Option.map _) (words?_space rest)

/-- The part of a byte string that a condition takes ends where the condition fails. -/
lemma length_takeWhile_append {p : UInt8 → Bool} {bs rest : List UInt8} (all : ∀ b ∈ bs, p b = true)
    (stop : ∀ b ∈ rest.head?, p b = false) : ((bs ++ rest).takeWhile p).length = bs.length := by
  rw [List.takeWhile_append_of_pos all]
  cases rest with
  | nil => simp
  | cons b rest => simp [stop b rfl]

/-- A name goes as far as its bytes. -/
lemma wordAt_name {b : UInt8} {bs rest : List UInt8} (start : isNameStart b = true)
    (part : ∀ c ∈ bs, isWordByte c = true) (ends : Ends rest) :
    wordAt b (bs ++ rest) = some (.name, bs.length) := by
  have table : ∀ b : UInt8, isNameStart b = true → b ≠ ascii '"' ∧ b ≠ ascii '\'' :=
    forall_byte (by decide)
  have quote : ∀ b : UInt8, isWordByte b = true → b ≠ ascii '\'' := forall_byte (by decide)
  have length : ((bs ++ rest).takeWhile isNamePart).length = bs.length := by
    refine length_takeWhile_append (fun c hc => by simp [isNamePart, part c hc]) (fun c hc => ?_)
    obtain ⟨noWord, noDollar, -⟩ := ends c hc
    simp [isNamePart, noWord, noDollar]
  -- a quote behind the letter E would open a string
  have noString : ∀ q ∈ (bs ++ rest).head?, q ≠ ascii '\'' := by
    intro q hq
    cases bs with
    | nil => exact (ends q hq).2.2.1
    | cons c bs =>
      cases hq
      exact quote _ (part _ List.mem_cons_self)
  rw [wordAt, if_neg (by simpa using (table b start).1), if_neg (by simpa using (table b start).2),
    if_pos start, length]
  split
  · next q more hq =>
    rw [if_neg]
    have := noString q (by rw [hq]; rfl)
    simp [this]
  · rfl

/-- A number goes as far as its digits, and past a dot only if a digit follows. -/
lemma wordAt_number {b : UInt8} {bs rest : List UInt8} (start : isDigitByte b = true)
    (length : numberLength (bs ++ rest) = bs.length) :
    wordAt b (bs ++ rest) = some (.number, bs.length) := by
  have table : ∀ b : UInt8, isDigitByte b = true → b ≠ ascii '"' ∧ b ≠ ascii '\'' ∧
      isNameStart b = false := forall_byte (by decide)
  obtain ⟨noName, noString, noStart⟩ := table b start
  simp [wordAt, noName, noString, noStart, start, length]

/-- The words of an atom and of what follows it. -/
lemma words?_atom {bs : List UInt8} {w : Word} (a : Atom bs w) {rest : List UInt8} (ends : Ends rest)
    (noDot : w.kind = .number → rest.head? ≠ some (ascii '.')) :
    words? (bs ++ rest) = (words? rest).map (w :: ·) := by
  obtain ⟨⟨b, hb, solid⟩, -⟩ := a.isSolid
  have noDigit : ∀ c ∈ rest.head?, isDigitByte c = false := by
    intro c hc
    have table : ∀ b : UInt8, isWordByte b = false → isDigitByte b = false :=
      forall_byte (by decide)
    exact table c (ends c hc).1
  cases a with
  | name start part =>
    cases hb
    exact words?_of_wordAt solid (wordAt_name start part ends)
  | @whole b bs start part =>
    cases hb
    refine words?_of_wordAt solid (wordAt_number start ?_)
    rw [numberLength, length_takeWhile_append part noDigit, List.drop_left' rfl]
    split
    · next dot d more =>
      have : dot ≠ ascii '.' := fun e => noDot rfl (congrArg some e)
      rw [if_neg (by simp [this])]
    · rfl
  | @decimal b bs d ds start part first fraction =>
    cases hb
    rw [List.cons_append]
    refine words?_of_wordAt solid (wordAt_number start ?_)
    have stop : ∀ c ∈ (ascii '.' :: d :: (ds ++ rest)).head?, isDigitByte c = false := by
      rintro c ⟨⟩
      decide
    rw [List.append_assoc, List.cons_append, List.cons_append, numberLength,
      length_takeWhile_append part stop, List.drop_left' rfl]
    simp only [beq_self_eq_true, first, Bool.and_self, if_true,
      length_takeWhile_append fraction noDigit, List.length_append, List.length_cons]
    omega
  | quotedName content =>
    cases hb
    rw [List.cons_append]
    refine words?_of_wordAt solid ?_
    have length := literalLength?_of_enclosed (enclosed_doubleByte (ascii '"') content)
      (fun h => (ends _ h).2.2.2 rfl : rest.head? ≠ some (ascii '"'))
    rw [wordAt, if_pos (by decide), List.append_assoc, List.singleton_append, length]
    simp
  | string content =>
    cases hb
    rw [List.cons_append]
    refine words?_of_wordAt solid ?_
    have length := literalLength?_of_enclosed (enclosed_doubleByte (ascii '\'') content)
      (fun h => (ends _ h).2.2.1 rfl : rest.head? ≠ some (ascii '\''))
    rw [wordAt, if_neg (by decide), if_pos (by decide), List.append_assoc, List.singleton_append, length]
    simp
  | escape content =>
    cases hb
    rw [List.cons_append]
    refine words?_of_wordAt solid ?_
    have length := literalLength?_of_enclosed
      (enclosed_doubleByte_backslash (by decide : ascii '\'' ≠ ascii '\\') false content)
      (fun h => (ends _ h).2.2.1 rfl : rest.head? ≠ some (ascii '\''))
    have run : ascii '\'' :: doubleByte (ascii '\\') (doubleByte (ascii '\'') content) ++
        [ascii '\''] ++ rest =
          ascii '\'' :: (doubleByte (ascii '\\') (doubleByte (ascii '\'') content) ++
            ascii '\'' :: rest) := by
      simp
    rw [run, wordAt, if_neg (by decide), if_neg (by decide), if_pos (by decide)]
    dsimp only
    rw [if_pos (by decide), length]
    simp

end Word

/-! ### Phrases -/

/-- The word of a punctuation mark. -/
def mark (c : Char) : Word := ⟨.punctuation, [ascii c]⟩

/-- The word that stands for all columns. -/
def star : Word := ⟨.other, [ascii '*']⟩

/-- A text that is made of words: atoms, dotted names, and phrases with spaces, commas and brackets
between and around them. -/
inductive Phrase : List UInt8 → List Word → Prop
  | atom {bs : List UInt8} {w : Word} (a : Atom bs w) : Phrase bs [w]
  | dotted {bs cs : List UInt8} {w : Word} {ws : List Word} (a : Atom bs w) (kind : w.kind ≠ .number)
      (rest : Phrase cs ws) : Phrase (bs ++ ascii '.' :: cs) (w :: mark '.' :: ws)
  | spaced {bs cs : List UInt8} {ws vs : List Word} (left : Phrase bs ws) (right : Phrase cs vs) :
      Phrase (bs ++ ascii ' ' :: cs) (ws ++ vs)
  | listed {bs cs : List UInt8} {ws vs : List Word} (left : Phrase bs ws) (right : Phrase cs vs) :
      Phrase (bs ++ ascii ',' :: ascii ' ' :: cs) (ws ++ mark ',' :: vs)
  | parens {bs : List UInt8} {ws : List Word} (inner : Phrase bs ws) :
      Phrase (ascii '(' :: bs ++ [ascii ')']) (mark '(' :: ws ++ [mark ')'])
  | unit : Phrase [ascii '(', ascii ')'] [mark '(', mark ')']
  | behind {bs cs : List UInt8} {ws vs : List Word} (left : Phrase bs ws)
      (right : Phrase (ascii '(' :: cs) vs) : Phrase (bs ++ ascii '(' :: cs) (ws ++ vs)
  | brackets {bs : List UInt8} {ws : List Word} (left : Phrase bs ws) :
      Phrase (bs ++ [ascii '[', ascii ']']) (ws ++ [mark '[', mark ']'])
  | star {bs : List UInt8} {ws : List Word} (rest : Phrase bs ws) :
      Phrase (ascii '*' :: ascii ' ' :: bs) (star :: ws)

namespace Phrase

/-- A phrase is not empty. -/
lemma ne_nil {bs : List UInt8} {ws : List Word} (h : Phrase bs ws) : bs ≠ [] := by
  cases h with
  | atom a =>
    obtain ⟨⟨b, hb, -⟩, -⟩ := a.isSolid
    exact fun e => by rw [e] at hb; cases hb
  | _ => simp

/-- A phrase ends with a solid byte. -/
lemma exists_getLast {bs : List UInt8} {ws : List Word} (h : Phrase bs ws) :
    ∃ b, bs.getLast? = some b ∧ isSolid b = true := by
  induction h with
  | atom a => exact a.isSolid.2
  | dotted a kind rest ih =>
    rw [List.getLast?_append_of_ne_nil _ (by simp), List.getLast?_cons_of_ne_nil rest.ne_nil]
    exact ih
  | spaced left right ihl ihr =>
    rw [List.getLast?_append_of_ne_nil _ (by simp), List.getLast?_cons_of_ne_nil right.ne_nil]
    exact ihr
  | listed left right ihl ihr =>
    rw [List.getLast?_append_of_ne_nil _ (by simp), List.getLast?_cons_of_ne_nil (by simp),
      List.getLast?_cons_of_ne_nil right.ne_nil]
    exact ihr
  | parens inner ih => exact ⟨ascii ')', List.getLast?_concat, by decide⟩
  | unit => exact ⟨ascii ')', rfl, by decide⟩
  | behind left right ihl ihr =>
    rw [List.getLast?_append_of_ne_nil _ (by simp)]
    exact ihr
  | brackets left ih =>
    exact ⟨ascii ']', by rw [List.getLast?_append_of_ne_nil _ (by simp)]; rfl, by decide⟩
  | star rest ih =>
    rw [List.getLast?_cons_of_ne_nil (by simp), List.getLast?_cons_of_ne_nil rest.ne_nil]
    exact ih

/-- A phrase starts with a visible byte. -/
lemma exists_head {bs : List UInt8} {ws : List Word} (h : Phrase bs ws) :
    ∃ b, bs.head? = some b ∧ 32 < b ∧ b < 128 := by
  have table : ∀ b : UInt8, isSolid b = true → 32 < b ∧ b < 128 := forall_byte (by decide)
  have left {bs cs : List UInt8} (h : ∃ b, bs.head? = some b ∧ 32 < b ∧ b < 128) :
      ∃ b, (bs ++ cs).head? = some b ∧ 32 < b ∧ b < 128 := by
    obtain ⟨b, hb, solid⟩ := h
    exact ⟨b, by rw [List.head?_append, hb]; rfl, solid⟩
  induction h with
  | atom a =>
    obtain ⟨⟨b, hb, solid⟩, -⟩ := a.isSolid
    exact ⟨b, hb, table b solid⟩
  | dotted a kind rest ih =>
    obtain ⟨⟨b, hb, solid⟩, -⟩ := a.isSolid
    exact left ⟨b, hb, table b solid⟩
  | spaced _ _ ihl _ => exact left ihl
  | listed _ _ ihl _ => exact left ihl
  | parens _ _ => exact ⟨ascii '(', rfl, by decide⟩
  | unit => exact ⟨ascii '(', rfl, by decide⟩
  | behind _ _ ihl _ => exact left ihl
  | brackets _ ih => exact left ih
  | star _ _ => exact ⟨ascii '*', rfl, by decide⟩

/-- A phrase is cut into pieces that lay out the phrase, whatever follows it. -/
lemma exists_pieces {bs : List UInt8} {ws : List Word} (h : Phrase bs ws) :
    ∃ ps, Lays ps bs ∧
      ∀ rest, Stops rest → pieces .nothing (bs ++ rest) = ps ++ pieces .nothing rest := by
  have notOpen {bs : List UInt8} {ws : List Word} (h : Phrase bs ws) :
      ∃ b, bs.getLast? = some b ∧ b ≠ ascii '(' := by
    obtain ⟨b, hb, solid⟩ := h.exists_getLast
    exact ⟨b, hb, by rintro rfl; revert solid; decide⟩
  have opening : Lays [.other (ascii '(')] [ascii '('] := lays_singleton rfl (by decide)
  induction h with
  | atom a =>
    obtain ⟨ps, lays, cut⟩ := a.exists_pieces
    exact ⟨ps, lays, fun rest stops => cut rest stops.ends⟩
  | @dotted bs cs w ws a kind rest ih =>
    obtain ⟨ps, lays, cut⟩ := a.exists_pieces
    obtain ⟨qs, lays', cut'⟩ := ih
    refine ⟨ps ++ [.other (ascii '.')] ++ qs, ?_, fun more stops => ?_⟩
    · have both := (lays.append_tight (by decide : ascii '.' < 0x80)).append lays' rest.ne_nil
      rwa [List.append_assoc _ [ascii '.']] at both
    · have dot : Ends (ascii '.' :: (cs ++ more)) := by
        rintro _ ⟨⟩
        decide
      rw [List.append_assoc, List.cons_append, cut _ dot, pieces_punctuation (by decide), cut' more stops]
      simp
  | spaced left right ihl ihr =>
    obtain ⟨ps, lays, cut⟩ := ihl
    obtain ⟨qs, lays', cut'⟩ := ihr
    refine ⟨_, lays.append_gap lays' (notOpen left) right.ne_nil, fun rest stops => ?_⟩
    rw [List.append_assoc, List.cons_append, cut _ (stops_cons (by decide) _), pieces_space,
      cut' rest stops]
    simp
  | listed left right ihl ihr =>
    obtain ⟨ps, lays, cut⟩ := ihl
    obtain ⟨qs, lays', cut'⟩ := ihr
    have comma := lays.append_tight (by decide : ascii ',' < 0x80)
    refine ⟨ps ++ [.other (ascii ',')] ++ .blank (ascii ' ') :: qs, ?_, fun rest stops => ?_⟩
    · have both := comma.append_gap lays' ⟨_, List.getLast?_concat, by decide⟩ right.ne_nil
      rwa [List.append_assoc _ [ascii ',']] at both
    · rw [List.append_assoc, List.cons_append, List.cons_append, cut _ (stops_cons (by decide) _),
        pieces_punctuation (by decide), pieces_space, cut' rest stops]
      simp
  | parens inner ih =>
    obtain ⟨ps, lays, cut⟩ := ih
    refine ⟨_, (opening.append lays inner.ne_nil).append_tight (by decide : ascii ')' < 0x80),
      fun rest stops => ?_⟩
    rw [List.append_assoc, List.cons_append, pieces_punctuation (by decide), List.singleton_append,
      cut _ (stops_cons (by decide) _), pieces_punctuation (by decide)]
    simp
  | unit =>
    refine ⟨_, opening.append_tight (by decide : ascii ')' < 0x80), fun rest stops => ?_⟩
    rw [List.cons_append, List.singleton_append, pieces_punctuation (by decide),
      pieces_punctuation (by decide)]
    rfl
  | behind left right ihl ihr =>
    obtain ⟨ps, lays, cut⟩ := ihl
    obtain ⟨qs, lays', cut'⟩ := ihr
    refine ⟨_, lays.append lays' (by simp), fun rest stops => ?_⟩
    rw [List.append_assoc, cut (ascii '(' :: _ ++ rest) (stops_cons (by decide) _), cut' rest stops,
      List.append_assoc]
  | brackets left ih =>
    obtain ⟨ps, lays, cut⟩ := ih
    have closed := (lays.append_tight (by decide : ascii '[' < 0x80)).append_tight
      (by decide : ascii ']' < 0x80)
    rw [List.append_assoc, List.append_assoc] at closed
    refine ⟨_, closed, fun rest stops => ?_⟩
    rw [List.append_assoc, List.cons_append, List.singleton_append, cut _ (stops_cons (by decide) _),
      pieces_punctuation (by decide), pieces_punctuation (by decide)]
    simp
  | star rest ih =>
    obtain ⟨ps, lays, cut⟩ := ih
    have one : Lays [.other (ascii '*')] [ascii '*'] := lays_singleton rfl (by decide)
    refine ⟨_, one.append_gap lays ⟨_, rfl, by decide⟩ rest.ne_nil, fun more stops => ?_⟩
    rw [List.cons_append, List.cons_append, pieces_star, pieces_space, cut more stops]
    rfl

/-- The words of a phrase and of what follows it. -/
lemma words?_append {bs : List UInt8} {ws : List Word} (h : Phrase bs ws) {rest : List UInt8}
    (stops : Stops rest) : Word.words? (bs ++ rest) = (Word.words? rest).map (ws ++ ·) := by
  induction h generalizing rest with
  | atom a => exact Word.words?_atom a stops.ends fun _ => stops.ne_dot
  | @dotted bs cs w ws a kind tail ih =>
    have dot : Ends (ascii '.' :: (cs ++ rest)) := by
      rintro _ ⟨⟩
      decide
    rw [List.append_assoc, List.cons_append, Word.words?_atom a dot fun number => absurd number kind,
      Word.words?_punctuation (by decide), ih stops, Option.map_map, Option.map_map]
    rfl
  | spaced left right ihl ihr =>
    rw [List.append_assoc, List.cons_append, ihl (stops_cons (by decide) _), Word.words?_space, ihr stops,
      Option.map_map]
    simp [Function.comp_def]
  | listed left right ihl ihr =>
    rw [List.append_assoc, List.cons_append, List.cons_append, ihl (stops_cons (by decide) _),
      Word.words?_punctuation (by decide), Word.words?_space, ihr stops, Option.map_map, Option.map_map]
    simp [Function.comp_def, mark]
  | parens inner ih =>
    rw [List.append_assoc, List.cons_append, List.singleton_append,
      Word.words?_punctuation (by decide), ih (stops_cons (by decide) _),
      Word.words?_punctuation (by decide), Option.map_map, Option.map_map]
    simp [Function.comp_def, mark]
  | unit =>
    rw [List.cons_append, List.singleton_append, Word.words?_punctuation (by decide),
      Word.words?_punctuation (by decide), Option.map_map]
    rfl
  | @behind bs cs ws vs left right ihl ihr =>
    have stop : Stops (ascii '(' :: cs ++ rest) := stops_cons (by decide) _
    rw [List.append_assoc, ihl stop, ihr stops, Option.map_map]
    simp [Function.comp_def]
  | brackets left ih =>
    rw [List.append_assoc, List.cons_append, List.singleton_append, ih (stops_cons (by decide) _),
      Word.words?_punctuation (by decide), Word.words?_punctuation (by decide), Option.map_map,
      Option.map_map]
    simp [Function.comp_def, mark]
  | star tail ih =>
    rw [List.cons_append, List.cons_append, Word.words?_star, ih stops, Option.map_map]
    rfl

/-- The words of a phrase. -/
lemma words?_eq {bs : List UInt8} {ws : List Word} (h : Phrase bs ws) : Word.words? bs = some ws := by
  have all := @words?_append _ _ h [] nofun
  rw [List.append_nil, Word.words?] at all
  simpa using all

end Phrase

end ErdSql.Script
