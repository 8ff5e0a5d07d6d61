import ErdSql.Proofs.Reading

/-!
# Reading field lines

Every constraint, type and field that can be written is cut into pieces whose tokens its reader takes,
and it is given back. A line that starts with a keyword is a field line where a field name follows the
keyword and its arguments.

* `Document.exists_constraints`: the constraints of a field.
* `Document.exists_fieldLine`: a whole field line.
-/

namespace ErdSql.Document

open ErdSql.Document.Parser ErdSql.Scan

/-! ### Texts of pieces -/

@[simp]
lemma chars_gap (c : Char) : (Piece.gap c).chars = [c] := rfl

@[simp]
lemma chars_name (s : String) : (Piece.name s).chars = s.toList := rfl

@[simp]
lemma chars_symbol (c : Char) : (Piece.symbol c).chars = [c] :=
  String.toList_singleton c

@[simp]
lemma chars_field (cardinality : Cardinality) (s : String) :
    (Piece.field cardinality s).chars = cardinality.sigil :: '.' :: s.toList := rfl

@[simp]
lemma chars_expr (s : String) : (Piece.expr s).chars = '(' :: (s.toList ++ [')']) := rfl

@[simp]
lemma chars_keywordPiece (k : Keyword) : (keywordPiece k).chars = k.word.toList := rfl

@[simp]
lemma chars_wordPiece (w : String) : (wordPiece w).chars = w.toList := rfl

lemma chars_columnPieces {columns : List String} (h : ∀ c ∈ columns, isIdentifier c = true) :
    chars (columnPieces columns) = (columnList columns).toList :=
  chars_listed (spelled_columns h)

/-- A literal that can be written is read back. -/
lemma exists_literal {l : Literal} (h : l.WellFormed) :
    ∃ ps, Spelled l.text ps ∧ Neutral ps ∧ Starts ps ∧ ∀ src p rest,
      Stands src p (chars ps) → NotCalled rest →
        Reads (literal (Text.slice src)) (tokensAt p ps ++ rest) rest (·.unplaced = l.unplaced) := by
  obtain ⟨ps, spelled, neutral, reads⟩ := exists_pieces h.1
  obtain ⟨starts, reads⟩ := reads l.kind rfl
  refine ⟨ps, spelled, neutral, starts, fun src p rest stands follows => ?_⟩
  refine (reads src p rest stands follows).mono ?_
  rintro ⟨kind, text, span⟩ ⟨rfl, rfl⟩
  have text : (if l.kind = .null then "NULL" else l.text) = l.text := by
    split
    · next null => exact (h.2 null).symm
    · rfl
  rw [text]
  rfl

/-! ### Constraints -/

/-- Pieces that start with a token other than a parenthesis. -/
def Uncalled (ps : List Piece) : Prop :=
  ∀ p, ∃ t ts, tokensAt p ps = t :: ts ∧ t.isSymbol '(' = false

/-- A constraint that can be written is read back. -/
lemma exists_clause {clause : Clause} (h : clause.WellFormed) :
    ∃ ps, Spelled clause.print ps ∧ Uncalled ps ∧ ∀ src p rest,
      Stands src p (chars ps) → NotCalled rest →
        Reads (constraint (Text.slice src)) (tokensAt p ps ++ rest) rest
          (·.clause.unplaced = clause.unplaced) := by
  cases clause with
  | primaryKey =>
    refine ⟨[keywordPiece .pk], ⟨rfl, fun after end_ => cuts_upper .pk end_ .nil⟩,
      fun p => ⟨_, _, rfl, rfl⟩, fun src p rest _ _ => ?_⟩
    exact .step .peek (.step .next (.pure rfl))
  | unique =>
    refine ⟨[keywordPiece .unique], ⟨rfl, fun after end_ => cuts_upper .unique end_ .nil⟩,
      fun p => ⟨_, _, rfl, rfl⟩, fun src p rest _ _ => ?_⟩
    exact .step .peek (.step .next (.pure rfl))
  | notNull =>
    refine ⟨[keywordPiece .not, .gap ' ', keywordPiece .null], ⟨rfl, fun after end_ => ?_⟩,
      fun p => ⟨_, _, rfl, rfl⟩, fun src p rest _ _ => ?_⟩
    · exact cuts_upper .not rfl (.blank (cuts_upper .null end_ .nil))
    · exact .step .peek (.step .next (.step (.satisfy _ rfl) (.pure rfl)))
  | default value =>
    obtain ⟨ps, ⟨text, cuts⟩, -, -, reads⟩ := exists_literal h
    refine ⟨keywordPiece .default :: .gap ' ' :: ps, ⟨?_, fun after end_ => ?_⟩,
      fun p => ⟨_, _, rfl, rfl⟩, fun src p rest stands follows => ?_⟩
    · simp [text, Clause.print, Keyword.word]
    · exact cuts_upper .default rfl (.blank (cuts after end_))
    · have whole : Stands src p ("DEFAULT ".toList ++ chars ps) := stands
      refine .step .peek (.step .next ((reads src _ rest whole.right follows).bind fun l hl => ?_))
      refine Reads.previous.bind fun _ _ => .pure ?_
      exact congrArg Clause.default hl
  | foreignKey target =>
    cases target with
    | none =>
      refine ⟨[keywordPiece .fk], ⟨rfl, fun after end_ => cuts_upper .fk end_ .nil⟩,
        fun p => ⟨_, _, rfl, rfl⟩, fun src p rest _ follows => ?_⟩
      exact .step .peek (.step .next (.step (.seesNot follows) (.pure rfl)))
    | some target =>
      refine ⟨[keywordPiece .fk, .symbol '(', .name target, .symbol ')'], ⟨?_, fun after end_ => ?_⟩,
        fun p => ⟨_, _, rfl, rfl⟩, fun src p rest _ _ => ?_⟩
      · simp [Clause.print, Keyword.word]
      · exact cuts_upper .fk rfl (.mark (by decide) (cuts_identifier h rfl (.mark (by decide) .nil)))
      · refine .step .peek (.step .next (.step (.sees rfl) (.step .next ?_)))
        refine .step (.satisfy _ (isName_nameToken _ target target.toList)) ?_
        exact .step (.satisfy _ rfl) (.pure rfl)
  | check expr =>
    refine ⟨[keywordPiece .check, .gap ' ', .expr expr], ⟨?_, fun after end_ => ?_⟩,
      fun p => ⟨_, _, rfl, rfl⟩, fun src p rest _ _ => ?_⟩
    · simp [Clause.print, Keyword.word]
    · exact cuts_upper .check rfl (.blank (.expr h .nil))
    · exact .step .peek (.step .next (.step (.satisfy _ rfl) (.pure rfl)))

/-- A text behind a lexeme, which it ends. -/
structure Trailing (s : String) (ps : List Piece) : Prop extends Spelled s ps where
  stops : ∀ after, ends after = true → ends (chars ps ++ after) = true

lemma trailing_nil : Trailing "" [] :=
  ⟨⟨rfl, fun _ _ => .nil⟩, fun _ end_ => end_⟩

/-- A text behind a blank, and more behind it. -/
lemma Spelled.trailing {s t : String} {ps qs : List Piece} (h : Spelled s ps) (behind : Trailing t qs) :
    Trailing (" " ++ s ++ t) (.gap ' ' :: (ps ++ qs)) := by
  refine ⟨⟨?_, fun after end_ => ?_⟩, fun _ _ => rfl⟩
  · simp [h.text, behind.text]
  · exact .blank ((h.cuts _ (behind.stops after end_)).append (behind.cuts after end_))

/-- One constraint is put in front of the constraints behind it. -/
lemma constraints_step {src : Source} {input middle : List Token} {P : Constraint → Prop}
    (first : Reads (constraint src) input middle P) (shorter : middle.length < input.length)
    (span : Span) (previous : Token) (atEnd : Bool) : ∃ k span' previous', P k ∧
      constraints src span ⟨previous, input, atEnd⟩ =
        let (ks, all, fault, stopped) := constraints src span' ⟨previous', middle, atEnd⟩
        (k :: ks, all, fault, stopped) := by
  obtain ⟨k, previous', eq, hk⟩ := first previous atEnd
  refine ⟨k, span.extend previous', previous', hk, ?_⟩
  have more : input.isEmpty = false := by
    cases input with
    | nil => exact absurd shorter (Nat.not_lt_zero _)
    | cons t ts => rfl
  rw [constraints, if_neg (by simp [more]), eq]
  dsimp only
  rw [if_pos shorter]

/-- Constraints that can be written are read one by one. -/
lemma exists_constraints {ks : List Constraint} (h : ∀ k ∈ ks, k.clause.WellFormed) :
    ∃ ps, Trailing (printConstraints ks) ps ∧ (∀ p, NotCalled (tokensAt p ps)) ∧
      ∀ src p, Stands src p (chars ps) → ∀ span previous atEnd, ∃ ks' span' previous',
        constraints (Text.slice src) span ⟨previous, tokensAt p ps, atEnd⟩ =
          (ks', span', none, ⟨previous', [], atEnd⟩) ∧
            ks'.map (·.unplaced) = ks.map (·.unplaced) := by
  induction ks with
  | nil =>
    refine ⟨[], trailing_nil, fun p => notCalled_nil, fun src p _ span previous atEnd => ?_⟩
    exact ⟨[], span, previous, by rw [constraints]; rfl, rfl⟩
  | cons k ks ih =>
    obtain ⟨first, others⟩ := List.forall_mem_cons.1 h
    obtain ⟨ps, spelled, uncalled, reads⟩ := exists_clause first
    obtain ⟨qs, trailing, called, readsRest⟩ := ih others
    refine ⟨.gap ' ' :: (ps ++ qs), spelled.trailing trailing, fun p => ?_,
      fun src p stands span previous atEnd => ?_⟩
    · obtain ⟨t, ts, e, ht⟩ := uncalled (p.advance ' ')
      rw [tokensAt, tokensAt_append, e]
      exact notCalled_cons ht _
    · have whole : Stands src p ([' '] ++ (chars ps ++ chars qs)) := by
        rw [chars_cons, chars_append] at stands
        exact stands
      obtain ⟨t, ts, e, -⟩ := uncalled (p.advance ' ')
      have one := reads src (p.advance ' ') (tokensAt ((p.advance ' ').advanceBy (chars ps)) qs)
        whole.right.left (called _)
      obtain ⟨k', span', previous', hk, eq⟩ := constraints_step one (by simp [e]) span previous atEnd
      obtain ⟨ks', span'', previous'', eqs, hks⟩ :=
        readsRest src _ whole.right.right span' previous' atEnd
      refine ⟨k' :: ks', span'', previous'', ?_, ?_⟩
      · rw [tokensAt, tokensAt_append, eq]
        exact congrArg (fun r => (k' :: r.1, r.2)) eqs
      · rw [List.map_cons, List.map_cons, hks, Constraint.unplaced, Constraint.unplaced, hk]

/-! ### Types and fields -/

lemma isName_of_isTypeText {s : String} (h : isTypeText s = true) : isName s = true := by
  simp only [isTypeText, Bool.or_eq_true, Bool.and_eq_true] at h
  rcases h with identifier | keyword
  · exact isName_of_isIdentifier identifier
  · exact keyword.1

/-- The token of a type name: an identifier or a keyword other than `HAS`. -/
lemma nameToken_of_isTypeText {s : String} (h : isTypeText s = true) :
    nameToken s.toList = .identifier ∨
      ∃ k, Keyword.ofText? s = some k ∧ nameToken s.toList = .keyword k ∧ k ≠ .has := by
  simp only [isTypeText, Bool.or_eq_true, Bool.and_eq_true, Option.any_eq_true, bne_iff_ne] at h
  rcases h with identifier | ⟨-, k, hk, ne⟩
  · exact .inl (nameToken_of_isIdentifier identifier)
  · exact .inr ⟨k, hk, nameToken_of_keyword hk, ne⟩

lemma isTypeName_of_isTypeText {s : String} (h : isTypeText s = true) (p : Position) :
    isTypeName (tokenAt p (nameToken s.toList) s s.toList) = true := by
  rcases nameToken_of_isTypeText h with identifier | ⟨k, -, keyword, ne⟩
  · rw [identifier]
    rfl
  · rw [keyword]
    cases k with
    | has => exact absurd rfl ne
    | _ => rfl

/-- No expression is expected behind a type name other than `CHECK`. -/
lemma opensExpr_of_isTypeText {s : String} (h : isTypeText s = true)
    (check : Keyword.ofText? s ≠ some .check) : opensExpr (nameToken s.toList) s = false := by
  simp only [isTypeText, Bool.or_eq_true, Bool.and_eq_true, Option.any_eq_true, bne_iff_ne] at h
  rcases h with identifier | ⟨-, k, hk, -⟩
  · exact opensExpr_of_isIdentifier identifier
  · rw [nameToken_of_keyword hk]
    cases k with
    | check => exact absurd hk check
    | _ => rfl

/-- Reads a field behind the name of its type. -/
def fieldBehindType (src : Source) (start : Token) (has : Bool) (type : Token) : Parser Field := do
  if ← sees (·.isSymbol '(') then
    let (args, close) ← typeArguments src
    let (t, cardinality) ← fieldName
    return ⟨has, ⟨type.spelling, args, Span.between type close⟩, cardinality, t.spelling, [],
      Span.between start t⟩
  else
    let (t, cardinality) ← fieldName
    return ⟨has, ⟨type.spelling, [], type.span⟩, cardinality, t.spelling, [], Span.between start t⟩

lemma reads_fieldName {u : Token} {cardinality : Cardinality} (h : u.kind = .field cardinality)
    (rest : List Token) : Reads fieldName (u :: rest) rest (· = (u, cardinality)) := by
  refine .step .peek ?_
  rw [h]
  exact .step .next (.pure rfl)

/-- Behind a list the next token decides whether a line is a field line. -/
lemma fieldBehindArguments_listed {pss : List (List Piece)} (h : Neutral (joined pss)) (p : Position)
    (rest : List Token) : ∃ close : Token, fieldBehindArguments 0 (tokensAt p (listed pss) ++ rest) =
      fieldBehindArguments 1 (close :: rest) ∧ close.isSymbol '(' = false ∧ close.isSymbol ')' = true := by
  refine ⟨tokenAt ((p.advanceBy ['(']).advanceBy (chars (joined pss))) .symbol ")" [')'], ?_, rfl, rfl⟩
  rw [tokensAt_listed]
  exact (h _ 0 _).2

/-- What the literals of a list are cut into, one by one. -/
lemma exists_literals {ls : List Literal} (h : ∀ l ∈ ls, l.WellFormed) :
    ∃ pss, List.Forall₂ Spelled (ls.map (·.text)) pss ∧ (∀ ps ∈ pss, Neutral ps) ∧
      ∀ src, List.Forall₂ (fun l ps => Starts ps ∧ ∀ p rest, Stands src p (chars ps) →
        NotCalled rest → Reads (literal (Text.slice src)) (tokensAt p ps ++ rest) rest (·.unplaced = l))
          (ls.map (·.unplaced)) pss := by
  induction ls with
  | nil => exact ⟨[], .nil, nofun, fun _ => .nil⟩
  | cons l ls ih =>
    obtain ⟨first, others⟩ := List.forall_mem_cons.1 h
    obtain ⟨ps, spelled, neutral, starts, reads⟩ := exists_literal first
    obtain ⟨pss, spelled', neutral', reads'⟩ := ih others
    refine ⟨ps :: pss, .cons spelled spelled', List.forall_mem_cons.2 ⟨neutral, neutral'⟩, fun src => ?_⟩
    exact .cons ⟨starts, reads src⟩ (reads' src)

/-- What the arguments of a type are cut into, and that a field is read behind them. -/
lemma exists_arguments {t : TypeRef} (h : t.WellFormed) :
    ∃ ps, t.name.toList ++ chars ps = t.print.toList ∧
      (∀ qs after, (∀ opens, Cuts opens (.gap ' ' :: qs) false after) →
        Cuts false (.name t.name :: (ps ++ .gap ' ' :: qs)) false after) ∧
      ∀ u cardinality, u.kind = .field cardinality →
        (∀ p head rest, startsField (head :: (tokensAt p ps ++ u :: rest)) = true) ∧
        ∀ src p start has type rest, Stands src p (chars ps) →
          Reads (fieldBehindType (Text.slice src) start has type) (tokensAt p ps ++ u :: rest) rest fun f =>
            f.unplaced = ⟨has, ⟨type.spelling, t.args.map (·.unplaced), .zero⟩, cardinality, u.spelling,
              [], .zero⟩ := by
  by_cases none : t.args = []
  · refine ⟨[], ?_, fun qs after rest => ?_, fun u cardinality hu => ⟨fun p head rest => ?_, ?_⟩⟩
    · simp [TypeRef.print, none]
    · exact .name (isName_of_isTypeText h.name) rfl (rest _)
    · have symbol : u.isSymbol '(' = false := isSymbol_of_kind (by simp [hu]) _
      rw [tokensAt, List.nil_append, startsField.eq_def]
      simp [symbol, hu]
    · intro src p start has type rest _
      have symbol : u.isSymbol '(' = false := isSymbol_of_kind (by simp [hu]) _
      refine .step (.seesNot (notCalled_cons symbol rest)) (.step (reads_fieldName hu rest) (.pure ?_))
      rw [none]
      rfl
  · obtain ⟨pss, spelled, neutral, reads⟩ := exists_literals h.args
    refine ⟨listed pss, ?_, fun qs after rest => ?_, fun u cardinality hu => ⟨fun p head rest => ?_, ?_⟩⟩
    · rw [chars_listed spelled]
      simp [TypeRef.print, none]
    · refine .name (isName_of_isTypeText h.name) rfl ?_
      rw [opensExpr_of_isTypeText h.name fun check => none (h.check check)]
      exact (cuts_listed spelled _).append (rest false)
    · obtain ⟨close, behind, opening, closing⟩ := fieldBehindArguments_listed (neutral_joined neutral) p (u :: rest)
      rw [tokensAt_listed] at behind ⊢
      change fieldBehindArguments 0 _ = true
      rw [behind, fieldBehindArguments.eq_def]
      simp [opening, closing, hu]
    · intro src p start has type rest stands
      rw [tokensAt_listed]
      refine .step (.sees rfl) ?_
      rw [← tokensAt_listed]
      have args := reads_typeArguments (reads src) (by simpa using none) stands (u :: rest)
      refine args.bind ?_
      rintro ⟨ls, close⟩ hls
      refine .step (reads_fieldName hu rest) (.pure ?_)
      rw [← hls]
      rfl

/-! ### Field lines -/

/-- A line is read back at every place, without a fault. -/
def Restores (item : LineItem) (ps : List Piece) : Prop :=
  (∀ p, tokensAt p ps ≠ []) ∧ ∀ src p, Stands src p (chars ps) → ∀ previous atEnd, ∃ item' last,
    entityLine (Text.slice src) ⟨previous, tokensAt p ps, atEnd⟩ = ⟨some item', none, last⟩ ∧
      item'.unplaced = item.unplaced

lemma fieldHead_eq (src : Source) : fieldHead src = (do
    let start ← peek
    let has ← sees (·.isKeyword .has)
    if has then
      let _ ← next
      satisfy isTypeName .typeName >>= fieldBehindType src start has
    else satisfy isTypeName .typeName >>= fieldBehindType src start has) :=
  rfl

/-- A field line is read if its head and its constraints are. -/
lemma fieldLine_of_reads {src : Source} {f : Field} {input middle : List Token}
    (head : Reads (fieldHead src) input middle fun g => g.unplaced = { f.unplaced with constraints := [] })
    (tail : ∀ span previous atEnd, ∃ ks span' previous',
      constraints src span ⟨previous, middle, atEnd⟩ = (ks, span', none, ⟨previous', [], atEnd⟩) ∧
        ks.map (·.unplaced) = f.constraints.map (·.unplaced)) (previous : Token) (atEnd : Bool) :
    ∃ g last, fieldLine src ⟨previous, input, atEnd⟩ = ⟨some (.field g), none, last⟩ ∧
      g.unplaced = f.unplaced := by
  obtain ⟨g, previous', eq, hg⟩ := head previous atEnd
  obtain ⟨ks, span, previous'', eqs, hks⟩ := tail g.span previous' atEnd
  refine ⟨{ g with constraints := ks, span := span }, previous'', ?_, ?_⟩
  · rw [fieldLine, eq]
    dsimp only
    rw [eqs]
  · simp only [Field.unplaced, Field.mk.injEq] at hg ⊢
    obtain ⟨has, type, cardinality, name, -, -⟩ := hg
    exact ⟨has, type, cardinality, name, hks, trivial⟩

lemma entityLine_of_identifier {src : Source} {c : Cursor} (h : c.current.kind = .identifier) :
    entityLine src c = fieldLine src c := by
  rw [entityLine, h]

lemma entityLine_of_startsField {src : Source} {c : Cursor} {k : Keyword}
    (h : c.current.kind = .keyword k) (starts : startsField c.rest = true) :
    entityLine src c = fieldLine src c := by
  rw [entityLine, h]
  dsimp only
  rw [if_pos starts]

lemma entityLine_of_has {src : Source} {c : Cursor} (h : c.current.kind = .keyword .has) :
    entityLine src c = fieldLine src c := by
  rw [entityLine, h]
  dsimp only
  split <;> rfl

/-- A field from the name of its type on. -/
def Field.printTyped (f : Field) : String :=
  f.type.print ++ " " ++ String.singleton f.cardinality.sigil ++ "." ++ f.name ++
    printConstraints f.constraints

/-- What a field is cut into from the name of its type on, and that it is read back. -/
lemma exists_typedField {f : Field} (h : f.WellFormed) : ∃ ps, Spelled f.printTyped ps ∧
    (∀ p, ∃ t ts, tokensAt p ps = t :: ts ∧ t.kind = nameToken f.type.name.toList) ∧
    ∀ src p, Stands src p (chars ps) → startsField (tokensAt p ps) = true ∧ ∃ middle,
      (∀ span previous atEnd, ∃ ks span' previous',
        constraints (Text.slice src) span ⟨previous, middle, atEnd⟩ =
          (ks, span', none, ⟨previous', [], atEnd⟩) ∧
          ks.map (·.unplaced) = f.constraints.map (·.unplaced)) ∧
      ∀ start has, Reads (satisfy isTypeName .typeName >>= fieldBehindType (Text.slice src) start has)
        (tokensAt p ps) middle fun g => g.unplaced = { f.unplaced with has := has, constraints := [] } := by
  obtain ⟨args, text, cuts, fields⟩ := exists_arguments h.type
  obtain ⟨ks, trailing, -, reads⟩ := exists_constraints h.constraints
  refine ⟨.name f.type.name :: (args ++ .gap ' ' :: .field f.cardinality f.name :: ks),
    ⟨?_, fun after end_ => cuts _ after fun opens => ?_⟩,
    fun p => ⟨_, _, rfl, kind_tokenAt ..⟩, fun src p stands => ?_⟩
  · simp [Field.printTyped, ← text, trailing.text]
  · exact .blank (.field h.name _ (trailing.stops after end_) (trailing.cuts after end_))
  · have whole : Stands src p (f.type.name.toList ++ (chars args ++
        (' ' :: f.cardinality.sigil :: '.' :: f.name.toList ++ chars ks))) := by
      simp only [chars_cons, chars_append] at stands
      exact stands
    obtain ⟨u, q, kind, spelling, standing, tokens⟩ : ∃ u q, u.kind = .field f.cardinality ∧
        u.spelling = f.name ∧ Stands src q (chars ks) ∧
        tokensAt p (.name f.type.name :: (args ++ .gap ' ' :: .field f.cardinality f.name :: ks)) =
          tokenAt p (nameToken f.type.name.toList) f.type.name f.type.name.toList ::
            (tokensAt (p.advanceBy f.type.name.toList) args ++ u :: tokensAt q ks) := by
      refine ⟨tokenAt (((p.advanceBy f.type.name.toList).advanceBy (chars args)).advance ' ')
        (.field f.cardinality) f.name (f.cardinality.sigil :: '.' :: f.name.toList), _, rfl, rfl,
        whole.right.right.right, ?_⟩
      change _ :: tokensAt _ (args ++ _) = _
      rw [tokensAt_append]
      rfl
    obtain ⟨starts, read⟩ := fields u f.cardinality kind
    rw [tokens]
    refine ⟨starts _ _ _, _, reads src q standing, fun start has => ?_⟩
    refine .step (.satisfy _ (isTypeName_of_isTypeText h.type.name p)) ?_
    refine (read src _ start has _ _ whole.right.left).mono fun g hg => ?_
    rw [hg, spelling]
    rfl

/-- A field line that can be written is read back. -/
lemma exists_fieldLine {f : Field} (h : f.WellFormed) :
    ∃ ps, Spelled f.print ps ∧ Restores (.field f) ps := by
  obtain ⟨ps, spelled, head, reads⟩ := exists_typedField h
  cases has : f.has with
  | false =>
    refine ⟨ps, ?_, fun p => ?_, fun src p stands previous atEnd => ?_⟩
    · have text : f.print = f.printTyped := by
        rw [Field.print, has, if_neg Bool.false_ne_true, String.empty_append]
        rfl
      rw [text]
      exact spelled
    · obtain ⟨t, ts, e, -⟩ := head p
      rw [e]
      exact List.cons_ne_nil t ts
    · obtain ⟨starts, middle, tail, read⟩ := reads src p stands
      obtain ⟨t, ts, e, kind⟩ := head p
      rw [e] at starts read ⊢
      have first : Reads (fieldHead (Text.slice src)) (t :: ts) middle fun g =>
          g.unplaced = { f.unplaced with constraints := [] } := by
        rw [fieldHead_eq]
        refine .step .peek (.step (.seesNot (fails_of_head ?_ ?_)) ?_)
        · exact fun t ht => by simp [Token.isKeyword, ht]
        · rw [Token.isKeyword, kind]
          rcases nameToken_of_isTypeText h.type.name with identifier | ⟨k, -, keyword, ne⟩
          · rw [identifier]
            decide
          · rw [keyword]
            simpa using ne
        · refine (read t false).mono fun g hg => ?_
          rw [hg, Field.unplaced, has]
      obtain ⟨g, last, eq, hg⟩ := fieldLine_of_reads first tail previous atEnd
      refine ⟨.field g, last, ?_, congrArg LineItem.field hg⟩
      have current : (⟨previous, t :: ts, atEnd⟩ : Cursor).current.kind = nameToken f.type.name.toList :=
        kind
      rw [← eq]
      rcases nameToken_of_isTypeText h.type.name with identifier | ⟨k, -, keyword, -⟩
      · exact entityLine_of_identifier (current.trans identifier)
      · exact entityLine_of_startsField (current.trans keyword) starts
  | true =>
    refine ⟨.lexeme (.keyword .has) "has" :: .gap ' ' :: ps, ⟨?_, fun after end_ => ?_⟩,
      fun p => List.cons_ne_nil _ _, fun src p stands previous atEnd => ?_⟩
    · have text : f.print = "has " ++ f.printTyped := by
        rw [Field.print, has, if_pos rfl, Field.printTyped]
        simp only [String.append_assoc]
      simp [text, spelled.text, Piece.lexeme, Piece.chars]
    · have word : Keyword.ofText? "has" = some .has := by decide
      have cut := @cuts_keyword false false "has" .has (.gap ' ' :: ps) after (by decide) word rfl
        (.blank (spelled.cuts after end_))
      rwa [Piece.name, nameToken_of_keyword word] at cut
    · have whole : Stands src p ("has ".toList ++ chars ps) := stands
      obtain ⟨-, middle, tail, read⟩ := reads src _ whole.right
      have first : Reads (fieldHead (Text.slice src)) (tokensAt p (.lexeme (.keyword .has) "has" :: .gap ' ' :: ps))
          middle fun g => g.unplaced = { f.unplaced with constraints := [] } := by
        rw [fieldHead_eq]
        refine .step .peek (.step (.sees rfl) (.step .next ?_))
        refine (read _ true).mono fun g hg => ?_
        rw [hg, Field.unplaced, has]
      obtain ⟨g, last, eq, hg⟩ := fieldLine_of_reads first tail previous atEnd
      exact ⟨.field g, last, by rw [← eq]; exact entityLine_of_has rfl, congrArg LineItem.field hg⟩

end ErdSql.Document
