import ErdSql.Proofs.Grammar

/-!
# Cutting a line into tokens

A line is described by its pieces, white space and tokens with their texts. `Cuts` says that the
scanner cuts the line there, in front of a given text. What the scanner does with a token depends on
what stands behind it, so every lexeme has a lemma that says which text may follow.

* `Scan.Cuts.append`: two stretches of a line are cut one after the other.
* `Scan.Cuts.scanFrom_eq`: the scanner gives the tokens of the pieces.
-/

namespace ErdSql

/-! ### Places -/

namespace Position

lemma advanceBy_append (p : Position) (cs ds : List Char) :
    p.advanceBy (cs ++ ds) = (p.advanceBy cs).advanceBy ds :=
  List.foldl_append

lemma line_advance {c : Char} (h : c ≠ '\n') (p : Position) : (p.advance c).line = p.line := by
  rw [advance, if_neg (by simpa using h)]

lemma column_advance {c : Char} (h : c ≠ '\n') (p : Position) :
    (p.advance c).column = p.column + 1 := by
  rw [advance, if_neg (by simpa using h)]

lemma line_advanceBy (p : Position) (cs : List Char) :
    (p.advanceBy cs).line = p.line + cs.count '\n' := by
  induction cs generalizing p with
  | nil => rfl
  | cons c cs ih =>
    change ((p.advance c).advanceBy cs).line = _
    rw [ih]
    by_cases feed : c = '\n'
    · subst feed
      change p.line + 1 + cs.count '\n' = _
      rw [List.count_cons_self]
      omega
    · rw [line_advance feed, List.count_cons_of_ne feed]

lemma line_le_advanceBy (p : Position) (cs : List Char) : p.line ≤ (p.advanceBy cs).line := by
  rw [line_advanceBy]
  exact Nat.le_add_right _ _

end Position

namespace Scan

/-! ### Pieces -/

/-- A piece of a line: a white space character or a token. -/
inductive Piece where
  | gap (c : Char)
  | token (kind : Token.Kind) (spelling : String) (text : List Char)

namespace Piece

/-- The characters of a piece. -/
def chars : Piece → List Char
  | gap c => [c]
  | token _ _ text => text

/-- A token that is spelled as it is written. -/
def lexeme (kind : Token.Kind) (s : String) : Piece :=
  token kind s s.toList

/-- A name or keyword. -/
def name (s : String) : Piece :=
  lexeme (nameToken s.toList) s

/-- A character on its own. -/
def symbol (c : Char) : Piece :=
  lexeme .symbol (String.singleton c)

/-- A field name behind its sigil. -/
def field (cardinality : Cardinality) (s : String) : Piece :=
  token (.field cardinality) s (cardinality.sigil :: '.' :: s.toList)

/-- An expression in parentheses. -/
def expr (s : String) : Piece :=
  token .expr s ('(' :: (s.toList ++ [')']))

end Piece

/-- The text of some pieces. -/
def chars (ps : List Piece) : List Char :=
  ps.flatMap Piece.chars

/-- The token whose text starts at a place. -/
def tokenAt (p : Position) (kind : Token.Kind) (spelling : String) (text : List Char) : Token :=
  ⟨kind, spelling, p.line, p.column, p.offset, (p.advanceBy text).offset, (p.advanceBy text).line⟩

lemma kind_tokenAt (p : Position) (kind : Token.Kind) (spelling : String) (text : List Char) :
    (tokenAt p kind spelling text).kind = kind := rfl

/-- The tokens of some pieces that start at a place. -/
def tokensAt (p : Position) : List Piece → List Token
  | [] => []
  | .gap c :: ps => tokensAt (p.advance c) ps
  | .token kind spelling text :: ps =>
    tokenAt p kind spelling text :: tokensAt (p.advanceBy text) ps

@[simp]
lemma chars_nil : chars [] = [] := rfl

@[simp]
lemma chars_cons (piece : Piece) (ps : List Piece) : chars (piece :: ps) = piece.chars ++ chars ps :=
  rfl

@[simp]
lemma chars_append (ps qs : List Piece) : chars (ps ++ qs) = chars ps ++ chars qs :=
  List.flatMap_append

lemma tokensAt_append (p : Position) (ps qs : List Piece) :
    tokensAt p (ps ++ qs) = tokensAt p ps ++ tokensAt (p.advanceBy (chars ps)) qs := by
  induction ps generalizing p with
  | nil => rfl
  | cons piece ps ih =>
    rw [chars_cons, Position.advanceBy_append]
    cases piece with
    | gap c => exact ih _
    | token kind spelling text =>
      rw [List.cons_append, tokensAt, tokensAt, ih]
      rfl

/-! ### Cutting -/

/-- The scanner cuts a text into the given pieces when `after` stands behind it. It starts and stops
expecting an expression or not. -/
inductive Cuts : Bool → List Piece → Bool → List Char → Prop where
  | nil {opens after} :
    Cuts opens [] opens after
  | gap {opens opens' c ps after} :
    Text.isSpace c = true →
    c ≠ '\n' →
    Cuts opens ps opens' after →
    Cuts opens (.gap c :: ps) opens' after
  | token {opens opens' kind spelling c cs ps after} :
    step opens c (cs ++ (chars ps ++ after)) = .token kind spelling cs.length →
    kind ≠ .entity →
    kind ≠ .eof →
    Cuts (opensExpr kind spelling) ps opens' after →
    Cuts opens (.token kind spelling (c :: cs) :: ps) opens' after

lemma Cuts.append {opens opens' opens'' ps qs after} (first : Cuts opens ps opens' (chars qs ++ after))
    (last : Cuts opens' qs opens'' after) : Cuts opens (ps ++ qs) opens'' after := by
  generalize e : chars qs ++ after = behind at first
  induction first with
  | nil => exact last
  | gap space feed _ ih => exact .gap space feed (ih last e)
  | token cut block finish _ ih =>
    refine .token ?_ block finish (ih last e)
    change step _ _ (_ ++ (chars (_ ++ qs) ++ after)) = _
    rw [chars_append, List.append_assoc, e]
    exact cut

/-- An outcome with some tokens put in front. -/
def prepend (ts : List Token) (scan : Scan) : Scan :=
  { scan with tokens := ts ++ scan.tokens }

/-- White space is skipped. -/
lemma scanFrom_space {c : Char} (h : Text.isSpace c = true) (opens : Bool) (p : Position)
    (cs : List Char) : scanFrom opens p (c :: cs) = scanFrom opens (p.advance c) cs := by
  rw [scanFrom, step, if_pos h]
  rfl

/-- A token is put in front of what is scanned behind it. -/
lemma scanFrom_token {opens : Bool} {c : Char} {cs after : List Char} {kind : Token.Kind}
    {spelling : String} (h : step opens c (cs ++ after) = .token kind spelling cs.length)
    (p : Position) :
    scanFrom opens p (c :: (cs ++ after)) =
      prepend (tokensAt p [.token kind spelling (c :: cs)])
        (scanFrom (opensExpr kind spelling) (p.advanceBy (c :: cs)) after) := by
  rw [scanFrom, h]
  simp only [List.take_left', List.drop_left']
  rfl

/-- The scanner gives the tokens of the pieces and goes on behind them. -/
lemma Cuts.scanFrom_eq {opens opens' ps after} (h : Cuts opens ps opens' after) (p : Position) :
    scanFrom opens p (chars ps ++ after) =
      prepend (tokensAt p ps) (scanFrom opens' (p.advanceBy (chars ps)) after) := by
  induction h generalizing p with
  | nil => rfl
  | @gap _ _ c ps after space _ _ ih =>
    change scanFrom _ p (c :: (chars ps ++ after)) = _
    rw [scanFrom_space space, ih]
    rfl
  | @token _ _ kind spelling c cs ps after cut _ _ _ ih =>
    rw [chars_cons, List.append_assoc]
    change scanFrom _ p (c :: (cs ++ (chars ps ++ after))) = _
    rw [scanFrom_token cut, ih, Position.advanceBy_append]
    rfl

/-- The tokens of a line are neither entity markers nor the end of the document. -/
lemma Cuts.kind_of_mem {opens opens' ps after} (h : Cuts opens ps opens' after) {p : Position}
    {t : Token} (ht : t ∈ tokensAt p ps) : t.kind ≠ .entity ∧ t.kind ≠ .eof := by
  induction h generalizing p with
  | nil => cases ht
  | gap _ _ _ ih => exact ih ht
  | token _ block finish _ ih =>
    rcases List.mem_cons.1 ht with rfl | ht
    · exact ⟨block, finish⟩
    · exact ih ht

/-! ### What may stand behind a lexeme -/

/-- Whether a text ends the lexeme in front of it. -/
def ends : List Char → Bool
  | [] => true
  | c :: _ => Text.isSpace c || c == '(' || c == ')' || c == ','

/-- The first character of a text that ends a lexeme goes on with none. -/
lemma head_of_ends {c : Char} {cs : List Char} (h : ends (c :: cs) = true) :
    isNamePart c = false ∧ c.isDigit = false ∧ c ≠ '/' ∧ c ≠ '.' ∧ c ≠ '\'' ∧ c ≠ '"' := by
  have table : ∀ d : Char, d.toNat < 0x80 → ends [d] = true →
      isNamePart d = false ∧ d.isDigit = false ∧ d ≠ '/' ∧ d ≠ '.' ∧ d ≠ '\'' ∧ d ≠ '"' :=
    Text.forall_ascii (by decide)
  by_cases hc : c.toNat < 0x80
  · exact table c hc h
  -- beyond ASCII only white space ends a lexeme
  · have ne {d : Char} (hd : d.toNat < 0x80) : c ≠ d := by
      rintro rfl
      exact hc hd
    have space : Text.isSpace c = true := by
      simpa [ends, ne] using h
    refine ⟨?_, ?_, ne (by decide), ne (by decide), ne (by decide), ne (by decide)⟩
    · by_contra part
      rw [isSpace_of_isNamePart (by simpa using part)] at space
      cases space
    · by_contra digit
      have bounds := Char.isDigit_iff_toNat.1 (by simpa using digit)
      have nine : '9'.toNat < 0x80 := by decide
      omega

/-! ### Names -/

lemma startsName_append {cs : List Char} (h : startsName cs = true) (after : List Char) :
    startsName (cs ++ after) = true := by
  cases cs with
  | nil => cases h
  | cons c cs => exact h

lemma nameLength_pos_of_startsName {cs : List Char} (h : startsName cs = true) : 0 < nameLength cs := by
  cases cs with
  | nil => cases h
  | cons c cs =>
    have part : isNamePart c = true := by
      rw [isNamePart, Bool.or_eq_true]
      exact .inl h
    rw [nameLength, if_pos part]
    exact Nat.succ_pos _

lemma startsName_take_append {cs : List Char} {n : Nat} (pos : 0 < n) (start : startsName cs = true)
    (xs : List Char) : startsName (cs.take n ++ xs) = true := by
  obtain ⟨n, rfl⟩ := Nat.exists_eq_add_one_of_ne_zero pos.ne'
  refine startsName_append ?_ xs
  cases cs with
  | nil => cases start
  | cons c cs => exact start

/-- The name at the front ends where no name goes on. -/
lemma nameLength_take_append {xs : List Char} (stop : nameLength xs = 0) (cs : List Char) :
    nameLength (cs.take (nameLength cs) ++ xs) = nameLength cs := by
  induction cs with
  | nil => exact stop
  | cons c cs ih =>
    by_cases part : isNamePart c = true
    · have length : nameLength (c :: cs) = nameLength cs + 1 := by rw [nameLength, if_pos part]
      rw [length, List.take_succ_cons, List.cons_append, nameLength, if_pos part, ih]
    by_cases divider : ((c == '/' || c == '.') && startsName cs) = true
    · have length : nameLength (c :: cs) = nameLength cs + 1 := by
        rw [nameLength, if_neg part, if_pos divider]
      rw [Bool.and_eq_true] at divider
      have start := startsName_take_append (nameLength_pos_of_startsName divider.2) divider.2 xs
      rw [length, List.take_succ_cons, List.cons_append, nameLength, if_neg part, start,
        if_pos (Bool.and_eq_true_iff.2 ⟨divider.1, rfl⟩), ih]
    · have zero : nameLength (c :: cs) = 0 := by rw [nameLength, if_neg part, if_neg divider]
      rw [zero, List.take_zero, List.nil_append, stop]

/-- The name at the front ends where the lexeme ends. -/
lemma nameLength_append {cs after : List Char} (h : nameLength cs = cs.length)
    (end_ : ends after = true) : nameLength (cs ++ after) = cs.length := by
  have stop : nameLength after = 0 := by
    cases after with
    | nil => rfl
    | cons d ds =>
      obtain ⟨part, -, slash, dot, -⟩ := head_of_ends end_
      simp [nameLength, part, slash, dot]
  have whole := nameLength_take_append stop cs
  rwa [h, List.take_length] at whole

lemma name_of_isName {s : String} (h : isName s = true) :
    ∃ c cs, s.toList = c :: cs ∧ isNameStart c = true ∧ nameLength cs = cs.length := by
  rw [isName, Bool.and_eq_true, beq_iff_eq] at h
  cases e : s.toList with
  | nil =>
    rw [e] at h
    cases h.1
  | cons c cs =>
    rw [e] at h
    exact ⟨c, cs, rfl, h.1, (nameLength_cons_eq h.2).2⟩

/-- The characters that start a token of another kind do not start a name. -/
lemma mark_of_isNameStart {c : Char} (h : isNameStart c = true) :
    c ≠ '#' ∧ c ≠ ';' ∧ c ≠ ':' ∧ c ≠ '\'' ∧ c ≠ '"' ∧ c ≠ '[' ∧ c ≠ '(' ∧
      Cardinality.ofSigil? c = none := by
  have table : ∀ d : Char, d.toNat < 0x80 → isNameStart d = true →
      d ≠ '#' ∧ d ≠ ';' ∧ d ≠ ':' ∧ d ≠ '\'' ∧ d ≠ '"' ∧ d ≠ '[' ∧ d ≠ '(' ∧
        Cardinality.ofSigil? d = none := Text.forall_ascii (by decide)
  by_cases hc : c.toNat < 0x80
  · exact table c hc h
  · have ne {d : Char} (hd : d.toNat < 0x80) : c ≠ d := by
      rintro rfl
      exact hc hd
    refine ⟨ne ?_, ne ?_, ne ?_, ne ?_, ne ?_, ne ?_, ne ?_, ?_⟩
    iterate 7 decide
    simp [Cardinality.ofSigil?, ne]

/-- A name is one token. -/
lemma step_name {c : Char} {cs after : List Char} (start : isNameStart c = true)
    (length : nameLength cs = cs.length) (end_ : ends after = true) (opens : Bool) :
    step opens c (cs ++ after) =
      .token (nameToken (c :: cs)) (String.ofList (c :: cs)) cs.length := by
  have space : Text.isSpace c = false := isSpace_of_isNamePart (by simp [isNamePart, start])
  obtain ⟨comment, semicolon, colon, quote, double, bracket, parenthesis, sigil⟩ :=
    mark_of_isNameStart start
  simp [step, space, comment, semicolon, colon, quote, double, bracket, parenthesis, sigil, start,
    nameLength_append length end_]

/-- An entity marker is one token. -/
lemma step_entity {s : String} (h : isName s = true) {after : List Char} (end_ : ends after = true)
    (opens : Bool) :
    step opens ':' (s.toList ++ after) = .token .entity s s.toList.length := by
  rw [isName, Bool.and_eq_true, beq_iff_eq] at h
  have space : Text.isSpace ':' = false := by decide
  simp [step, space, startsName_append h.1, nameLength_append h.2 end_]

/-- A field name with its sigil is one token. -/
lemma step_field {s : String} (h : isName s = true) {after : List Char} (end_ : ends after = true)
    (opens : Bool) (cardinality : Cardinality) :
    step opens cardinality.sigil ('.' :: s.toList ++ after) =
      .token (.field cardinality) s ('.' :: s.toList).length := by
  rw [isName, Bool.and_eq_true, beq_iff_eq] at h
  have space : Text.isSpace cardinality.sigil = false := by
    cases cardinality <;> decide
  have sigil : Cardinality.ofSigil? cardinality.sigil = some cardinality := by
    cases cardinality <;> rfl
  have other : cardinality.sigil ≠ '#' ∧ cardinality.sigil ≠ ';' ∧ cardinality.sigil ≠ ':' := by
    cases cardinality <;> decide
  simp [step, space, sigil, other, startsName_append h.1, nameLength_append h.2 end_]

/-! ### Literals -/

/-- Digits in front of a text that starts with none. -/
lemma digitsLength_append {cs after : List Char} (digits : ∀ c ∈ cs, c.isDigit = true)
    (stop : ∀ c ∈ after.head?, c.isDigit = false) : digitsLength (cs ++ after) = cs.length := by
  rw [digitsLength, List.takeWhile_append_of_pos digits]
  cases after with
  | nil => simp
  | cons d ds => simp [stop d rfl]

/-- The number at the front ends where the lexeme ends. -/
lemma numberLength_append {s : String} (h : isNumber s = true) {after : List Char}
    (end_ : ends after = true) : numberLength (s.toList ++ after) = s.toList.length := by
  have stop : ∀ c ∈ after.head?, c.isDigit = false ∧ c ≠ '.' := by
    intro c hc
    cases after with
    | nil => cases hc
    | cons d ds =>
      cases hc
      obtain ⟨-, digit, -, dot, -⟩ := head_of_ends end_
      exact ⟨digit, dot⟩
  rcases digits_of_isNumber h with ⟨c, cs, e, digits⟩ | ⟨c, cs, d, ds, e, digits, fraction⟩
  · rw [e, numberLength, digitsLength_append digits fun c hc => (stop c hc).1]
    simp only [List.drop_left']
    split
    · exact absurd rfl (stop '.' rfl).2
    · rfl
  · -- the point ends the whole part, and the fraction ends where the lexeme does
    have whole : digitsLength (c :: cs ++ '.' :: (d :: ds ++ after)) = (c :: cs).length :=
      digitsLength_append digits fun x hx => by cases hx; rfl
    have part : digitsLength (d :: ds ++ after) = (d :: ds).length :=
      digitsLength_append fraction fun c hc => (stop c hc).1
    have first : d.isDigit = true := fraction d (List.mem_cons_self ..)
    rw [e, List.append_assoc]
    change numberLength (c :: cs ++ '.' :: (d :: ds ++ after)) = _
    rw [numberLength, whole]
    simp only [List.drop_left']
    rw [List.cons_append] at part ⊢
    simp only [first, if_true, part, List.length_append, List.length_cons]
    omega

/-- A number is one token. -/
lemma step_number {s : String} (h : isNumber s = true) {c : Char} {cs after : List Char}
    (e : s.toList = c :: cs) (end_ : ends after = true) (opens : Bool) :
    step opens c (cs ++ after) = .token .number (String.ofList (c :: cs)) cs.length := by
  have length := numberLength_append h end_
  have first : c.isDigit = true := by
    rw [isNumber, e, Bool.and_eq_true] at h
    simpa using h.1
  have table : ∀ d : Char, d.toNat < 0x80 → d.isDigit = true → Text.isSpace d = false ∧ d ≠ '#' ∧
      d ≠ ';' ∧ d ≠ ':' ∧ d ≠ '\'' ∧ d ≠ '"' ∧ d ≠ '[' ∧ d ≠ '(' ∧ Cardinality.ofSigil? d = none ∧
        isNameStart d = false := Text.forall_ascii (by decide)
  have small : c.toNat < 0x80 := by
    have bounds := Char.isDigit_iff_toNat.1 first
    have nine : '9'.toNat < 0x80 := by decide
    omega
  obtain ⟨space, comment, semicolon, colon, quote, double, bracket, parenthesis, sigil, name⟩ :=
    table c small first
  rw [e, List.cons_append] at length
  simp [step, space, comment, semicolon, colon, quote, double, bracket, parenthesis, sigil, name,
    first, length]

/-- The string at the front ends where its quote is not doubled. -/
lemma stringLength?_take_append {quote : Char} {cs xs : List Char} {n : Nat}
    (h : stringLength? quote cs = some n) (stop : xs.head? ≠ some quote) :
    stringLength? quote (cs.take n ++ xs) = some n := by
  fun_induction stringLength? quote cs generalizing n with
  | case1 => cases h
  | case2 => cases h
  | case3 c feed close =>
    cases h
    cases xs with
    | nil => simp [stringLength?, feed, close]
    | cons x xs =>
      have other : ¬(x == quote) = true := fun same => stop (congrArg some (beq_iff_eq.1 same))
      simp [stringLength?, feed, close, other]
  | case4 c feed close d ds again ih =>
    obtain ⟨m, inner, rfl⟩ := Option.map_eq_some_iff.1 h
    rw [List.take_succ_cons, List.take_succ_cons, List.cons_append, List.cons_append, stringLength?,
      if_neg feed, if_pos close]
    simp only [again, if_true, ih inner, Option.map_some]
  | case5 c feed close d ds once =>
    cases h
    cases xs with
    | nil => simp [stringLength?, feed, close]
    | cons x xs =>
      have other : ¬(x == quote) = true := fun same => stop (congrArg some (beq_iff_eq.1 same))
      simp [stringLength?, feed, close, other]
  | case6 c cs feed inside ih =>
    obtain ⟨m, inner, rfl⟩ := Option.map_eq_some_iff.1 h
    rw [List.take_succ_cons, List.cons_append, stringLength?.eq_def]
    simp only [feed, inside, Bool.false_eq_true, if_false, ih inner, Option.map_some]

/-- The string at the front ends where the lexeme ends. -/
lemma stringLength?_append {q : Char} {cs after : List Char}
    (h : stringLength? q cs = some cs.length) (stop : ∀ c ∈ after.head?, c ≠ q) :
    stringLength? q (cs ++ after) = some cs.length := by
  have whole := stringLength?_take_append h fun first => stop q first rfl
  rwa [List.take_length] at whole

/-- A string is one token. -/
lemma step_string {s : String} (h : isString s = true) {c : Char} {cs after : List Char}
    (e : s.toList = c :: cs) (end_ : ends after = true) (opens : Bool) :
    step opens c (cs ++ after) = .token .string (String.ofList (c :: cs)) cs.length := by
  rw [isString, e] at h
  simp only [Bool.and_eq_true, Bool.or_eq_true, beq_iff_eq] at h
  obtain ⟨quote, length⟩ := h
  have stop : ∀ d ∈ after.head?, d ≠ c := by
    intro d hd
    cases after with
    | nil => cases hd
    | cons d ds =>
      cases hd
      obtain ⟨-, -, -, -, single, double⟩ := head_of_ends end_
      rcases quote with rfl | rfl
      · exact single
      · exact double
  have whole := stringLength?_append length stop
  have space : Text.isSpace '\'' = false ∧ Text.isSpace '"' = false := by decide
  rcases quote with rfl | rfl <;> simp [step, space, Cardinality.ofSigil?, whole]

/-- A list that is closed ends inside the text, behind what was read. -/
lemma listEnd_le {n depth m : Nat} {inside : Option (Char × Nat)} {cs : List Char}
    (h : listEnd n depth inside cs = .closed m) : n < m ∧ m ≤ n + cs.length := by
  fun_induction listEnd n depth inside cs <;> grind

lemma take_sub_of_lt {n m : Nat} (lt : n < m) (c : Char) (cs : List Char) :
    (c :: cs).take (m - n) = c :: cs.take (m - (n + 1)) := by
  rw [show m - n = m - (n + 1) + 1 by omega, List.take_succ_cons]

/-- A list is closed by its bracket, whatever stands behind it. -/
lemma listEnd_take_append {n m depth : Nat} {inside : Option (Char × Nat)} {cs : List Char}
    (h : listEnd n depth inside cs = .closed m) (xs : List Char) :
    listEnd n depth inside (cs.take (m - n) ++ xs) = .closed m := by
  have lt := (listEnd_le h).1
  fun_induction listEnd n depth inside cs with
  | case1 => cases h
  | case2 => cases h
  | case3 => cases h
  | case4 => cases h
  | case5 n depth c quote before feed close d ds again ih =>
    have lt' := (listEnd_le h).1
    rw [take_sub_of_lt lt, take_sub_of_lt (by omega), List.cons_append, List.cons_append, listEnd]
    simp only [feed, close, again, Bool.false_eq_true, if_false, if_true, ih h lt']
  | case6 n depth c quote before feed close d ds once ih =>
    have lt' := (listEnd_le h).1
    have same := ih h lt'
    rw [take_sub_of_lt lt', List.cons_append] at same
    rw [take_sub_of_lt lt, take_sub_of_lt lt', List.cons_append, List.cons_append, listEnd]
    simp only [feed, close, once, Bool.false_eq_true, if_false, if_true, same]
  | case7 n depth c cs quote before feed inside ih =>
    rw [take_sub_of_lt lt, List.cons_append, listEnd.eq_def]
    simp only [feed, inside, Bool.false_eq_true, if_false, ih h (listEnd_le h).1]
  | case8 => cases h
  | case9 n depth c cs feed quote ih =>
    rw [take_sub_of_lt lt, List.cons_append, listEnd.eq_def]
    simp only [feed, quote, Bool.false_eq_true, if_false, if_true]
    exact ih h (listEnd_le h).1
  | case10 n depth c cs feed noQuote opening ih =>
    rw [take_sub_of_lt lt, List.cons_append, listEnd.eq_def]
    simp only [feed, noQuote, opening, Bool.false_eq_true, if_false, if_true]
    exact ih h (listEnd_le h).1
  | case11 n c cs feed noQuote noOpening closing =>
    rw [take_sub_of_lt lt, List.cons_append, listEnd, if_neg feed, if_neg noQuote, if_neg noOpening,
      if_pos closing]
    exact h
  | case12 n c cs feed noQuote noOpening closing depth ih =>
    rw [take_sub_of_lt lt, List.cons_append, listEnd, if_neg feed, if_neg noQuote, if_neg noOpening,
      if_pos closing]
    exact ih h (listEnd_le h).1
  | case13 n depth c cs feed noQuote noOpening noClosing ih =>
    rw [take_sub_of_lt lt, List.cons_append, listEnd.eq_def]
    simp only [feed, noQuote, noOpening, noClosing, Bool.false_eq_true, if_false]
    exact ih h (listEnd_le h).1

/-- A closed list is closed whatever stands behind it. -/
lemma listEnd_append {n depth m : Nat} {inside : Option (Char × Nat)} {cs : List Char}
    (h : listEnd n depth inside cs = .closed m) (after : List Char) :
    listEnd n depth inside (cs ++ after) = .closed m := by
  rw [← List.take_append_drop (m - n) cs, List.append_assoc]
  exact listEnd_take_append h _

/-- A list is one token. -/
lemma step_list {s : String} (h : isList s = true) {c : Char} {cs : List Char} (e : s.toList = c :: cs)
    (after : List Char) (opens : Bool) :
    step opens c (cs ++ after) = .token .list (String.ofList (c :: cs)) cs.length := by
  rw [isList, e] at h
  simp only [Bool.and_eq_true, beq_iff_eq] at h
  obtain ⟨rfl, closed⟩ := h
  have space : Text.isSpace '[' = false := by decide
  simp [step, space, Cardinality.ofSigil?, listStep, listEnd_append closed]

/-! ### Expressions and marks -/

/-- A body that closes what it opens is closed by the parenthesis behind it. -/
lemma exprEnd_of_closes {n : Nat} {stack : List Char} {inside : Option (Char × Nat)} {cs : List Char}
    (quotes : ∀ q before, inside = some (q, before) → q = '\'' ∨ q = '"')
    (h : closes stack (inside.map Prod.fst) cs = true) (after : List Char) :
    exprEnd n (stack ++ ['(']) inside (cs ++ ')' :: after) = .closed (n + cs.length + 1) := by
  generalize whole : stack ++ ['('] = outer
  -- along the scanner's own cases, because a doubled quote is read in one step
  induction n, outer, inside, cs using exprEnd.induct generalizing stack with
  | case1 => simp [closes] at h
  | case2 n outer =>
    have none : stack = [] := by simpa [closes] using h
    subst none whole
    simp [exprEnd, openingBracket]
  | case3 n outer c cs q before feed =>
    rw [beq_iff_eq] at feed
    rcases quotes q before rfl with rfl | rfl <;> simp [closes, feed] at h
  | case4 n outer c q before noFeed close =>
    -- the string ends in front of the closing parenthesis
    have none : stack = [] := by simpa [closes, close] using h
    subst none whole
    rcases quotes q before rfl with rfl | rfl <;>
      simp [exprEnd, noFeed, close, openingBracket]
  | case5 n outer c q before noFeed close d ds again ih =>
    have rest : closes stack (some q) ds = true := by
      rw [beq_iff_eq] at again
      rcases quotes q before rfl with rfl | rfl <;> simpa [closes, close, again] using h
    rw [List.cons_append, List.cons_append, exprEnd.eq_def]
    simp only [noFeed, close, again, Bool.false_eq_true, if_false, if_true]
    rw [ih quotes rest whole]
    simp only [List.length_cons, Enclosed.closed.injEq]
    omega
  | case6 n outer c q before noFeed close d ds once ih =>
    have rest : closes stack none (d :: ds) = true := by simpa [closes, close] using h
    rw [List.cons_append, List.cons_append, exprEnd.eq_def]
    simp only [noFeed, close, once, Bool.false_eq_true, if_false, if_true]
    rw [← List.cons_append, ih (fun _ _ e => nomatch e) rest whole]
    simp only [List.length_cons, Enclosed.closed.injEq]
    omega
  | case7 n outer c cs q before noFeed inside ih =>
    have rest : closes stack (some q) cs = true := by
      simp only [closes, Option.map_some, inside, Bool.false_eq_true, if_false,
        Bool.and_eq_true] at h
      exact h.2
    rw [List.cons_append, exprEnd.eq_def]
    simp only [noFeed, inside, Bool.false_eq_true, if_false]
    rw [ih quotes rest whole]
    simp only [List.length_cons, Enclosed.closed.injEq]
    omega
  | case8 n outer c cs quote ih =>
    have rest : closes stack (some c) cs = true := by
      simpa only [closes, Option.map_none, quote, if_true] using h
    rw [List.cons_append, exprEnd.eq_def]
    simp only [quote, if_true]
    rw [ih _ rest whole]
    · simp only [List.length_cons, Enclosed.closed.injEq]
      omega
    · rintro q before ⟨⟩
      simpa using quote
  | case9 n outer c cs noQuote opening ih =>
    have rest : closes (c :: stack) none cs = true := by
      simpa only [closes, Option.map_none, noQuote, opening, Bool.false_eq_true, if_false, if_true] using h
    rw [List.cons_append, exprEnd.eq_def]
    simp only [noQuote, opening, Bool.false_eq_true, if_false, if_true]
    rw [ih quotes rest (by rw [List.cons_append, whole])]
    simp only [List.length_cons, Enclosed.closed.injEq]
    omega
  | case10 => simp at whole
  | case11 n c cs noQuote noOpening closing bracket outer same last =>
    -- only the parenthesis around the body is open, so the body closes nothing
    have none : stack = [] := by
      have := congrArg List.length whole
      rw [List.isEmpty_iff] at last
      simpa [last] using this
    subst none
    simp [closes, noQuote, noOpening, closing] at h
  | case12 n c cs noQuote noOpening closing bracket outer same more ih =>
    cases stack with
    | nil =>
      simp only [List.nil_append, List.cons.injEq] at whole
      simp [← whole.2] at more
    | cons top stack =>
      simp only [List.cons_append, List.cons.injEq] at whole
      have rest : closes stack none cs = true := by
        simp only [closes, Option.map_none, noQuote, noOpening, closing, Bool.false_eq_true, if_false, if_true,
          Bool.and_eq_true] at h
        exact h.2
      rw [List.cons_append, exprEnd.eq_def]
      simp only [noQuote, noOpening, closing, same, more, Bool.false_eq_true, if_false, if_true]
      rw [ih quotes rest whole.2]
      simp only [List.length_cons, Enclosed.closed.injEq]
      omega
  | case13 n c cs noQuote noOpening closing bracket outer other =>
    cases stack with
    | nil => simp [closes, noQuote, noOpening, closing] at h
    | cons top stack =>
      simp only [List.cons_append, List.cons.injEq] at whole
      simp only [closes, Option.map_none, noQuote, noOpening, closing, Bool.false_eq_true, if_false, if_true,
        Bool.and_eq_true] at h
      exact absurd (whole.1 ▸ h.1) other
  | case14 n outer c cs noQuote noOpening noClosing ih =>
    have rest : closes stack none cs = true := by
      simpa only [closes, Option.map_none, noQuote, noOpening, noClosing, Bool.false_eq_true, if_false] using h
    rw [List.cons_append, exprEnd.eq_def]
    simp only [noQuote, noOpening, noClosing, Bool.false_eq_true, if_false]
    rw [ih quotes rest whole]
    simp only [List.length_cons, Enclosed.closed.injEq]
    omega

/-- Where an expression is expected, a body in parentheses is one token. -/
lemma step_expr {s : String} (h : isBody s = true) (after : List Char) :
    step true '(' (s.toList ++ [')'] ++ after) = .token .expr s (s.toList ++ [')']).length := by
  rw [isBody, Bool.and_eq_true, beq_iff_eq] at h
  have closed := @exprEnd_of_closes 0 [] none s.toList (fun _ _ e => nomatch e) h.2 after
  rw [List.nil_append, Nat.zero_add] at closed
  have space : Text.isSpace '(' = false := by decide
  rw [List.append_assoc]
  simp [step, space, Cardinality.ofSigil?, exprStep, closed, h.1]

/-- The characters that are tokens on their own where no expression is expected. -/
def isMark (c : Char) : Bool :=
  c == '(' || c == ')' || c == ',' || c == '-'

lemma step_mark {c : Char} (h : isMark c = true) (after : List Char) :
    step false c after = .token .symbol (String.singleton c) 0 := by
  simp only [isMark, Bool.or_eq_true, beq_iff_eq] at h
  have space : Text.isSpace '(' = false ∧ Text.isSpace ')' = false ∧ Text.isSpace ',' = false ∧
      Text.isSpace '-' = false := by decide
  have name : isNameStart '(' = false ∧ isNameStart ')' = false ∧ isNameStart ',' = false ∧
      isNameStart '-' = false := by decide
  rcases h with ((rfl | rfl) | rfl) | rfl <;> simp [step, space, name, Cardinality.ofSigil?]

/-! ### Rules for lines -/

namespace Cuts

variable {opens opens' : Bool} {ps : List Piece} {after : List Char} {s : String}

lemma blank (rest : Cuts opens ps opens' after) : Cuts opens (.gap ' ' :: ps) opens' after :=
  .gap (by decide) (by decide) rest

/-- A token that is spelled as it is written is cut off where its step says so. -/
lemma lexeme {kind : Token.Kind} (ne : s.toList ≠ [])
    (cut : ∀ c cs, s.toList = c :: cs → step opens c (cs ++ (chars ps ++ after)) =
      .token kind (String.ofList (c :: cs)) cs.length)
    (block : kind ≠ .entity) (finish : kind ≠ .eof) (rest : Cuts (opensExpr kind s) ps opens' after) :
    Cuts opens (.lexeme kind s :: ps) opens' after := by
  cases e : s.toList with
  | nil => exact absurd e ne
  | cons c cs =>
    have := cut c cs e
    rw [← e, String.ofList_toList] at this
    rw [Piece.lexeme, e]
    exact .token this block finish rest

lemma name (h : isName s = true) (end_ : ends (chars ps ++ after) = true)
    (rest : Cuts (opensExpr (nameToken s.toList) s) ps opens' after) :
    Cuts opens (.name s :: ps) opens' after := by
  obtain ⟨c, cs, e, start, length⟩ := name_of_isName h
  refine lexeme (by simp [e]) ?_ ?_ ?_ rest
  · intro d ds e'
    obtain ⟨rfl, rfl⟩ := List.cons.inj (e.symm.trans e')
    rw [e]
    exact step_name start length end_ opens
  all_goals
    rw [nameToken]
    split <;> simp

lemma field (h : isName s = true) (cardinality : Cardinality) (end_ : ends (chars ps ++ after) = true)
    (rest : Cuts false ps opens' after) : Cuts opens (.field cardinality s :: ps) opens' after :=
  .token (step_field h end_ opens cardinality) (by simp) (by simp) rest

lemma number (h : isNumber s = true) (end_ : ends (chars ps ++ after) = true)
    (rest : Cuts false ps opens' after) : Cuts opens (.lexeme .number s :: ps) opens' after := by
  refine lexeme ?_ (fun c cs e => step_number h e end_ opens) (by simp) (by simp) rest
  intro e
  simp [isNumber, e] at h

lemma string (h : isString s = true) (end_ : ends (chars ps ++ after) = true)
    (rest : Cuts false ps opens' after) : Cuts opens (.lexeme .string s :: ps) opens' after := by
  refine lexeme ?_ (fun c cs e => step_string h e end_ opens) (by simp) (by simp) rest
  intro e
  simp [isString, e] at h

lemma list (h : isList s = true) (rest : Cuts false ps opens' after) :
    Cuts opens (.lexeme .list s :: ps) opens' after := by
  refine lexeme ?_ (fun c cs e => step_list h e _ opens) (by simp) (by simp) rest
  intro e
  simp [isList, e] at h

lemma expr (h : isBody s = true) (rest : Cuts false ps opens' after) :
    Cuts true (.expr s :: ps) opens' after :=
  .token (step_expr h _) (by simp) (by simp) rest

lemma mark {c : Char} (h : isMark c = true) (rest : Cuts false ps opens' after) :
    Cuts false (.symbol c :: ps) opens' after := by
  rw [Piece.symbol, Piece.lexeme, String.toList_singleton]
  exact .token (step_mark h _) (by simp) (by simp) rest

end Cuts

end Scan

end ErdSql
