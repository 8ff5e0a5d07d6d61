import ErdSql.Proofs.Acceptance
import ErdSql.Proofs.CopiedTexts
import ErdSql.Proofs.DisplacedReaders
import ErdSql.Proofs.Handlers

/-!
# Reading is local

A document is read statement by statement, and an entity line by line: what stands elsewhere changes
nothing, and neither do errors.

* `Scan.standing_scanFrom`: the tokens of a text go down the lines.
* `Document.statementGroups_append`: statements of two texts are the statements of both.
* `Compilation.read_append`: the statements of two documents, one below the other, and the lines of
  each entity.
-/

namespace ErdSql

/-! ### Bytes of texts -/

namespace Text

/-- A text ends with a line feed if its bytes do. -/
lemma getLast?_of_bytes {s : String} (h : (bytes s).getLast? = some (ascii '\n')) :
    s.toList.getLast? = some '\n' := by
  rw [bytes] at h
  obtain empty | ⟨front, c, split⟩ := s.toList.eq_nil_or_concat'
  · rw [empty] at h
    cases h
  · have last : String.utf8EncodeChar c ≠ [] := by
      rw [← List.length_pos_iff, String.length_utf8EncodeChar]
      exact c.utf8Size_pos
    rw [split, encode_append, encode_cons, show encode [] = [] from rfl, List.append_nil,
      List.getLast?_append_of_ne_nil _ last] at h
    rw [split, List.getLast?_concat,
      eq_of_ascii_mem_utf8EncodeChar (by decide) (List.mem_of_getLast? h)]

end Text

/-! ### Where tokens stand -/

namespace Position

lemma line_lt_advanceBy {cs : List Char} (feed : '\n' ∈ cs) (p : Position) :
    p.line < (p.advanceBy cs).line := by
  rw [line_advanceBy]
  exact Nat.lt_add_of_pos_right (List.count_pos_iff.2 feed)

lemma column_advanceBy_ne_zero {p : Position} (h : p.column ≠ 0) (cs : List Char) :
    (p.advanceBy cs).column ≠ 0 := by
  induction cs generalizing p with
  | nil => exact h
  | cons c cs ih =>
    apply ih
    unfold advance
    split <;> simp

end Position

/-- Tokens that go down the lines of a text. -/
structure Token.Standing (ts : List Token) : Prop where
  pairwise : ts.Pairwise fun t u => t.endLine ≤ u.line
  line : ∀ t ∈ ts, 0 < t.line ∧ t.line ≤ t.endLine
  column : ∀ t ∈ ts, t.column ≠ 0

lemma Token.Standing.sublist {ts us : List Token} (h : Standing ts) (sub : us.Sublist ts) :
    Standing us :=
  ⟨h.pairwise.sublist sub, fun t ht => h.line t (sub.subset ht), fun t ht => h.column t (sub.subset ht)⟩

namespace Scan

lemma standing_scanFrom (opens : Bool) {p : Position} (cs : List Char) (line : 0 < p.line)
    (column : p.column ≠ 0) : Token.Standing (scanFrom opens p cs).tokens ∧
      ∀ t ∈ (scanFrom opens p cs).tokens, p.line ≤ t.line := by
  fun_induction scanFrom opens p cs with
  | case1 opens p =>
    refine ⟨⟨List.pairwise_singleton _ _, ?_, ?_⟩, ?_⟩
    all_goals simp [line, column]
  | case2 opens p c cs more _ ih =>
    have down := Position.line_le_advanceBy p (c :: cs.take more)
    obtain ⟨standing, below⟩ := ih (line.trans_le down) (Position.column_advanceBy_ne_zero column _)
    exact ⟨standing, fun t ht => down.trans (below t ht)⟩
  | case3 opens p c cs kind spelling more _ next token rest ih =>
    have down : p.line ≤ next.line := Position.line_le_advanceBy p (c :: cs.take more)
    obtain ⟨standing, below⟩ := ih (line.trans_le down) (Position.column_advanceBy_ne_zero column _)
    refine ⟨⟨List.pairwise_cons.2 ⟨below, standing.pairwise⟩, ?_, ?_⟩, ?_⟩
    · exact List.forall_mem_cons.2 ⟨⟨line, down⟩, standing.line⟩
    · exact List.forall_mem_cons.2 ⟨column, standing.column⟩
    · exact List.forall_mem_cons.2 ⟨le_rfl, fun t ht => down.trans (below t ht)⟩
  | case4 opens p c cs fault before more _ place rest ih =>
    have down := Position.line_le_advanceBy p (c :: cs.take more)
    obtain ⟨standing, below⟩ := ih (line.trans_le down) (Position.column_advanceBy_ne_zero column _)
    exact ⟨standing, fun t ht => down.trans (below t ht)⟩

lemma standing_ofChars (cs : List Char) : Token.Standing (ofChars cs).tokens :=
  (standing_scanFrom false cs (by decide) (by decide)).1

/-- No token of a text that ends with a line reaches the line behind the text. -/
lemma endLine_lt_of_mem_body {opens : Bool} {p : Position} {cs : List Char} (line : EndsLine cs)
    {t : Token} (ht : t ∈ (scanFrom opens p cs).body) : t.endLine < (p.advanceBy cs).line := by
  fun_induction scanFrom opens p cs with
  | case1 opens p => cases ht
  | case2 opens p c cs more _ ih =>
    rw [← advanceBy_take_drop]
    exact ih (line.drop (more + 1)) ht
  | case3 opens p c cs kind spelling more found next token rest ih =>
    rw [body, List.dropLast_cons_of_ne_nil (tokens_scanFrom_ne_nil _ _ _), List.mem_cons] at ht
    rw [← advanceBy_take_drop]
    obtain rfl | later := ht
    · exact Position.line_lt_advanceBy (feed_mem_of_step line found) next
    · exact ih (line.drop (more + 1)) later
  | case4 opens p c cs fault before more _ place rest ih =>
    rw [← advanceBy_take_drop]
    exact ih (line.drop (more + 1)) ht

lemma kind_of_step {opens : Bool} {c : Char} {cs : List Char} {kind : Token.Kind} {spelling : String}
    {more : Nat} (h : step opens c cs = .token kind spelling more) : kind ≠ .eof := by
  cases takes_of_step h <;> nofun

/-- Only the last token marks the end. -/
lemma takeWhile_tokens (opens : Bool) (p : Position) (cs : List Char) :
    (scanFrom opens p cs).tokens.takeWhile (fun t => t.kind != .eof) = (scanFrom opens p cs).body := by
  fun_induction scanFrom opens p cs with
  | case1 => rfl
  | case2 opens p c cs more _ ih => exact ih
  | case3 opens p c cs kind spelling more found next token rest ih =>
    have kind : (token.kind != .eof) = true := bne_iff_ne.2 (kind_of_step found)
    rw [body, List.dropLast_cons_of_ne_nil (tokens_scanFrom_ne_nil _ _ _), List.takeWhile_cons,
      if_pos kind, ih]
    rfl
  | case4 opens p c cs fault before more _ place rest ih => exact ih

lemma head?_tokens {scan : Scan} {t : Token} (h : t ∈ scan.body.head?) : t ∈ scan.tokens.head? := by
  obtain ⟨last, eq⟩ := List.dropLast_prefix scan.tokens
  have ne : scan.tokens.dropLast ≠ [] := List.ne_nil_of_mem (List.mem_of_mem_head? h)
  rw [← eq, List.head?_append_of_ne_nil _ ne]
  exact h

/-- The tokens of two texts, the second one below the first. -/
lemma body_append {cs ds : List Char} (line : cs.getLast? = some '\n')
    (closed : ∀ e ∈ (ofChars cs).errors, e.fault ≠ .openExpression)
    (apart : ∀ t ∈ (ofChars cs).body.getLast?, t.kind ≠ .keyword .check ∧ t.isWord "USING" = false) :
    (ofChars (cs ++ ds)).body =
      (ofChars cs).body ++ (ofChars ds).body.map (·.shift (Text.byteSize cs) (cs.count '\n')) := by
  have ne : (ofChars ds).tokens.map (·.shift (Text.byteSize cs) (cs.count '\n')) ≠ [] := by
    simpa [ofChars] using tokens_scanFrom_ne_nil false .start ds
  rw [body, ofChars_append line closed (.inl apart), followedBy, shift,
    List.dropLast_append_of_ne_nil ne, ← List.map_dropLast]
  rfl

/-- A token starts behind a part of the text. -/
lemma exists_offset_eq {opens : Bool} {p : Position} {cs : List Char} {t : Token}
    (ht : t ∈ (scanFrom opens p cs).tokens) :
    ∃ before after, cs = before ++ after ∧ t.offset = p.offset + Text.byteSize before := by
  -- what stands behind the first lexeme is part of the text too
  have behind (p : Position) (c : Char) (cs : List Char) (more : Nat)
      (h : ∃ before after, cs.drop more = before ++ after ∧
        t.offset = (p.advanceBy (c :: cs.take more)).offset + Text.byteSize before) :
      ∃ before after, c :: cs = before ++ after ∧ t.offset = p.offset + Text.byteSize before := by
    obtain ⟨before, after, cut, offset⟩ := h
    refine ⟨c :: cs.take more ++ before, after, ?_, ?_⟩
    · rw [List.append_assoc, ← cut, List.cons_append, List.take_append_drop]
    · rw [offset, ← Document.offset_advanceBy, ← Document.offset_advanceBy, Position.advanceBy_append]
  fun_induction scanFrom opens p cs with
  | case1 opens p =>
    rw [List.mem_singleton] at ht
    exact ⟨[], [], rfl, by rw [ht]; rfl⟩
  | case2 opens p c cs more _ ih => exact behind p c cs more (ih ht)
  | case3 opens p c cs kind spelling more _ next token rest ih =>
    obtain rfl | later := List.mem_cons.1 ht
    · exact ⟨[], c :: cs, rfl, rfl⟩
    · exact behind p c cs more (ih later)
  | case4 opens p c cs fault before more _ place rest ih => exact behind p c cs more (ih ht)

end Scan

namespace Document

open ErdSql.Document.Parser

/-! ### Sources of two texts -/

lemma takeBytes_append_of_le {n : Nat} {cs : List Char} (h : n ≤ Text.byteSize cs) (ds : List Char) :
    Text.takeBytes n (cs ++ ds) = Text.takeBytes n cs := by
  induction cs generalizing n with
  | nil =>
    obtain rfl : n = 0 := Nat.le_zero.1 h
    simp [Text.takeBytes]
  | cons c cs ih =>
    cases n with
    | zero => rfl
    | succ n =>
      rw [byteSize_cons] at h
      rw [List.cons_append, Text.takeBytes, Text.takeBytes, ih (by omega)]

lemma dropBytes_add_append (n : Nat) (cs ds : List Char) :
    Text.dropBytes (n + Text.byteSize cs) (cs ++ ds) = Text.dropBytes n ds := by
  induction cs with
  | nil => rfl
  | cons c cs ih =>
    obtain ⟨m, hm⟩ := Nat.exists_eq_add_of_lt c.utf8Size_pos
    have total : n + Text.byteSize (c :: cs) = n + Text.byteSize cs + m + 1 := by
      rw [byteSize_cons]
      omega
    have left : n + Text.byteSize cs + m + 1 - c.utf8Size = n + Text.byteSize cs := by omega
    rw [total, List.cons_append, Text.dropBytes, left, ih]

/-- The second of two texts stands behind the first one. -/
lemma moved_slice (cs ds : List Char) :
    Source.Moved (Text.byteSize cs) (Text.slice ds) (Text.slice (cs ++ ds)) := by
  intro start stop
  rw [Text.slice, Text.slice, dropBytes_add_append, Nat.add_sub_add_right]

/-- The text between two tokens does not depend on what stands behind the text. -/
lemma alike_slice (cs ds : List Char) :
    Source.Alike (Text.slice (cs ++ ds)) (Text.slice cs) (Scan.ofChars cs).tokens := by
  intro t us sub u hu
  have ordered := (Scan.ordered_scanFrom false .start cs).1
  have inside : u.stop ≤ Text.byteSize cs := by
    simpa [Position.start] using ((ordered.sublist sub).part hu).2
  obtain ⟨before, after, rfl, offset⟩ := Scan.exists_offset_eq (sub.subset List.mem_cons_self)
  have start : t.offset = Text.byteSize before := by
    rw [offset]
    exact Nat.zero_add _
  have total : Text.byteSize (before ++ after) = Text.byteSize before + Text.byteSize after := by
    have := offset_advanceBy (Position.start.advanceBy before) after
    rw [← Position.advanceBy_append, offset_advanceBy, offset_advanceBy] at this
    omega
  rw [Text.slice, Text.slice, start, List.append_assoc, dropBytes_append, dropBytes_append,
    takeBytes_append_of_le (by omega)]

/-! ### Statements of two texts -/

lemma opensStatement_moved {lines : Nat} {previous previous' t t' : Token}
    (before : previous.Like lines previous') (here : t.Like lines t') :
    opensStatement previous' t' = opensStatement previous t := by
  rw [opensStatement, opensStatement, here.line, before.endLine, here.isSymbol, here.isSymbol,
    here.column, here.kind]
  simp

/-- Two groups of corresponding tokens. -/
def MovedGroup {lines : Nat} (pairing : Token.Pairing lines) (g g' : Token × List Token) : Prop :=
  pairing.Pairs g.1 g'.1 ∧ List.Forall₂ pairing.Pairs g.2 g'.2

lemma statementGroups_moved {lines : Nat} {pairing : Token.Pairing lines} {ts ts' : List Token}
    (h : List.Forall₂ pairing.Pairs ts ts') :
    List.Forall₂ (MovedGroup pairing) (statementGroups ts) (statementGroups ts') := by
  have go {head head' previous previous' : Token} {collected collected' ts ts' : List Token}
      (marker : pairing.Pairs head head') (before : pairing.Pairs previous previous')
      (read : List.Forall₂ pairing.Pairs collected collected') (h : List.Forall₂ pairing.Pairs ts ts') :
      List.Forall₂ (MovedGroup pairing) (statementGroups.go head previous collected ts)
        (statementGroups.go head' previous' collected' ts') := by
    induction h generalizing head head' previous previous' collected collected' with
    | nil => exact .cons ⟨marker, List.rel_reverse read⟩ .nil
    | cons here _ ih =>
      rw [statementGroups.go, statementGroups.go,
        opensStatement_moved (pairing.like before) (pairing.like here)]
      split
      · exact .cons ⟨marker, List.rel_reverse read⟩ (ih here here .nil)
      · exact ih marker here (.cons here read)
  cases h with
  | nil => exact .nil
  | cons here behind => exact go here here .nil behind

/-- Where the second text opens a statement, the statements are those of both texts. -/
lemma statementGroups_append {ts us : List Token}
    (h : ∀ t ∈ ts.getLast?, ∀ u ∈ us.head?, opensStatement t u = true) :
    statementGroups (ts ++ us) = statementGroups ts ++ statementGroups us := by
  cases us with
  | nil => simp [statementGroups]
  | cons u us =>
    have go (head previous : Token) (collected ts : List Token)
        (h : opensStatement (ts.getLast?.getD previous) u = true) :
        statementGroups.go head previous collected (ts ++ u :: us) =
          statementGroups.go head previous collected ts ++ statementGroups (u :: us) := by
      induction ts generalizing head previous collected with
      | nil =>
        have here : opensStatement previous u = true := h
        simp only [List.nil_append, statementGroups.go, here, if_true]
        rfl
      | cons t ts ih =>
        rw [List.getLast?_cons, Option.getD_some] at h
        rw [List.cons_append, statementGroups.go, statementGroups.go]
        split
        · rw [ih t t [] h]
          rfl
        · exact ih head t (t :: collected) h
    cases ts with
    | nil => rfl
    | cons t ts =>
      refine go t t [] ts ?_
      exact h _ (by rw [List.getLast?_cons]; rfl) u rfl

section Statements
variable {s s' : Source} {plugins : Plugin.Registry}

/-- Whether the statement above could be read is no matter for a statement. -/
lemma statements_recovering (recovering recovering' : Bool) (groups : List (Token × List Token)) :
    (readStatements s plugins recovering groups).1 = (readStatements s plugins recovering' groups).1 := by
  cases groups with
  | nil => rfl
  | cons g rest =>
    have same : (readStatement s plugins recovering g.1 g.2 rest.isEmpty).statement =
        (readStatement s plugins recovering' g.1 g.2 rest.isEmpty).statement := by
      unfold readStatement
      dsimp only
      split <;> try rfl
      split <;> try rfl
      split <;> rfl
    simp only [readStatements, same]

/-- The statements of a text further down, with others below it. -/
lemma statements_moved {lines : Nat} {pairing : Token.Pairing lines} (source : s.Paired pairing s')
    (steady : ∀ keyword handler, plugins.lookup keyword = some handler → Steady lines handler)
    {groups groups' : List (Token × List Token)} (h : List.Forall₂ (MovedGroup pairing) groups groups')
    (columns : ∀ g ∈ groups, g.1.column ≠ 0 ∧ ∀ t ∈ g.2, t.column ≠ 0)
    (recovering recovering' : Bool) (below : List (Token × List Token)) :
    (readStatements s' plugins recovering' (groups' ++ below)).1 =
      (readStatements s plugins recovering groups).1.map (·.shift lines) ++
        (readStatements s' plugins false below).1 := by
  induction h generalizing recovering recovering' with
  | nil => exact statements_recovering _ _ _
  | @cons g g' rest rest' group _ ih =>
    obtain ⟨⟨column, inside⟩, others⟩ := List.forall_mem_cons.1 columns
    have here (atEnd : Bool) := statement_moved source steady group.1 group.2 column inside recovering
      recovering' rest.isEmpty atEnd
    simp only [List.cons_append, readStatements, here,
      ih others (readStatement s plugins recovering g.1 g.2 rest.isEmpty).statement.isNone,
      List.map_append, List.append_assoc]
    cases (readStatement s plugins recovering g.1 g.2 rest.isEmpty).statement <;> rfl

/-- Statements below change nothing about the statements above them. -/
lemma statements_below {groups : List (Token × List Token)}
    (columns : ∀ g ∈ groups, g.1.column ≠ 0 ∧ ∀ t ∈ g.2, t.column ≠ 0)
    (below : List (Token × List Token)) :
    (readStatements s plugins false (groups ++ below)).1 =
      (readStatements s plugins false groups).1 ++ (readStatements s plugins false below).1 := by
  have source : s.Moved 0 s := fun _ _ => rfl
  have here : List.Forall₂ (MovedGroup (.shift 0 0)) groups groups :=
    List.forall₂_same.2 fun g _ => ⟨rfl, List.forall₂_same.2 fun _ _ => rfl⟩
  have steady : ∀ keyword handler, plugins.lookup keyword = some handler → Steady 0 handler :=
    fun _ handler _ => steady_zero handler
  have same := statements_moved (source.paired 0) steady here columns false false below
  simpa using same

lemma columns_statementGroups (cs : List Char) :
    ∀ g ∈ statementGroups (Scan.ofChars cs).body, g.1.column ≠ 0 ∧ ∀ t ∈ g.2, t.column ≠ 0 := by
  intro g hg
  have sub := (sublist_of_mem_statementGroups hg).trans (List.dropLast_sublist _)
  have columns := ((Scan.standing_ofChars cs).sublist sub).column
  exact List.forall_mem_cons.1 columns

end Statements

/-- The statements of two texts, the second one below the first. -/
lemma statements_append {cs ds : List Char} {plugins : Plugin.Registry}
    (looks : ∀ keyword handler, plugins.lookup keyword = some handler → LooksAtText handler)
    (line : cs.getLast? = some '\n')
    (closed : ∀ e ∈ (Scan.ofChars cs).errors, e.fault ≠ .openExpression)
    (apart : ∀ t ∈ (Scan.ofChars cs).body.getLast?,
      t.kind ≠ .keyword .check ∧ t.isWord "USING" = false)
    (front : ∀ t ∈ (Scan.ofChars ds).body.head?,
      t.column = 1 ∧ t.isSymbol '\x7d' = false ∧ t.isSymbol ')' = false ∨ t.kind = .entity) :
    (readStatements (Text.slice (cs ++ ds)) plugins false
        (statementGroups (Scan.ofChars (cs ++ ds)).body)).1 =
      (readStatements (Text.slice cs) plugins false (statementGroups (Scan.ofChars cs).body)).1 ++
        (readStatements (Text.slice ds) plugins false (statementGroups (Scan.ofChars ds).body)).1.map
          (·.shift (cs.count '\n')) := by
  have ends : Scan.EndsLine cs := Scan.EndsLine.of_getLast? line
  -- the first token of the second text stands below all tokens of the first one
  have opens : ∀ t ∈ (Scan.ofChars cs).body.getLast?,
      ∀ u ∈ ((Scan.ofChars ds).body.map (·.shift (Text.byteSize cs) (cs.count '\n'))).head?,
        opensStatement t u = true := by
    intro t ht u hu
    rw [List.head?_map] at hu
    obtain ⟨v, hv, rfl⟩ := Option.map_eq_some_iff.1 hu
    have above := Scan.endLine_lt_of_mem_body ends (List.mem_of_getLast? ht)
    have ne : cs ≠ [] := by
      rintro rfl
      cases line
    rw [Position.advanceBy_of_endsLine _ ends ne] at above
    have low := ((Scan.standing_ofChars ds).line v (List.mem_of_mem_dropLast (List.mem_of_head? hv))).1
    have later : v.line + cs.count '\n' > t.endLine := by
      change t.endLine < 1 + cs.count '\n' at above
      omega
    change (decide (v.line + cs.count '\n' > t.endLine) && !v.isSymbol '\x7d' && !v.isSymbol ')' &&
      (v.column == 1 || v.kind == .entity)) = true
    obtain ⟨column, brace, parenthesis⟩ | entity := front v hv
    · simp [later, column, brace, parenthesis]
    · have mark (m : Char) : v.isSymbol m = false := isSymbol_of_kind (by simp [entity]) m
      simp [later, entity, mark]
  have columns := columns_statementGroups
  rw [Scan.body_append line closed apart, statementGroups_append opens, statements_below (columns cs)]
  congr 1
  · refine congrArg Prod.fst (readStatements_congr (fun g hg => ?_) plugins false)
    have sub := (sublist_of_mem_statementGroups hg).trans (List.dropLast_sublist _)
    exact (alike_slice cs ds).sublist ((List.sublist_cons_self _ _).trans sub)
  · have groups := statementGroups_moved
      (Token.Pairing.pairs_shift (Text.byteSize cs) (cs.count '\n') (Scan.ofChars ds).body)
    have moved := statements_moved ((moved_slice cs ds).paired _)
      (fun keyword handler found => (looks keyword handler found).steady _) groups (columns ds) false false []
    rwa [List.append_nil, readStatements, List.append_nil] at moved

/-! ### Lines of an entity -/

section Lines
variable {s : Source}

/-- A reader that does not look at the token in front of a line: it gives the same, or no value. -/
def Settles {α : Type} (p : Parser α) : Prop :=
  ∀ previous previous' t ts atEnd, p ⟨previous, t :: ts, atEnd⟩ = p ⟨previous', t :: ts, atEnd⟩ ∨
    ∃ e c e' c', p ⟨previous, t :: ts, atEnd⟩ = .error e c ∧ p ⟨previous', t :: ts, atEnd⟩ = .error e' c'

namespace Settles

variable {α β : Type} {p q : Parser α}

lemma next : Settles next :=
  fun _ _ _ _ _ => .inl rfl

lemma satisfy (test : Token → Bool) (expected : Expected) : Settles (satisfy test expected) := by
  intro previous previous' t ts atEnd
  by_cases passes : test t = true
  · exact .inl (by simp [Parser.satisfy, Cursor.current, Cursor.skip, passes])
  · exact .inr (by simp [Parser.satisfy, Cursor.current, passes])

lemma bind (h : Settles p) (f : α → Parser β) : Settles (p >>= f) := by
  intro previous previous' t ts atEnd
  change Parser.bind p f _ = Parser.bind p f _ ∨
    ∃ e c e' c', Parser.bind p f _ = .error e c ∧ Parser.bind p f _ = .error e' c'
  unfold Parser.bind
  obtain same | ⟨e, c, e', c', here, there⟩ := h previous previous' t ts atEnd
  · exact .inl (by rw [same])
  · exact .inr ⟨e, c, e', c', by rw [here], by rw [there]⟩

/-- Looking at the current token reads nothing. -/
lemma peek {f : Token → Parser β} (h : ∀ t, Settles (f t)) : Settles (Parser.peek >>= f) :=
  fun previous previous' t ts atEnd => h t previous previous' t ts atEnd

lemma sees {test : Token → Bool} {f : Bool → Parser β} (h : ∀ b, Settles (f b)) :
    Settles (Parser.sees test >>= f) :=
  fun previous previous' t ts atEnd => h (test t) previous previous' t ts atEnd

lemma ite {b : Bool} (yes : Settles p) (no : Settles q) : Settles (if b then p else q) := by
  cases b
  · exact no
  · exact yes

end Settles

lemma settles_fieldHead : Settles (fieldHead s) :=
  .peek fun _ => .sees fun _ => .ite (.bind .next _) (.bind (.satisfy _ _) _)

lemma Settles.item {α : Type} {p : Parser α} (h : Settles p) (wrap : α → LineItem)
    (previous previous' t : Token) (ts : List Token) (atEnd : Bool) :
    (LineResult.ofParsed wrap (p ⟨previous, t :: ts, atEnd⟩)).item =
      (LineResult.ofParsed wrap (p ⟨previous', t :: ts, atEnd⟩)).item := by
  obtain same | ⟨e, c, e', c', here, there⟩ := h previous previous' t ts atEnd
  · rw [same]
  · rw [here, there]
    rfl

/-- A line contributes the same whatever token stands above it. -/
lemma item_entityLine (previous previous' t : Token) (ts : List Token) (atEnd : Bool) :
    (entityLine s ⟨previous, t :: ts, atEnd⟩).item = (entityLine s ⟨previous', t :: ts, atEnd⟩).item := by
  have field : (fieldLine s ⟨previous, t :: ts, atEnd⟩).item =
      (fieldLine s ⟨previous', t :: ts, atEnd⟩).item := by
    unfold fieldLine
    obtain same | ⟨e, c, e', c', here, there⟩ := settles_fieldHead previous previous' t ts atEnd
    · rw [same]
    · rw [here, there]
  have key (k : List String → Key) : Settles (keyLine k) := .bind .next _
  have check : Settles checkLine := .bind .next _
  have directive (k : Keyword) : Settles (directiveLine s k) := .bind .next _
  have kind (p : Token) : (Cursor.mk p (t :: ts) atEnd).current.kind = t.kind := rfl
  unfold entityLine
  rw [kind, kind]
  cases t.kind with
  | identifier => exact field
  | keyword k =>
    dsimp only
    split
    · exact field
    · cases k
      case pk => exact (key _).item .key ..
      case unique => exact (key _).item .key ..
      case check => exact check.item .key ..
      all_goals first | exact (directive _).item .directive .. | exact field
  | _ => rfl

/-- Neither the token above a line nor the end of the input behind it changes what it contributes. -/
lemma item_alone {t : Token} (column : t.column ≠ 0) (previous previous' : Token) (ts : List Token)
    (atEnd atEnd' : Bool) :
    (entityLine s ⟨previous, t :: ts, atEnd⟩).item = (entityLine s ⟨previous', t :: ts, atEnd'⟩).item := by
  have source : s.Moved 0 s := fun _ _ => rfl
  have place : Cursor.Moved (.shift 0 0) ⟨previous', t :: ts, atEnd⟩ ⟨previous', t :: ts, atEnd'⟩ :=
    ⟨rfl, List.forall₂_same.2 fun _ _ => rfl⟩
  have same := (entityLine_moved (source.paired 0) place column).item
  rw [item_entityLine previous previous', same]
  simp

/-- Tokens of one line are one line. -/
lemma lineGroups_of_mem {line ts : List Token} (h : line ∈ lineGroups ts) : lineGroups line = [line] := by
  -- what the loop has collected so far is the line that it is at
  have go (last : Nat) (collected ts : List Token)
      (state : ∀ us, lineGroups (collected.reverse ++ us) = lineGroups.go last collected us)
      (h : line ∈ lineGroups.go last collected ts) : lineGroups line = [line] := by
    induction ts generalizing last collected with
    | nil =>
      rw [lineGroups.go, List.mem_singleton] at h
      subst h
      have := state []
      rwa [List.append_nil] at this
    | cons t ts ih =>
      rw [lineGroups.go] at h
      split at h
      · obtain rfl | later := List.mem_cons.1 h
        · have := state []
          rwa [List.append_nil] at this
        · exact ih t.endLine [t] (fun us => rfl) later
      · next same =>
        refine ih _ (t :: collected) (fun us => ?_) h
        have := state (t :: us)
        rw [lineGroups.go, if_neg same] at this
        rw [← this]
        simp
  cases ts with
  | nil => cases h
  | cons t ts => exact go t.endLine [t] ts (fun us => rfl) h

/-- The line that the loop is at, and that lines behind it start further down. -/
lemma go_eq_cons {ts : List Token} (lines : ∀ t ∈ ts, t.line ≤ t.endLine) (last : Nat)
    (collected : List Token) : ∃ more rest, lineGroups.go last collected ts =
      (collected.reverse ++ more) :: rest ∧ ∀ line ∈ rest, ∀ t ∈ line.head?, last < t.line := by
  induction ts generalizing last collected with
  | nil => exact ⟨[], [], by simp [lineGroups.go], by simp⟩
  | cons t ts ih =>
    obtain ⟨first, others⟩ := List.forall_mem_cons.1 lines
    rw [lineGroups.go]
    split
    · next later =>
      obtain ⟨more, rest, eq, below⟩ := ih others t.endLine [t]
      refine ⟨[], _, by rw [List.append_nil], ?_⟩
      rw [eq, List.forall_mem_cons]
      refine ⟨fun u hu => ?_, fun line hline u hu => ?_⟩
      · cases hu
        exact later
      · exact later.trans_le (first.trans (below line hline u hu).le)
    · obtain ⟨more, rest, eq, below⟩ := ih others (max last t.endLine) (t :: collected)
      refine ⟨t :: more, rest, by simp [eq], fun line hline u hu => ?_⟩
      exact (le_max_left _ _).trans_lt (below line hline u hu)

lemma tail_go (last : Nat) (collected collected' ts : List Token) :
    (lineGroups.go last collected ts).tail = (lineGroups.go last collected' ts).tail := by
  induction ts generalizing last collected collected' with
  | nil => rfl
  | cons t ts ih =>
    rw [lineGroups.go, lineGroups.go]
    split
    · rfl
    · exact ih _ _ _

/-- The lines of an entity are the lines of its tokens but the line of the marker. -/
lemma bodyLines_eq {head : Token} {tokens : List Token} (standing : Token.Standing (head :: tokens)) :
    bodyLines head tokens = (lineGroups (head :: tokens)).tail := by
  cases tokens with
  | nil => rfl
  | cons t ts =>
    have below : head.endLine ≤ t.endLine :=
      ((List.pairwise_cons.1 standing.pairwise).1 t List.mem_cons_self).trans
        (standing.line t (by simp)).2
    rw [bodyLines, strayBehind, lineGroups, lineGroups, lineGroups.go]
    by_cases stray : t.line ≤ head.endLine
    · rw [if_pos (decide_eq_true stray), if_neg (Nat.not_lt.2 stray), max_eq_right below,
        List.drop_one]
      exact tail_go _ _ _ _
    · rw [if_neg (by simpa using stray), if_pos (Nat.lt_of_not_le stray)]
      rfl

/-- What lines contribute together is what each of them contributes on its own. -/
lemma filterMap_entityLines {α : Type} {f : LineResult → Option α}
    (item : ∀ r r' : LineResult, r.item = r'.item → f r = f r') {lines : List (List Token)}
    (columns : ∀ line ∈ lines, ∃ t ts, line = t :: ts ∧ t.column ≠ 0) (atEnd : Bool)
    (previous head : Token) :
    (entityLines s atEnd previous lines).filterMap f =
      lines.flatMap fun line => [entityLine s ⟨head, line, true⟩].filterMap f := by
  induction lines generalizing previous with
  | nil => rfl
  | cons line rest ih =>
    obtain ⟨⟨t, ts, rfl, column⟩, others⟩ := List.forall_mem_cons.1 columns
    have same := item _ _ (item_alone (s := s) column previous head ts (atEnd && rest.isEmpty) true)
    rw [entityLines, List.flatMap_cons, ← ih others, ← List.singleton_append, List.filterMap_append,
      List.filterMap_cons, List.filterMap_cons, same]

/-- An entity with one line has what that line contributes. -/
lemma entityLines_alone {head : Token} {tokens line : List Token}
    (standing : Token.Standing (head :: tokens)) (h : line ∈ (lineGroups (head :: tokens)).tail) :
    entityLines s true (lastBeforeBody head line) (bodyLines head line) =
      [entityLine s ⟨head, line, true⟩] := by
  have lines : ∀ t ∈ tokens, t.line ≤ t.endLine := fun t ht =>
    (standing.line t (List.mem_cons_of_mem _ ht)).2
  obtain ⟨more, rest, eq, below⟩ := go_eq_cons lines head.endLine [head]
  have groups : lineGroups (head :: tokens) = ([head].reverse ++ more) :: rest := eq
  rw [groups, List.tail_cons] at h
  have one := lineGroups_of_mem (groups ▸ List.mem_cons_of_mem _ h : line ∈ lineGroups (head :: tokens))
  have apart : strayBehind head line = false := by
    cases line with
    | nil => rfl
    | cons t ts => simpa [strayBehind] using below _ h t rfl
  rw [lastBeforeBody, bodyLines, apart, one]
  rfl

end Lines

/-- What the lines of an entity contribute. -/
structure Entity.MadeOf (e : Entity) (lines : List Entity) : Prop where
  fields : e.fields = lines.flatMap (·.fields)
  keys : e.keys = lines.flatMap (·.keys)
  directives : e.directives = lines.flatMap (·.directives)

/-- An entity is made of its lines, each of them on its own below the marker. -/
lemma entity_madeOf (s : Source) {head : Token} {tokens : List Token}
    (standing : Token.Standing (head :: tokens)) (atEnd : Bool) :
    (entity s head tokens atEnd).1.MadeOf
      ((lineGroups (head :: tokens)).tail.map fun line => (entity s head line true).1) := by
  have columns : ∀ line ∈ bodyLines head tokens, ∃ t ts, line = t :: ts ∧ t.column ≠ 0 := by
    intro line hline
    obtain ⟨sub, ne⟩ := sublist_of_mem_bodyLines hline
    obtain ⟨t, ts, rfl⟩ := List.exists_cons_of_ne_nil ne
    exact ⟨t, ts, rfl, standing.column t (List.mem_cons_of_mem _ (sub.subset List.mem_cons_self))⟩
  have lines {α : Type} {f : LineResult → Option α}
      (item : ∀ r r' : LineResult, r.item = r'.item → f r = f r') :
      (entityLines s atEnd (lastBeforeBody head tokens) (bodyLines head tokens)).filterMap f =
        (lineGroups (head :: tokens)).tail.flatMap fun line =>
          (entityLines s true (lastBeforeBody head line) (bodyLines head line)).filterMap f := by
    rw [filterMap_entityLines item columns atEnd _ head, bodyLines_eq standing]
    exact List.flatMap_congr fun line hline => by rw [entityLines_alone standing hline]
  constructor
  · rw [List.flatMap_map]
    exact lines fun r r' same => by rw [LineResult.field?, LineResult.field?, same]
  · rw [List.flatMap_map]
    exact lines fun r r' same => by rw [LineResult.key?, LineResult.key?, same]
  · rw [List.flatMap_map]
    exact lines fun r r' same => by rw [LineResult.directive?, LineResult.directive?, same]

/-- Only a marker makes an entity. -/
lemma entity_of_readStatement {s : Source} {plugins : Plugin.Registry} {recovering : Bool} {head : Token}
    {tokens : List Token} {atEnd : Bool} {e : Entity}
    (h : (readStatement s plugins recovering head tokens atEnd).statement = some (.entity e)) :
    head.kind = .entity ∧ e = (entity s head tokens atEnd).1 := by
  unfold readStatement at h
  dsimp only at h
  split at h
  · next kind =>
    cases h
    exact ⟨kind, rfl⟩
  · obtain ⟨_, _, _, ⟨⟩⟩ := StatementResult.of_ofParsed h
  · obtain ⟨_, _, _, ⟨⟩⟩ := StatementResult.of_ofParsed h
  · obtain ⟨_, _, _, ⟨⟩⟩ := StatementResult.of_ofParsed h
  · obtain ⟨_, _, _, ⟨⟩⟩ := StatementResult.of_ofParsed h
  · obtain ⟨_, _, _, ⟨⟩⟩ := StatementResult.of_ofParsed h
  · split at h
    · split at h
      · obtain ⟨_, _, _, ⟨⟩⟩ := StatementResult.of_ofParsed h
      · cases h
    · cases h
  · cases h

/-- An entity of a document comes from a group of its tokens. -/
lemma exists_group_of_entity {s : Source} {plugins : Plugin.Registry} {recovering : Bool}
    {groups : List (Token × List Token)} {e : Entity}
    (h : .entity e ∈ (readStatements s plugins recovering groups).1) :
    ∃ head tokens atEnd, (head, tokens) ∈ groups ∧ head.kind = .entity ∧
      e = (entity s head tokens atEnd).1 := by
  induction groups generalizing recovering with
  | nil => cases h
  | cons g rest ih =>
    obtain ⟨head, tokens⟩ := g
    rcases List.mem_append.1 h with here | later
    · obtain ⟨kind, eq⟩ := entity_of_readStatement (Option.mem_toList.1 here)
      exact ⟨head, tokens, rest.isEmpty, List.mem_cons_self, kind, eq⟩
    · obtain ⟨head, tokens, atEnd, mem, kind, eq⟩ := ih later
      exact ⟨head, tokens, atEnd, List.mem_cons_of_mem _ mem, kind, eq⟩

end Document

namespace Compilation

open Document

lemma statements_read (path s : String) (plugins : Plugin.Registry) :
    (read path (Text.bytes s) plugins).1.statements =
      (readStatements (Text.slice s.toList) plugins false
        (statementGroups (Scan.ofChars s.toList).body)).1 := by
  rw [read_bytes, Scan.ofChars]
  dsimp only
  rw [ofTokens, Scan.takeWhile_tokens]

/-- Bytes that are not in UTF-8 have no statements. -/
lemma statements_of_invalid {src : List UInt8} (invalid : Text.decode? src = none) (path : String)
    (plugins : Plugin.Registry) : (read path src plugins).1.statements = [] := by
  rw [read, Scan.ofBytes, invalid]
  rfl

/-- **Reading is local.** If a document in UTF-8 ends with a line, leaves no expression open and does not end
with a word in front of an expression, and another one starts with a statement, then the statements of the
one with the other one below it are the statements of both, those of the second moved down, whatever is
wrong with them. And every entity of a document has what each of its lines contributes on its own, the
other lines taken away. -/
theorem read_local {a b : List UInt8} {plugins : Plugin.Registry}
    (looks : ∀ keyword handler, plugins.lookup keyword = some handler → LooksAtText handler)
    (encoded : (Text.decode? a).isSome = true ∧ (Text.decode? b).isSome = true)
    (line : a.getLast? = some (Text.ascii '\n'))
    (closed : ∀ e ∈ (Scan.ofBytes a).errors, e.fault ≠ .openExpression)
    (apart : ∀ t ∈ (Scan.ofBytes a).body.getLast?,
      t.kind ≠ .keyword .check ∧ t.isWord "USING" = false)
    (front : ∀ t ∈ (Scan.ofBytes b).tokens.head?,
      t.column = 1 ∧ t.isSymbol '\x7d' = false ∧ t.isSymbol ')' = false ∨ t.kind = .entity)
    (path : String) (src : List UInt8) :
    (read path (a ++ b) plugins).1.statements =
        (read path a plugins).1.statements ++
          (read path b plugins).1.statements.map (·.shift (a.count (Text.ascii '\n'))) ∧
      ∀ e, .entity e ∈ (read path src plugins).1.statements →
        ∃ head tokens atEnd, (head, tokens) ∈ statementGroups (Scan.ofBytes src).body ∧
          head.kind = .entity ∧
          e = (entity (Text.slice ((Text.decode? src).getD [])) head tokens atEnd).1 ∧
          e.MadeOf ((lineGroups (head :: tokens)).tail.map fun line =>
            (entity (Text.slice ((Text.decode? src).getD [])) head line true).1) := by
  refine ⟨?_, fun e he => ?_⟩
  · obtain ⟨x, rfl⟩ := Text.exists_eq_bytes encoded.1
    obtain ⟨y, rfl⟩ := Text.exists_eq_bytes encoded.2
    rw [Scan.ofBytes_bytes] at closed apart front
    rw [← Text.bytes_append, statements_read, statements_read, statements_read, String.toList_append,
      Text.bytes, Text.count_feed_encode]
    exact statements_append looks (Text.getLast?_of_bytes line) closed apart
      fun t ht => front t (Scan.head?_tokens ht)
  · cases valid : Text.decode? src with
    | none =>
      rw [statements_of_invalid valid] at he
      cases he
    | some cs =>
      obtain ⟨s, rfl⟩ := Text.exists_eq_bytes (Option.isSome_iff_exists.2 ⟨cs, valid⟩)
      obtain rfl : s.toList = cs := Option.some.inj ((Text.decode?_bytes s).symm.trans valid)
      rw [statements_read] at he
      rw [Scan.ofBytes_bytes]
      obtain ⟨head, tokens, atEnd, mem, kind, rfl⟩ := exists_group_of_entity he
      refine ⟨head, tokens, atEnd, mem, kind, rfl, entity_madeOf _ ?_ atEnd⟩
      have sub := (sublist_of_mem_statementGroups mem).trans (List.dropLast_sublist _)
      exact (Scan.standing_ofChars s.toList).sublist sub

/-- A registry whose only handler keeps the text of its statements. -/
def notes : Plugin.Registry :=
  ⟨[("NOTE", ⟨fun b => .ok b.body, fun _ node => .ok node⟩)]⟩

theorem read_local_of_notes :
    let a := Text.bytes ":A\n  INT $.id PK PK(\n  TEXT\nnote one\n"
    let b := Text.bytes ":B\n  $ TTL\n  A @.as NOT\n\n two\nNOTE three"
    (read "notes.erd" (a ++ b) notes).1.statements =
      (read "notes.erd" a notes).1.statements ++
        (read "notes.erd" b notes).1.statements.map (·.shift (a.count (Text.ascii '\n'))) := by
  refine (read_local ?_ ?_ ?_ ?_ ?_ ?_ "notes.erd" []).1
  · intro keyword handler found x y _ body
    obtain rfl : handler = ⟨fun b => .ok b.body, fun _ node => .ok node⟩ := by
      unfold Plugin.Registry.lookup notes at found
      rw [List.lookup_cons] at found
      split at found <;> simp_all
    exact congrArg Except.ok body
  · rw [Text.decode?_bytes, Text.decode?_bytes]
    exact ⟨rfl, rfl⟩
  · decide
  · rw [Scan.ofBytes_bytes]
    decide +kernel
  · rw [Scan.ofBytes_bytes]
    decide +kernel
  · rw [Scan.ofBytes_bytes]
    decide +kernel

/-- A line that is not in UTF-8 takes the statements below it along, though it leaves no expression open and
ends with no word. -/
theorem statements_lost :
    let a : List UInt8 := [0xFF, Text.ascii '\n']
    let b := Text.bytes ":B\n  INT $.id PK\n"
    (∀ e ∈ (Scan.ofBytes a).errors, e.fault ≠ .openExpression) ∧ (Scan.ofBytes a).body = [] ∧
      (∀ t ∈ (Scan.ofBytes b).tokens.head?, t.column = 1 ∧ t.kind = .entity) ∧
      (read "b.erd" (a ++ b) .empty).1.statements = [] ∧
      (read "b.erd" a .empty).1.statements ++
        (read "b.erd" b .empty).1.statements.map (·.shift (a.count (Text.ascii '\n'))) ≠ [] := by
  refine ⟨by decide +kernel, by decide +kernel, ?_, statements_of_invalid (by decide +kernel) _ _, ?_⟩
  · rw [Scan.ofBytes_bytes]
    decide +kernel
  · rw [read_bytes]
    decide +kernel

end Compilation

end ErdSql
