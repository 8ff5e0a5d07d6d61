import ErdSql.Proofs.Faultless
import ErdSql.Proofs.Locality
import ErdSql.Proofs.Lookahead
import ErdSql.Proofs.Registrations

/-!
# Words with handlers

A statement that opens in column one with a registered word is handed to the handler of the word, and every
other one is read as without handlers. Only what opens no statement at all is different: whether it is
reported depends on whether the statement above it could be read.

* `Document.outcomes`: the outcome of each statement of a document.
* `Scan.exists_between`: what stands between the head of a statement and the next one.
* `Scan.identifier_of_word`: a word that is not reserved is one identifier.
* `Document.exists_hasStatement`: a name at the start of a line opens a statement.
* `Document.Dispatches`: how the statements of a document are read with handlers.
* `Compilation.registered_words_handled`: sequences of registrations, and documents read with them.
-/

namespace ErdSql

/-! ### Outcomes -/

namespace Document

open ErdSql.Document.Parser

/-- The outcomes of statements, one after another. -/
def outcomes (src : Source) (plugins : Plugin.Registry) (recovering : Bool) :
    List (Token × List Token) → List StatementResult
  | [] => []
  | (head, tokens) :: rest =>
    let result := readStatement src plugins recovering head tokens rest.isEmpty
    result :: outcomes src plugins result.statement.isNone rest

/-- Whether the statement above the one with the given number could not be read. -/
def recoveringAt (recovering : Bool) (results : List StatementResult) : Nat → Bool
  | 0 => recovering
  | n + 1 => results[n]?.any (·.statement.isNone)

/-- The outcome for text that opens no statement. -/
def unknown (recovering : Bool) (head : Token) : StatementResult :=
  ⟨none, if recovering then [] else [⟨head.line, head.column, .statement, .token head⟩]⟩

/-- The outcome for a statement that is handed to a handler. -/
def handed (handler : Plugin.Handler) (head : Token) (block : Plugin.Block) : StatementResult :=
  match handler.parse block with
  | .ok node => ⟨some (.block ⟨block, node⟩), []⟩
  | .error reason => ⟨none, [⟨head.line, head.column, .validBlock block.keyword, .refusal reason⟩]⟩

/-- Whether a token opens a statement of the language itself. -/
def opensBuiltIn (head : Token) : Bool :=
  match head.kind with
  | .entity | .keyword .enum | .keyword .index | .keyword .materialized | .keyword .trigger
  | .keyword .extension => true
  | _ => false

section Outcomes
variable {src : Source} {plugins : Plugin.Registry}

/-- What is read is what the outcomes have. -/
lemma readStatements_eq_outcomes (recovering : Bool) (groups : List (Token × List Token)) :
    readStatements src plugins recovering groups =
      ((outcomes src plugins recovering groups).filterMap (·.statement),
        (outcomes src plugins recovering groups).flatMap (·.errors)) := by
  induction groups generalizing recovering with
  | nil => rfl
  | cons g rest ih =>
    rw [readStatements, outcomes, ih]
    dsimp only
    rw [List.flatMap_cons, List.filterMap_cons]
    cases (readStatement src plugins recovering g.1 g.2 rest.isEmpty).statement <;> rfl

/-- Each statement has its own outcome. -/
lemma getElem?_outcomes (recovering : Bool) (before after : List (Token × List Token)) (head : Token)
    (tokens : List Token) :
    let results := outcomes src plugins recovering (before ++ (head, tokens) :: after)
    results[before.length]? = some (readStatement src plugins
      (recoveringAt recovering results before.length) head tokens after.isEmpty) := by
  induction before generalizing recovering with
  | nil => rfl
  | cons g before ih =>
    dsimp only
    rw [List.cons_append, outcomes, List.length_cons, List.getElem?_cons_succ, ih]
    cases before <;> rfl

/-- A statement that opens with a registered word goes to the handler. -/
lemma readStatement_of_registered {handler : Plugin.Handler} {recovering atEnd : Bool} {head : Token}
    {tokens : List Token} (kind : head.kind = .identifier) (column : head.column = 1)
    (found : plugins.lookup head.spelling = some handler) :
    readStatement src plugins recovering head tokens atEnd =
      handed handler head ⟨Text.upper head.spelling, verbatim src tokens,
        Span.between head (tokens.getLast?.getD head)⟩ := by
  let block : Plugin.Block :=
    ⟨Text.upper head.spelling, verbatim src tokens, Span.between head (tokens.getLast?.getD head)⟩
  have read : readStatement src plugins recovering head tokens atEnd =
      .ofParsed .block (handledBlock handler head block (Cursor.skipAll ⟨head, tokens, atEnd⟩)) := by
    rw [readStatement]
    simp only [kind, column, found]
    rfl
  rw [read, handledBlock, handed]
  cases handler.parse block <;> rfl

/-- Handlers have no part in the statements of the language. -/
lemma readStatement_of_opensBuiltIn {head : Token} (builtIn : opensBuiltIn head = true)
    (recovering recovering' : Bool) (plugins' : Plugin.Registry) (tokens : List Token) (atEnd : Bool) :
    readStatement src plugins recovering head tokens atEnd =
      readStatement src plugins' recovering' head tokens atEnd := by
  unfold opensBuiltIn at builtIn
  unfold readStatement
  split at builtIn
  all_goals first
    | next kind => rw [kind]
    | cases builtIn

/-- Without a handler other text opens no statement. -/
lemma readStatement_of_unregistered {recovering atEnd : Bool} {head : Token} {tokens : List Token}
    (other : opensBuiltIn head = false)
    (unregistered : head.kind = .identifier → head.column = 1 → plugins.lookup head.spelling = none) :
    readStatement src plugins recovering head tokens atEnd = unknown recovering head := by
  unfold readStatement
  dsimp only
  split
  case h_7 kind =>
    by_cases column : head.column = 1
    · rw [unregistered kind column, if_pos (by simp [column])]
      rfl
    · rw [if_neg (by simp [column])]
      rfl
  case h_8 => rfl
  all_goals
    next kind =>
      rw [opensBuiltIn, kind] at other
      cases other

end Outcomes

end Document

/-! ### The text of a statement -/

namespace Text

/-- Texts at the front of another one are the same if they have as many bytes. -/
lemma eq_of_length_encode {xs ys cs : List Char} (hx : xs <+: cs) (hy : ys <+: cs)
    (same : (encode xs).length = (encode ys).length) : xs = ys := by
  have front := isPrefix_of_length_encode_le hx hy same.le
  have back := isPrefix_of_length_encode_le hy hx same.ge
  exact front.eq_of_length (le_antisymm front.length_le back.length_le)

end Text

namespace Scan

/-- The text between two places of a document: a gap, what some tokens stand for from the first to the last,
and another gap. The gaps are white space and comments if the document has no faults. -/
structure Between (cs front : List Char) (tokens : List Token) (next : Token)
    (gap text tail below : List Char) : Prop where
  whole : cs = front ++ gap ++ text ++ tail ++ below
  first : ∀ t ∈ tokens.head?, t.offset = (Text.encode (front ++ gap)).length
  last : ∀ t ∈ tokens.getLast?, t.stop = (Text.encode (front ++ gap ++ text)).length
  next : next.offset = (Text.encode (front ++ gap ++ text ++ tail)).length
  nothing : tokens = [] → text = []
  gaps : (ofChars cs).errors = [] → Gap gap (text ++ tail ++ below) ∧ Gap tail below

namespace Laid

variable {clean : Prop} {front cs : List Char} {ts us : List Token} {t u : Token}

/-- Behind some tokens the others are laid out in what is left of the text. -/
lemma exists_append (h : Laid clean front cs (ts ++ us)) (ne : us ≠ []) :
    ∃ xs ys, cs = xs ++ ys ∧ Laid clean (front ++ xs) ys us := by
  induction ts generalizing front cs with
  | nil => exact ⟨[], cs, rfl, by rwa [List.append_nil]⟩
  | cons t ts ih =>
    generalize tokens : t :: ts ++ us = all at h
    cases h with
    | last =>
      have none : ts ++ us = [] := (List.cons.inj tokens).2
      exact absurd (List.append_eq_nil_iff.1 none).2 ne
    | @cons _ gap range rest t' ts' between place kind range_ne behind =>
      obtain ⟨rfl, rfl⟩ := List.cons.inj tokens
      obtain ⟨xs, ys, rfl, laid⟩ := ih behind
      refine ⟨gap ++ range ++ xs, ys, by simp only [List.append_assoc], ?_⟩
      simpa only [List.append_assoc] using laid

/-- In front of the first token there is a gap. -/
lemma exists_gap (h : Laid clean front cs (u :: us)) : ∃ gap below, cs = gap ++ below ∧
    u.offset = (Text.encode (front ++ gap)).length ∧ (clean → Gap gap below) := by
  generalize tokens : u :: us = all at h
  cases h with
  | last skipped place =>
    cases tokens
    exact ⟨cs, [], (List.append_nil cs).symm, place.offset, skipped⟩
  | @cons _ gap range rest t ts skipped place =>
    cases tokens
    exact ⟨gap, range ++ rest, List.append_assoc .., place.offset, skipped⟩

/-- Some tokens stand behind a gap, and behind them there is another one. -/
lemma exists_gaps (h : Laid clean front cs (t :: ts ++ u :: us)) :
    ∃ gap text tail below, cs = gap ++ text ++ tail ++ below ∧
      t.offset = (Text.encode (front ++ gap)).length ∧
      (∀ last ∈ (t :: ts).getLast?, last.stop = (Text.encode (front ++ gap ++ text)).length) ∧
      u.offset = (Text.encode (front ++ gap ++ text ++ tail)).length ∧
      (clean → Gap gap (text ++ tail ++ below) ∧ Gap tail below) := by
  induction ts generalizing front cs t with
  | nil =>
    generalize tokens : [t] ++ u :: us = all at h
    cases h with
    | last => cases tokens
    | @cons _ gap range rest t' ts' skipped place kind ne behind =>
      cases tokens
      obtain ⟨tail, below, rfl, offset, skipped'⟩ := behind.exists_gap
      refine ⟨gap, range, tail, below, (List.append_assoc ..).symm, place.offset, ?_, offset,
        fun c => ⟨?_, skipped' c⟩⟩
      · rintro _ ⟨⟩
        exact place.stop
      · rw [List.append_assoc]
        exact skipped c
  | cons t' ts ih =>
    generalize tokens : t :: t' :: ts ++ u :: us = all at h
    cases h with
    | last => cases tokens
    | @cons _ gap range rest _ _ skipped place kind ne behind =>
      cases tokens
      obtain ⟨gap', text, tail, below, rfl, -, last, offset, skipped'⟩ := ih behind
      refine ⟨gap, range ++ gap' ++ text, tail, below, by simp only [List.append_assoc], place.offset, ?_, ?_,
        fun c => ⟨?_, (skipped' c).2⟩⟩
      · intro x hx
        rw [List.getLast?_cons_cons] at hx
        rw [last x hx]
        simp only [List.append_assoc]
      · rw [offset]
        simp only [List.append_assoc]
      · simpa only [List.append_assoc] using skipped c

end Laid

/-- Behind a token of a document stand others, up to the next one. -/
lemma exists_between {cs front range : List Char} {ts tokens us : List Token} {head next : Token}
    (all : (ofChars cs).tokens = ts ++ (head :: (tokens ++ next :: us))) (here : head.At front range)
    (part : front ++ range <+: cs) :
    ∃ gap text tail below, Between cs (front ++ range) tokens next gap text tail below := by
  have laid : Laid ((ofChars cs).errors = []) [] cs (ofChars cs).tokens := laid_scanFrom false [] cs
  rw [all] at laid
  obtain ⟨xs, ys, rfl, laid⟩ := laid.exists_append (List.cons_ne_nil _ _)
  generalize behind : head :: (tokens ++ next :: us) = heads at laid
  cases laid with
  | last => simp at behind
  | @cons _ gap0 range0 rest _ _ _ place _ _ laid =>
    obtain ⟨rfl, rfl⟩ := List.cons.inj behind
    have part' : [] ++ xs ++ gap0 ++ range0 <+: xs ++ (gap0 ++ range0 ++ rest) :=
      ⟨rest, by simp only [List.nil_append, List.append_assoc]⟩
    have same : [] ++ xs ++ gap0 ++ range0 = front ++ range :=
      Text.eq_of_length_encode part' part (place.stop.symm.trans here.stop)
    have whole : xs ++ (gap0 ++ range0 ++ rest) = front ++ range ++ rest := by
      rw [← same]
      simp only [List.nil_append, List.append_assoc]
    rw [same] at laid
    rw [whole] at laid ⊢
    cases tokens with
    | nil =>
      obtain ⟨gap, below, rfl, offset, clean⟩ := laid.exists_gap
      refine ⟨gap, [], [], below, ⟨by simp, nofun, nofun, by simpa using offset, fun _ => rfl, ?_⟩⟩
      exact fun faultless => ⟨clean faultless, .nil⟩
    | cons t ts' =>
      obtain ⟨gap, text, tail, below, rfl, first, last, offset, clean⟩ := laid.exists_gaps
      refine ⟨gap, text, tail, below, ⟨by simp only [List.append_assoc], ?_, last, offset, nofun, clean⟩⟩
      rintro _ ⟨⟩
      exact first

/-! ### Starts of lines -/

end Scan

namespace Position

/-- Some characters further, a place stands on a later line, or not in front of its column. -/
lemma line_lt_or_column_le (p : Position) (cs : List Char) :
    p.line < (p.advanceBy cs).line ∨ p.column ≤ (p.advanceBy cs).column := by
  induction cs generalizing p with
  | nil => exact .inr le_rfl
  | cons c cs ih =>
    by_cases feed : c = '\n'
    · exact .inl (line_lt_advanceBy (feed ▸ List.mem_cons_self) p)
    · have next := ih (p.advance c)
      rw [line_advance feed, column_advance feed] at next
      exact next.imp_right (Nat.le_of_succ_le ·)

/-- Behind something that does not end with white space there is no start of a line. -/
lemma one_lt_column_advanceBy {p : Position} (column : p.column ≠ 0) {range : List Char}
    (solid : Scan.Solid range) : 1 < (p.advanceBy range).column := by
  obtain none | ⟨front, c, rfl⟩ := range.eq_nil_or_concat'
  · exact absurd none solid.ne_nil
  · have other : c ≠ '\n' := by
      rintro rfl
      exact absurd (solid.last '\n' List.getLast?_concat) (by decide)
    have before := column_advanceBy_ne_zero column front
    rw [advanceBy_append]
    change 1 < ((p.advanceBy front).advance c).column
    rw [column_advance other]
    omega

end Position

namespace Scan

/-- A token at the start of a line stands below a place that is no start of a line. -/
lemma line_lt_of_column {opens : Bool} {p : Position} {cs : List Char} (column : 1 < p.column) {t : Token}
    (ht : t ∈ (scanFrom opens p cs).tokens) (first : t.column = 1) : p.line < t.line := by
  -- what a step takes ends on a later line, or not at the start of one
  have behind {opens : Bool} {p : Position} {taken cs : List Char} (column : 1 < p.column)
      (ht : t ∈ (scanFrom opens (p.advanceBy taken) cs).tokens)
      (ih : 1 < (p.advanceBy taken).column → (p.advanceBy taken).line < t.line) : p.line < t.line := by
    obtain later | same := p.line_lt_or_column_le taken
    · have below := (standing_scanFrom opens cs (Nat.zero_lt_of_lt later)
        (Position.column_advanceBy_ne_zero (Nat.ne_of_gt (Nat.zero_lt_of_lt column)) taken)).2 t ht
      exact later.trans_le below
    · exact (p.line_le_advanceBy taken).trans_lt (ih (column.trans_le same))
  fun_induction scanFrom opens p cs with
  | case1 opens p =>
    rw [List.mem_singleton.1 ht] at first
    exact absurd first (Nat.ne_of_gt column)
  | case2 opens p c cs more _ ih => exact behind column ht fun column' => ih column' ht
  | case3 opens p c cs kind spelling more _ next token rest ih =>
    obtain rfl | later := List.mem_cons.1 ht
    · exact absurd first (Nat.ne_of_gt column)
    · exact behind column later fun column' => ih column' later
  | case4 opens p c cs fault before more _ place rest ih => exact behind column ht fun column' => ih column' ht

/-- A token at the start of a line stands on a later line than the ones before it end on. -/
lemma pairwise_endLine_lt (opens : Bool) {p : Position} (cs : List Char) (column : p.column ≠ 0) :
    (scanFrom opens p cs).body.Pairwise fun t u => u.column = 1 → t.endLine < u.line := by
  fun_induction scanFrom opens p cs with
  | case1 => exact .nil
  | case2 opens p c cs more _ ih => exact ih (Position.column_advanceBy_ne_zero column _)
  | case3 opens p c cs kind spelling more found next token rest ih =>
    rw [body, List.dropLast_cons_of_ne_nil (tokens_scanFrom_ne_nil _ _ _), List.pairwise_cons]
    refine ⟨fun u hu first => ?_, ih (Position.column_advanceBy_ne_zero column _)⟩
    exact line_lt_of_column (Position.one_lt_column_advanceBy column (solid_of_step found))
      (List.dropLast_subset _ hu) first
  | case4 opens p c cs fault before more _ place rest ih =>
    exact ih (Position.column_advanceBy_ne_zero column _)

/-! ### Words -/

open Plugin.Registry (isValidKeyword)

/-- A word that no more of a name follows is a name. -/
lemma nameLength_word {cs rest : List Char} (parts : cs.all isNamePart = true) (stop : nameLength rest = 0) :
    nameLength (cs ++ rest) = cs.length := by
  induction cs with
  | nil => exact stop
  | cons c cs ih =>
    rw [List.all_cons, Bool.and_eq_true] at parts
    rw [List.cons_append, nameLength, if_pos parts.1, ih parts.2, List.length_cons]

/-- A word gives one token, and all of it. -/
lemma step_word {w rest : List Char} (name : isValidKeyword (String.ofList w) = true)
    (stop : nameLength rest = 0) : ∃ c cs, w = c :: cs ∧ ∀ opens, step opens c (cs ++ rest) =
      .token (nameToken w) (String.ofList w) cs.length := by
  unfold isValidKeyword at name
  rw [String.toList_ofList] at name
  cases w with
  | nil => cases name
  | cons c cs =>
    rw [Bool.and_eq_true] at name
    refine ⟨c, cs, rfl, fun opens => ?_⟩
    rw [step_nameStart name.1, nameLength_word name.2 stop, List.take_left]

/-- Where a token starts, the text has a word: a name with letters, digits and underscores, and no more of a
name behind it. -/
structure WordAt (cs : List Char) (t : Token) (above w rest : List Char) : Prop where
  whole : cs = above ++ w ++ rest
  offset : t.offset = (Text.encode above).length
  name : isValidKeyword (String.ofList w) = true
  stop : nameLength rest = 0

/-- The token for a word that is not reserved is the identifier that the word spells. -/
lemma identifier_of_word {cs above w rest : List Char} {t : Token} (ht : t ∈ (ofChars cs).body)
    (word : WordAt cs t above w rest) (free : Keyword.ofText? (String.ofList w) = none) :
    t.kind = .identifier ∧ t.spelling = String.ofList w ∧ t.At above w := by
  obtain ⟨before, d, ds, more, opens, place, found, here⟩ := exists_place_of_mem_scanFrom false [] cs ht
  rw [List.nil_append] at place
  obtain ⟨c, letters, rfl, taken⟩ := step_word word.name word.stop
  have front : before <+: cs := ⟨_, place.symm⟩
  have front' : above <+: cs := ⟨c :: letters ++ rest, by rw [word.whole, List.append_assoc]⟩
  obtain rfl : before = above := Text.eq_of_length_encode front front' (here.offset.symm.trans word.offset)
  rw [word.whole, List.append_assoc, List.append_cancel_left_eq, List.cons_append] at place
  obtain ⟨rfl, rfl⟩ := List.cons.inj place
  rw [taken, nameToken, free] at found
  obtain ⟨kind, spelling, rfl⟩ := Step.token.inj found
  rw [List.take_left] at here
  exact ⟨kind.symm, spelling.symm, here⟩

end Scan

/-! ### Documents -/

namespace Text

/-- White space around a text is trimmed. -/
lemma trimChars_append {gap text tail : List Char} (blank : ∀ c ∈ gap ++ tail, isSpace c = true) :
    trimChars (gap ++ text ++ tail) = trimChars text := by
  obtain ⟨before, behind⟩ := List.forall_mem_append.1 blank
  have last (xs : List Char) : dropWhileEnd isSpace (xs ++ tail) = dropWhileEnd isSpace xs := by
    rw [dropWhileEnd, List.reverse_append, List.dropWhile_append_of_pos (by simpa using behind), dropWhileEnd]
  rw [trimChars, List.append_assoc, List.dropWhile_append_of_pos before, List.dropWhile_append, trimChars]
  split
  · next empty =>
    have none : tail.dropWhile isSpace = [] := List.dropWhile_eq_nil_iff.2 behind
    rw [none, List.isEmpty_iff.1 empty]
  · exact last _

end Text

namespace Keyword

/-- A word is reserved in any case. -/
lemma ofText?_upper (s : String) : ofText? (Text.upper s) = ofText? s := by
  rw [ofText?, Text.upper_upper, ofText?]

end Keyword

namespace Document

/-- What is copied for tokens is the trimmed text from the first to the last one. -/
lemma verbatim_of_between {cs front gap text tail below : List Char} {tokens : List Token} {next : Token}
    (h : Scan.Between cs front tokens next gap text tail below) :
    verbatim (Text.slice cs) tokens = String.ofList (Text.trimChars text) := by
  cases tokens with
  | nil =>
    rw [h.nothing rfl]
    rfl
  | cons first ts =>
    obtain ⟨last, isLast⟩ : ∃ last, (first :: ts).getLast? = some last :=
      ⟨_, List.getLast?_eq_some_getLast (List.cons_ne_nil _ _)⟩
    have copy : Text.slice cs first.offset last.stop = text := by
      rw [h.first first rfl, h.last last isLast, h.whole, List.append_assoc _ tail below]
      exact (Text.slice_between (front ++ gap) text (tail ++ below)).1
    simp only [verbatim, isLast, copy]

/-- A document has a statement, with the others in front of it and behind it. -/
def HasStatement (cs : List Char) (before : List (Token × List Token)) (head : Token) (tokens : List Token)
    (after : List (Token × List Token)) : Prop :=
  statementGroups (Scan.ofChars cs).body = before ++ (head, tokens) :: after

/-- The outcomes of the statements of a document. -/
def outcomesOf (cs : List Char) (plugins : Plugin.Registry) : List StatementResult :=
  outcomes (Text.slice cs) plugins false (statementGroups (Scan.ofChars cs).body)

/-- The token behind a statement: the head of the next one, or the end of the document. -/
def tokenBehind (cs : List Char) (after : List (Token × List Token)) : Token :=
  (after.head?.map (·.1)).getD (.final (Position.start.advanceBy cs))

/-- A name at the start of a line opens a statement. -/
lemma exists_hasStatement {cs : List Char} {t : Token} (ht : t ∈ (Scan.ofChars cs).body)
    (column : t.column = 1) (kind : t.kind = .identifier) :
    ∃ before tokens after, HasStatement cs before t tokens after := by
  have lines := Scan.pairwise_endLine_lt false (p := .start) cs (by decide)
  obtain ⟨ts, us, split⟩ := List.append_of_mem ht
  have opens : ∀ previous ∈ ts.getLast?, ∀ u ∈ (t :: us).head?, opensStatement previous u = true := by
    rintro previous last _ ⟨⟩
    have later : previous.endLine < t.line := by
      rw [← Scan.ofChars, split, List.pairwise_append] at lines
      exact lines.2.2 previous (List.mem_of_getLast? last) t List.mem_cons_self column
    simp [opensStatement, later, column, Token.isSymbol, kind]
  have first (head previous : Token) (collected us : List Token) : ∃ tokens after,
      statementGroups.go head previous collected us = (head, tokens) :: after := by
    fun_induction statementGroups.go head previous collected us with
    | case1 => exact ⟨_, _, rfl⟩
    | case2 => exact ⟨_, _, rfl⟩
    | case3 _ _ _ _ _ _ ih => exact ih
  obtain ⟨tokens, after, group⟩ := first t t [] us
  refine ⟨statementGroups ts, tokens, after, ?_⟩
  rw [HasStatement, split, statementGroups_append opens]
  exact congrArg (statementGroups ts ++ ·) group

namespace HasStatement

variable {cs : List Char} {before after : List (Token × List Token)} {head : Token} {tokens : List Token}
  (h : HasStatement cs before head tokens after)
include h

lemma head_mem : head ∈ (Scan.ofChars cs).body := by
  have inside : (head, tokens) ∈ statementGroups (Scan.ofChars cs).body := by
    rw [HasStatement.eq_def] at h
    rw [h]
    exact List.mem_append_right _ List.mem_cons_self
  exact (sublist_of_mem_statementGroups inside).subset List.mem_cons_self

lemma exists_tokens_eq :
    ∃ ts us, (Scan.ofChars cs).tokens = ts ++ (head :: (tokens ++ tokenBehind cs after :: us)) := by
  have all : (Scan.ofChars cs).tokens =
      (statementGroups (Scan.ofChars cs).body).flatMap (fun g => g.1 :: g.2) ++
        [.final (Position.start.advanceBy cs)] := by
    rw [flatMap_statementGroups]
    exact Scan.tokens_eq_concat false .start cs
  rw [HasStatement.eq_def] at h
  rw [h, List.flatMap_append, List.flatMap_cons, List.append_assoc, List.append_assoc] at all
  cases after with
  | nil => exact ⟨_, [], all⟩
  | cons g after => exact ⟨_, _, all⟩

lemma getElem?_outcomesOf (plugins : Plugin.Registry) : (outcomesOf cs plugins)[before.length]? =
    some (readStatement (Text.slice cs) plugins (recoveringAt false (outcomesOf cs plugins) before.length)
      head tokens after.isEmpty) := by
  rw [HasStatement.eq_def] at h
  rw [outcomesOf, h]
  exact getElem?_outcomes false before after head tokens

end HasStatement

/-- How the statements of a document are read with handlers. -/
structure Dispatches (cs : List Char) (plugins : Plugin.Registry) : Prop where
  /-- The token for a registered word is one identifier, and in column one it opens a statement. -/
  scanned {above w rest : List Char} {handler : Plugin.Handler} : ∀ t ∈ (Scan.ofChars cs).body,
    Scan.WordAt cs t above w rest →
    plugins.handlers.lookup (Text.upper (String.ofList w)) = some handler →
    t.kind = .identifier ∧ t.spelling = String.ofList w ∧ t.At above w ∧
      (t.column = 1 → ∃ before tokens after, HasStatement cs before t tokens after)
  /-- A statement that opens in column one with a registered word: the trimmed text behind the word, from the
  first to the last token, goes to the handler. -/
  words {before head tokens after} {above w rest : List Char} {handler : Plugin.Handler} :
    HasStatement cs before head tokens after → head.column = 1 → Scan.WordAt cs head above w rest →
    plugins.handlers.lookup (Text.upper (String.ofList w)) = some handler →
    ∃ gap text tail below : List Char,
      Scan.Between cs (above ++ w) tokens (tokenBehind cs after) gap text tail below ∧
      ((∀ c ∈ gap ++ tail, Text.isSpace c = true) →
        Text.trimChars (gap ++ text ++ tail) = Text.trimChars text) ∧
      (outcomesOf cs plugins)[before.length]? =
        some (handed handler head ⟨Text.upper (String.ofList w), String.ofList (Text.trimChars text),
          Span.between head (tokens.getLast?.getD head)⟩)
  /-- A statement of the language is read as without handlers. -/
  builtIn {before head tokens after} :
    HasStatement cs before head tokens after → opensBuiltIn head = true →
    ∃ result : StatementResult, (outcomesOf cs plugins)[before.length]? = some result ∧
      (outcomesOf cs .empty)[before.length]? = some result
  /-- Other text without a handler is no statement, as without handlers. In both cases it is reported unless
  the statement above could not be read. -/
  others {before head tokens after} :
    HasStatement cs before head tokens after → opensBuiltIn head = false →
    (head.kind = .identifier → head.column = 1 → plugins.lookup head.spelling = none) →
    (outcomesOf cs plugins)[before.length]? =
        some (unknown (recoveringAt false (outcomesOf cs plugins) before.length) head) ∧
      (outcomesOf cs .empty)[before.length]? =
        some (unknown (recoveringAt false (outcomesOf cs .empty) before.length) head)

/-- Registered words are dispatched if none of them is reserved. -/
lemma dispatches_of_free {cs : List Char} {plugins : Plugin.Registry}
    (free : ∀ key handler, plugins.handlers.lookup key = some handler → Keyword.ofText? key = none) :
    Dispatches cs plugins := by
  have identifier {t : Token} (ht : t ∈ (Scan.ofChars cs).body) {above w rest : List Char}
      {handler : Plugin.Handler} (word : Scan.WordAt cs t above w rest)
      (found : plugins.handlers.lookup (Text.upper (String.ofList w)) = some handler) :
      t.kind = .identifier ∧ t.spelling = String.ofList w ∧ t.At above w := by
    refine Scan.identifier_of_word ht word ?_
    rw [← Keyword.ofText?_upper]
    exact free _ _ found
  constructor
  case scanned =>
    intro above w rest handler t ht word found
    obtain ⟨kind, spelling, here⟩ := identifier ht word found
    exact ⟨kind, spelling, here, fun column => exists_hasStatement ht column kind⟩
  case words =>
    intro before head tokens after above w rest handler statement column word found
    obtain ⟨kind, spelling, here⟩ := identifier statement.head_mem word found
    obtain ⟨ts, us, all⟩ := statement.exists_tokens_eq
    obtain ⟨gap, text, tail, below, between⟩ := Scan.exists_between all here ⟨rest, word.whole.symm⟩
    refine ⟨gap, text, tail, below, between, Text.trimChars_append, ?_⟩
    have registered : plugins.lookup head.spelling = some handler := by
      rw [Plugin.Registry.lookup, spelling, found]
    rw [statement.getElem?_outcomesOf, readStatement_of_registered kind column registered,
      verbatim_of_between between, spelling]
  case builtIn =>
    intro before head tokens after statement opens
    refine ⟨readStatement (Text.slice cs) .empty false head tokens after.isEmpty, ?_, ?_⟩
    · rw [statement.getElem?_outcomesOf, readStatement_of_opensBuiltIn opens]
    · rw [statement.getElem?_outcomesOf, readStatement_of_opensBuiltIn opens]
  case others =>
    intro before head tokens after statement other unregistered
    constructor
    · rw [statement.getElem?_outcomesOf, readStatement_of_unregistered other unregistered]
    · rw [statement.getElem?_outcomesOf, readStatement_of_unregistered other fun _ _ => rfl]

end Document

namespace Compilation

open Document
open Plugin.Registry (ofCalls)

/-- **Registered words are handled, and no others.** A registry filled by calls has the first handler that is
offered for each keyword. In a document in UTF-8 every statement that stands in column one and opens with a
registered word is handed to the handler of the word with its trimmed text, and every other one is read as
without handlers, but for the report of text that opens no statement. -/
theorem registered_words_handled (calls : List Plugin.Registry.Call) (path : String) {src : List UInt8}
    {cs : List Char} (valid : Text.decode? src = some cs) :
    (ofCalls calls).FilledBy calls ∧
      read path src (ofCalls calls) =
        (⟨path, (outcomesOf cs (ofCalls calls)).filterMap (·.statement)⟩, (Scan.ofChars cs).errors,
          (outcomesOf cs (ofCalls calls)).flatMap (·.errors)) ∧
      Dispatches cs (ofCalls calls) := by
  have filled := Plugin.Registry.filledBy_ofCalls calls
  refine ⟨filled, ?_, dispatches_of_free fun key handler found => ?_⟩
  · have groups : (Scan.ofChars cs).tokens.takeWhile (fun t => t.kind != .eof) = (Scan.ofChars cs).body :=
      Scan.takeWhile_tokens false .start cs
    rw [read, Scan.ofBytes, valid]
    simp only [Option.getD_some, ofTokens, groups, readStatements_eq_outcomes, outcomesOf]
  · have registered : key ∈ (ofCalls calls).keywords := by
      rw [Plugin.Registry.mem_keywords_iff, found]
      rfl
    obtain ⟨c, -, -, -, free, -⟩ := (filled.keywords key).1 registered
    exact free

/-- A handler that keeps the text of its statements. -/
def keeper : Plugin.Handler :=
  ⟨fun b => .ok b.body, fun _ node => .ok node⟩

/-- The first of two calls counts, and a reserved word, a number and a missing handler do not. -/
theorem registered_words_handled_of_keeper :
    let calls : List Plugin.Registry.Call := [⟨" note ", some keeper⟩,
      ⟨"Note", some ⟨fun _ => .error "", fun _ _ => .error ""⟩⟩,
      ⟨"index", some keeper⟩, ⟨"2nd", some keeper⟩, ⟨"memo", none⟩]
    let text := "Note a # one\n  b\n:A\n  INT $.id PK\nmemo\n"
    (ofCalls calls).keywords = ["NOTE"] ∧
      Text.decode? (Text.bytes text) = some text.toList ∧
      (ofCalls calls).FilledBy calls ∧ Dispatches text.toList (ofCalls calls) ∧
      (read "" (Text.bytes text) (ofCalls calls)).1.statements.head? =
        some (.block ⟨⟨"NOTE", "a # one\n  b", ⟨1, 1, 2, 4⟩⟩, "a # one\n  b"⟩) := by
  intro calls text
  have handled := registered_words_handled calls "" (Text.decode?_bytes text)
  refine ⟨by decide +kernel, Text.decode?_bytes text, handled.1, handled.2.2, ?_⟩
  rw [handled.2.1]
  decide +kernel

/-- A word without a handler is reported behind a statement that a handler has read, and passed over behind
one that none could read. -/
theorem unknown_word_reported :
    let text := "FOO a\nbar b\n".toList
    let plugins := ofCalls [⟨"FOO", some keeper⟩]
    (plugins.lookup "bar").isNone = true ∧
      ((statementGroups (Scan.ofChars text).body)[1]?.map fun g => g.1.text) = some "bar" ∧
      ((outcomesOf text plugins)[1]?.map fun r => r.errors.map fun e => (e.line, e.column)) = some [(2, 1)] ∧
      ((outcomesOf text .empty)[1]?.map (·.errors)) = some [] := by
  intro text plugins
  refine ⟨?_, ?_, ?_, ?_⟩
  · decide +kernel
  · decide +kernel
  · decide +kernel
  · decide +kernel

end Compilation

end ErdSql
