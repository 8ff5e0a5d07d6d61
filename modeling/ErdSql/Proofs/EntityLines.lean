import ErdSql.Proofs.FieldLines

/-!
# Reading the lines of an entity

Key lines and feature lines start with a keyword behind which no field name follows. Like field lines
they are read back as they were written (`Document.exists_line`).
-/

namespace ErdSql.Document

open ErdSql.Document.Parser ErdSql.Scan

/-! ### Key lines -/

/-- A token that is no field name behind the first one makes no field line. -/
lemma startsField_of_plain {t u : Token} (symbol : u.isSymbol '(' = false)
    (plain : ∀ cardinality, u.kind ≠ .field cardinality) (ts : List Token) :
    startsField (t :: u :: ts) = false := by
  rw [startsField.eq_def]
  dsimp only
  rw [symbol, if_neg Bool.false_ne_true]
  split
  · next cardinality kind => exact absurd kind (plain cardinality)
  · rfl

/-- Neither does a token that is no field name behind a list. -/
lemma startsField_of_listed {pss : List (List Piece)} (h : Neutral (joined pss)) (t : Token) (p : Position)
    {rest : List Token} (plain : ∀ u ∈ rest.head?, ∀ cardinality, u.kind ≠ .field cardinality) :
    startsField (t :: (tokensAt p (listed pss) ++ rest)) = false := by
  obtain ⟨close, behind, opening, closing⟩ := fieldBehindArguments_listed h p rest
  have start : startsField (t :: (tokensAt p (listed pss) ++ rest)) =
      fieldBehindArguments 0 (tokensAt p (listed pss) ++ rest) := rfl
  rw [start, behind, fieldBehindArguments.eq_def]
  dsimp only
  rw [opening, closing, if_neg Bool.false_ne_true, if_pos rfl, if_pos le_rfl]
  cases rest with
  | nil => rfl
  | cons u rest =>
    dsimp only
    split
    · next cardinality kind => exact absurd kind (plain u rfl cardinality)
    · rfl

/-- What is left to show of a key line. -/
lemma restores_key (reader : Parser KeyLine) {k : KeyLine} {ps : List Piece}
    (nonempty : ∀ p, tokensAt p ps ≠ [])
    (line : ∀ src p previous atEnd, entityLine (Text.slice src) ⟨previous, tokensAt p ps, atEnd⟩ =
      .ofParsed .key (reader ⟨previous, tokensAt p ps, atEnd⟩))
    (reads : ∀ src p, Stands src p (chars ps) → Reads reader (tokensAt p ps) [] (·.key = k.key)) :
    Restores (.key k) ps := by
  refine ⟨nonempty, fun src p stands previous atEnd => ?_⟩
  obtain ⟨k', previous', eq, hk⟩ := reads src p stands previous atEnd
  refine ⟨.key k', previous', by rw [line, eq]; rfl, ?_⟩
  rw [LineItem.unplaced, LineItem.unplaced, hk]

/-- Reads a line by its keyword, where no field line starts with it. -/
def keywordLine (src : Source) (k : Keyword) (c : Cursor) : LineResult :=
  match k with
  | .pk => .ofParsed .key (keyLine .primary c)
  | .unique => .ofParsed .key (keyLine .unique c)
  | .check => .ofParsed .key (checkLine c)
  | .partition | .ttl | .fts | .rls | .policy | .auditable | .softDelete =>
    .ofParsed .directive (directiveLine src k c)
  | _ => fieldLine src c

lemma entityLine_of_keyword {src : Source} {c : Cursor} {k : Keyword} (h : c.current.kind = .keyword k)
    (starts : startsField c.rest = false) : entityLine src c = keywordLine src k c := by
  rw [entityLine, h]
  dsimp only
  rw [starts, if_neg Bool.false_ne_true]
  rfl

/-- The columns of a key line are read as they stand. -/
lemma reads_keyLine (key : List String → Key) (columns : List String) (k : Keyword) {src : List Char}
    {p : Position} (stands : Stands src p (chars (keywordPiece k :: columnPieces columns))) :
    Reads (keyLine key) (tokensAt p (keywordPiece k :: columnPieces columns)) []
      (·.key = key columns) := by
  have whole : Stands src p (k.word.toList ++ chars (columnPieces columns)) := stands
  have names := reads_nameList .field columns whole.right []
  refine .step .next ?_
  rw [columnPieces, tokensAt_listed] at names
  change Reads _ (tokensAt (p.advanceBy k.word.toList) (listed _)) _ _
  rw [← List.append_nil (tokensAt _ (listed _)), tokensAt_listed]
  refine .step (.sees rfl) (names.step ?_)
  exact (Reads.finish _).bind fun _ _ => Reads.previous.bind fun _ _ => .pure rfl

/-- A key line that can be written is read back. -/
lemma exists_keyLine {k : KeyLine} (h : k.key.WellFormed) :
    ∃ ps, Spelled k.key.print ps ∧ Restores (.key k) ps := by
  obtain ⟨key, span⟩ := k
  have plain (p : Position) (t : Token) (columns : List String) :
      startsField (t :: tokensAt p (columnPieces columns)) = false := by
    rw [columnPieces, ← List.append_nil (tokensAt p _)]
    exact startsField_of_listed (neutral_columns columns) t p (by simp)
  cases key with
  | primary columns =>
    refine ⟨keywordPiece .pk :: columnPieces columns, ⟨?_, fun after _ => ?_⟩, ?_⟩
    · simp [chars_columnPieces h, Key.print, Keyword.word]
    · exact cuts_upper .pk rfl (cuts_listed (spelled_columns h) after)
    · refine restores_key (keyLine .primary) (fun p => List.cons_ne_nil _ _) (fun src p previous atEnd => ?_)
        fun src p stands => reads_keyLine .primary columns .pk stands
      exact entityLine_of_keyword (k := .pk) rfl (plain _ _ columns)
  | unique columns =>
    refine ⟨keywordPiece .unique :: columnPieces columns, ⟨?_, fun after _ => ?_⟩, ?_⟩
    · simp [chars_columnPieces h, Key.print, Keyword.word]
    · exact cuts_upper .unique rfl (cuts_listed (spelled_columns h) after)
    · refine restores_key (keyLine .unique) (fun p => List.cons_ne_nil _ _) (fun src p previous atEnd => ?_)
        fun src p stands => reads_keyLine .unique columns .unique stands
      exact entityLine_of_keyword (k := .unique) rfl (plain _ _ columns)
  | check expr =>
    refine ⟨[keywordPiece .check, .gap ' ', .expr expr], ⟨?_, fun after _ => ?_⟩, ?_⟩
    · simp [Key.print, Keyword.word]
    · exact cuts_upper .check rfl (.blank (.expr h .nil))
    · refine restores_key checkLine (fun p => List.cons_ne_nil _ _) (fun src p previous atEnd => ?_)
        fun src p stands => ?_
      · exact entityLine_of_keyword (k := .check) rfl (startsField_of_plain rfl (by simp [kind_tokenAt]) [])
      · exact .step .next (.step (.satisfy _ rfl) ((Reads.finish _).bind fun _ _ => .pure rfl))

/-! ### Feature lines -/

/-- The keyword of a feature line. -/
def Feature.keyword : Feature → Keyword
  | partition _ _ => .partition
  | ttl _ _ => .ttl
  | fts _ _ => .fts
  | rls _ => .rls
  | policy _ => .policy
  | auditable => .auditable
  | softDelete _ => .softDelete

lemma keywordLine_keyword (src : Source) (f : Feature) (c : Cursor) :
    keywordLine src f.keyword c = .ofParsed .directive (directiveLine src f.keyword c) := by
  cases f <;> rfl

lemma Reads.undone {t : Token} {rest : List Token} : Reads done (t :: rest) (t :: rest) (· = false) :=
  fun previous _ => ⟨false, previous, rfl, rfl⟩

lemma reads_identifier {s : String} (h : isIdentifier s = true) (expected : Expected) (p : Position)
    (rest : List Token) :
    Reads (Parser.identifier expected) (tokensAt p [.name s] ++ rest) rest (·.spelling = s) := by
  refine (Reads.satisfy expected ?_).mono fun t e => ?_
  · rw [kind_tokenAt, nameToken_of_isIdentifier h]
    rfl
  · rw [e]
    rfl

lemma isIdentifier_of_isUpperWord {s : String} (h : isUpperWord s = true) : isIdentifier s = true := by
  rw [isUpperWord, Bool.and_eq_true] at h
  exact h.1

lemma upper_of_isUpperWord {s : String} (h : isUpperWord s = true) : Text.upper s = s := by
  rw [isUpperWord, Bool.and_eq_true, beq_iff_eq] at h
  exact h.2

/-- An identifier behind the keyword of a line makes no field line. -/
lemma startsField_of_identifier {s : String} (h : isIdentifier s = true) (t : Token) (p : Position)
    (ps : List Piece) : startsField (t :: tokensAt p (.gap ' ' :: .name s :: ps)) = false := by
  rw [Piece.name, nameToken_of_isIdentifier h]
  exact startsField_of_plain rfl (by simp [kind_tokenAt]) (tokensAt _ ps)

/-- Contextual words are told apart. -/
lemma spells_contextualWords : ∀ v ∈ contextualWords, ∀ w ∈ contextualWords,
    Text.spells v w = (v == w) := by
  decide

lemma isWord_wordPiece {v w : String} (h : v ∈ contextualWords ∧ w ∈ contextualWords) (p : Position) :
    (tokenAt p .identifier w w.toList).isWord v = (v == w) :=
  spells_contextualWords v h.1 w h.2

/-- A contextual word is looked for where another one or itself stands. -/
lemma reads_seesWord (v w : String) (h : v ∈ contextualWords ∧ w ∈ contextualWords) (found : Bool)
    (same : (v == w) = found) (p : Position) (rest : List Token) :
    Reads (sees (·.isWord v)) (tokensAt p [wordPiece w] ++ rest) (tokensAt p [wordPiece w] ++ rest)
      (· = found) :=
  fun previous _ => ⟨_, previous, rfl, (isWord_wordPiece h p).trans same⟩

/-- The keyword of a feature line is read before the rest. -/
lemma reads_directiveLine {src : Source} {k : Keyword} {t : Token} {rest : List Token} {f : Feature}
    (h : Reads (feature src k) rest [] (·.unplaced = f.unplaced)) :
    Reads (directiveLine src k) (t :: rest) [] (·.feature.unplaced = f.unplaced) :=
  .step .next (h.bind fun _ hg => (Reads.finish _).bind fun _ _ => Reads.previous.bind fun _ _ =>
    .pure hg)

/-- What stands behind the keyword of a feature line is read back. -/
def Feature.Restored (f : Feature) (ps : List Piece) : Prop :=
  Spelled f.print (keywordPiece f.keyword :: ps) ∧ (∀ t p, startsField (t :: tokensAt p ps) = false) ∧
    ∀ src p, Stands src p (chars ps) →
      Reads (feature (Text.slice src) f.keyword) (tokensAt p ps) [] (·.unplaced = f.unplaced)

lemma restored_partition {strategy : String} {columns : List String}
    (h : (Feature.partition strategy columns).WellFormed) : (Feature.partition strategy columns).Restored
      (.gap ' ' :: wordPiece "BY" :: .gap ' ' :: .name strategy :: .gap ' ' :: columnPieces columns) := by
  obtain ⟨upper, names⟩ := h
  have identifier := isIdentifier_of_isUpperWord upper
  refine ⟨⟨?_, fun after _ => ?_⟩, fun t p => ?_, fun src p stands => ?_⟩
  · simp [chars_columnPieces names, Feature.keyword, Feature.print.eq_def, Keyword.word]
  · refine cuts_upper .partition rfl (.blank (cuts_word (by simp [contextualWords]) rfl (.blank ?_)))
    exact cuts_identifier identifier rfl (.blank (cuts_listed (spelled_columns names) after))
  · exact startsField_of_plain rfl (by simp [kind_tokenAt]) _
  · have whole : Stands src p (" BY ".toList ++ (strategy.toList ++ ([' '] ++ chars (columnPieces columns)))) :=
      stands
    refine .step (.satisfy _ ?_) ((reads_identifier identifier _ _ _).bind fun t ht => ?_)
    · exact (isWord_wordPiece (by simp [contextualWords]) _).trans (beq_self_eq_true _)
    · have list := reads_nameList .partitionColumn columns whole.right.right.right []
      rw [List.append_nil] at list
      refine list.step (.pure ?_)
      rw [ht, upper_of_isUpperWord upper]

lemma restored_ttl {column : String} {interval : Literal} (h : (Feature.ttl column interval).WellFormed) :
    ∃ ps, (Feature.ttl column interval).Restored ps := by
  obtain ⟨identifier, value⟩ := h
  obtain ⟨qs, spelled, neutral, -, reads⟩ := exists_literal value
  have both : List.Forall₂ Spelled [column, interval.text] [[.name column], qs] :=
    .cons (spelled_lexeme fun after end_ => cuts_identifier identifier end_ .nil) (.cons spelled .nil)
  refine ⟨listed [[.name column], qs], ⟨?_, fun after _ => ?_⟩, fun t p => ?_, fun src p stands => ?_⟩
  · simp [chars_listed both, Feature.keyword, Feature.print.eq_def, Keyword.word, Text.join]
  · exact cuts_upper .ttl rfl (cuts_listed both after)
  · rw [← List.append_nil (tokensAt p _)]
    refine startsField_of_listed (neutral_joined ?_) t p (by simp)
    exact List.forall_mem_cons.2 ⟨.name column .nil, List.forall_mem_singleton.2 neutral⟩
  · have whole : Stands src p (['('] ++ (column.toList ++ ([',', ' '] ++ (chars qs ++ [')'])))) := by
      simpa [listed, joined] using stands
    obtain ⟨q, q', q'', tokens, standing⟩ : ∃ q q' q'', tokensAt p (listed [[.name column], qs]) =
        tokenAt p .symbol "(" ['('] :: tokenAt (p.advanceBy ['(']) (nameToken column.toList) column
          column.toList :: tokenAt q .symbol "," [','] :: (tokensAt q' qs ++
            [tokenAt q'' .symbol ")" [')']]) ∧ Stands src q' (chars qs) := by
      refine ⟨(p.advanceBy ['(']).advanceBy column.toList,
        ((p.advanceBy ['(']).advanceBy column.toList).advanceBy [',', ' '],
        (((p.advanceBy ['(']).advanceBy column.toList).advanceBy [',', ' ']).advanceBy (chars qs), ?_,
        whole.right.right.right.left⟩
      change _ :: _ :: _ :: tokensAt _ (qs ++ [.symbol ')']) = _
      rw [tokensAt_append]
      rfl
    rw [tokens]
    refine .step (.satisfy _ rfl) (.step (.satisfy _ (isName_nameToken _ _ _)) (.step (.satisfy _ rfl) ?_))
    refine (reads src q' _ standing (notCalled_cons rfl [])).bind fun l hl => .step (.satisfy _ rfl) (.pure ?_)
    exact congrArg (Feature.ttl column) hl

lemma restored_fts {columns : List String} {method : String}
    (h : (Feature.fts columns method).WellFormed) : (Feature.fts columns method).Restored
      (columnPieces columns ++ [.gap ' ', wordPiece "USING", .gap ' ', .name method]) := by
  obtain ⟨names, upper⟩ := h
  have identifier := isIdentifier_of_isUpperWord upper
  refine ⟨⟨?_, fun after end_ => ?_⟩, fun t p => ?_, fun src p stands => ?_⟩
  · simp [chars_columnPieces names, Feature.keyword, Feature.print.eq_def, Keyword.word]
  · refine cuts_upper .fts rfl ((cuts_listed (spelled_columns names) _).append (.blank ?_))
    exact cuts_word (by simp [contextualWords]) rfl (.blank (cuts_identifier identifier end_ .nil))
  · rw [columnPieces, tokensAt_append]
    refine startsField_of_listed (neutral_columns columns) t p ?_
    rintro u ⟨⟩
    simp [kind_tokenAt]
  · rw [chars_append] at stands
    rw [tokensAt_append]
    refine (reads_nameList .searchColumn columns stands.left _).step ?_
    refine .step (reads_seesWord "USING" "USING" (by simp [contextualWords]) true rfl _ _) (.step .next ?_)
    refine (reads_identifier identifier _ _ []).bind fun t ht => .pure ?_
    rw [ht, upper_of_isUpperWord upper]

lemma restored_rls (mode : SecurityMode) : (Feature.rls mode).Restored [.gap ' ', .name mode.word] := by
  have word : isIdentifier mode.word = true ∧ SecurityMode.ofText? mode.word = some mode := by
    cases mode <;> decide
  refine ⟨⟨?_, fun after end_ => ?_⟩, fun t p => ?_, fun src p stands => ?_⟩
  · simp [Feature.keyword, Feature.print.eq_def, Keyword.word]
  · exact cuts_upper .rls rfl (.blank (cuts_identifier word.1 end_ .nil))
  · exact startsField_of_identifier word.1 t p []
  · change Reads _ [tokenAt _ (nameToken mode.word.toList) mode.word mode.word.toList] _ _
    rw [nameToken_of_isIdentifier word.1]
    refine .step .undone (.step .peek ?_)
    have found : SecurityMode.ofText? (tokenAt (p.advance ' ') .identifier mode.word
        mode.word.toList).spelling = some mode := word.2
    rw [found]
    exact .step .next (.pure rfl)

lemma restored_softDelete {column : String} (h : (Feature.softDelete column).WellFormed) :
    (Feature.softDelete column).Restored (columnPieces [column]) := by
  have names : ∀ c ∈ [column], isIdentifier c = true := List.forall_mem_singleton.2 h
  refine ⟨⟨?_, fun after end_ => ?_⟩, fun t p => ?_, fun src p stands => ?_⟩
  · simp [chars_columnPieces names, columnList, Text.join, Feature.keyword, Feature.print.eq_def, Keyword.word]
  · exact cuts_upper .softDelete rfl (cuts_listed (spelled_columns names) after)
  · rw [columnPieces, ← List.append_nil (tokensAt p _)]
    exact startsField_of_listed (neutral_columns [column]) t p (by simp)
  · have list := reads_nameList .softDeleteField [column] stands []
    rw [List.append_nil] at list
    exact list.step (.pure rfl)

/-! ### Policies -/

lemma Reads.repeat_end {α : Type} (step : α → Parser α) (a : α) : Reads (repeatToEnd step a) [] [] (· = a) := by
  intro previous atEnd
  exact ⟨a, previous, by rw [repeatToEnd]; rfl, rfl⟩

lemma Reads.repeat_step {α : Type} {step : α → Parser α} {a b : α} {input middle : List Token}
    {Q : α → Prop} (first : Reads (step a) input middle (· = b)) (shorter : middle.length < input.length)
    (others : Reads (repeatToEnd step b) middle [] Q) : Reads (repeatToEnd step a) input [] Q := by
  intro previous atEnd
  obtain ⟨_, previous', eq, rfl⟩ := first previous atEnd
  obtain ⟨c, previous'', eq', hc⟩ := others previous' atEnd
  refine ⟨c, previous'', ?_, hc⟩
  have more : input.isEmpty = false := by
    cases input with
    | nil => exact absurd shorter (Nat.not_lt_zero _)
    | cons t ts => rfl
  rw [repeatToEnd, if_neg (by simp [more]), eq]
  dsimp only
  rw [if_pos shorter, eq']

/-- The clauses of a text complete a policy. -/
def Completes (s : String) (p q : Policy) : Prop :=
  ∃ ps, Trailing s ps ∧ ∀ at_, Reads (repeatToEnd policyClause p) (tokensAt at_ ps) [] (· = q)

lemma completes_nil (p : Policy) : Completes "" p p :=
  ⟨[], trailing_nil, fun _ => .repeat_end _ p⟩

/-- A clause is read before the clauses behind it. -/
lemma Completes.clause {s t : String} {p p' q : Policy} (ps : List Piece) (spelled : Spelled t ps)
    (nonempty : ∀ at_, tokensAt at_ ps ≠ [])
    (first : ∀ at_ rest, Reads (policyClause p) (tokensAt at_ ps ++ rest) rest (· = p'))
    (h : Completes s p' q) : Completes (" " ++ t ++ s) p q := by
  obtain ⟨qs, trailing, others⟩ := h
  refine ⟨.gap ' ' :: (ps ++ qs), spelled.trailing trailing, fun at_ => ?_⟩
  rw [tokensAt, tokensAt_append]
  refine (first _ _).repeat_step ?_ (others _)
  rw [List.length_append]
  exact Nat.lt_add_of_pos_left (List.length_pos_iff.2 (nonempty _))

/-- A clause that is not written changes nothing. -/
lemma Completes.optional {before value behind s : String} {p p' q : Policy} (absent : value = "" → p = p')
    (present : value ≠ "" → Completes (before ++ value ++ behind ++ s) p q) (h : Completes s p' q) :
    Completes (optionalClause before value behind ++ s) p q := by
  by_cases none : value = ""
  · rw [optionalClause, if_pos (by simpa using none), String.empty_append, absent none]
    exact h
  · rw [optionalClause, if_neg (by simpa using none)]
    exact present none

lemma completes_command {c s : String} {p q : Policy} (empty : p.command = "")
    (hc : c = "" ∨ isUpperWord c = true) (h : Completes s { p with command := c } q) :
    Completes (optionalClause " FOR " c "" ++ s) p q := by
  refine .optional (fun none => by rw [none, ← empty]) (fun ne => ?_) h
  have upper := hc.resolve_left ne
  have identifier := isIdentifier_of_isUpperWord upper
  have text : " FOR " ++ c ++ "" ++ s = " " ++ ("FOR " ++ c) ++ s := by
    have word : (" FOR " : String) = " " ++ "FOR " := by decide
    rw [word, String.append_empty]
    simp only [String.append_assoc]
  rw [text]
  refine .clause [wordPiece "FOR", .gap ' ', .name c] ⟨?_, fun after end_ => ?_⟩
    (fun _ => List.cons_ne_nil _ _) (fun at_ rest => ?_) h
  · simp
  · exact cuts_word (by simp [contextualWords]) rfl (.blank (cuts_identifier identifier end_ .nil))
  · refine .step (reads_seesWord "FOR" "FOR" (by simp [contextualWords]) true rfl _ _) (.step .next ?_)
    refine (reads_identifier identifier _ _ rest).bind fun t ht => .pure ?_
    rw [ht, upper_of_isUpperWord upper]

lemma completes_role {r s : String} {p q : Policy} (empty : p.role = "")
    (hr : r = "" ∨ isIdentifier r = true) (h : Completes s { p with role := r } q) :
    Completes (optionalClause " TO " r "" ++ s) p q := by
  refine .optional (fun none => by rw [none, ← empty]) (fun ne => ?_) h
  have identifier := hr.resolve_left ne
  have text : " TO " ++ r ++ "" ++ s = " " ++ ("TO " ++ r) ++ s := by
    have word : (" TO " : String) = " " ++ "TO " := by decide
    rw [word, String.append_empty]
    simp only [String.append_assoc]
  rw [text]
  refine .clause [wordPiece "TO", .gap ' ', .name r] ⟨?_, fun after end_ => ?_⟩
    (fun _ => List.cons_ne_nil _ _) (fun at_ rest => ?_) h
  · simp
  · exact cuts_word (by simp [contextualWords]) rfl (.blank (cuts_identifier identifier end_ .nil))
  · refine .step (reads_seesWord "FOR" "TO" (by simp [contextualWords]) false rfl _ _) ?_
    refine .step (reads_seesWord "TO" "TO" (by simp [contextualWords]) true rfl _ _) (.step .next ?_)
    refine (reads_identifier identifier _ _ rest).bind fun t ht => .pure ?_
    rw [ht]

lemma completes_using {e s : String} {p q : Policy} (empty : p.usingExpr = "")
    (body : isBody e = true) (h : Completes s { p with usingExpr := e } q) :
    Completes (optionalClause " USING (" e ")" ++ s) p q := by
  refine .optional (fun none => by rw [none, ← empty]) (fun ne => ?_) h
  have text : " USING (" ++ e ++ ")" ++ s = " " ++ ("USING (" ++ e ++ ")") ++ s := by
    have word : (" USING (" : String) = " " ++ "USING (" := by decide
    rw [word]
    simp only [String.append_assoc]
  rw [text]
  refine .clause [wordPiece "USING", .gap ' ', .expr e] ⟨?_, fun after end_ => ?_⟩
    (fun _ => List.cons_ne_nil _ _) (fun at_ rest => ?_) h
  · simp
  · exact cuts_word (by simp [contextualWords]) rfl (.blank (.expr body .nil))
  · refine .step (reads_seesWord "FOR" "USING" (by simp [contextualWords]) false rfl _ _) ?_
    refine .step (reads_seesWord "TO" "USING" (by simp [contextualWords]) false rfl _ _) ?_
    refine .step (reads_seesWord "USING" "USING" (by simp [contextualWords]) true rfl _ _) (.step .next ?_)
    exact .step (.satisfy _ rfl) (.pure rfl)

lemma completes_withCheck {e s : String} {p q : Policy} (empty : p.withCheck = "")
    (body : isBody e = true) (h : Completes s { p with withCheck := e } q) :
    Completes (optionalClause " WITH CHECK (" e ")" ++ s) p q := by
  refine .optional (fun none => by rw [none, ← empty]) (fun ne => ?_) h
  have text : " WITH CHECK (" ++ e ++ ")" ++ s = " " ++ ("WITH CHECK (" ++ e ++ ")") ++ s := by
    have word : (" WITH CHECK (" : String) = " " ++ "WITH CHECK (" := by decide
    rw [word]
    simp only [String.append_assoc]
  rw [text]
  refine .clause [wordPiece "WITH", .gap ' ', keywordPiece .check, .gap ' ', .expr e]
    ⟨?_, fun after end_ => ?_⟩ (fun _ => List.cons_ne_nil _ _) (fun at_ rest => ?_) h
  · simp [Keyword.word]
  · exact cuts_word (by simp [contextualWords]) rfl (.blank (cuts_upper .check rfl (.blank (.expr body .nil))))
  · refine .step (reads_seesWord "FOR" "WITH" (by simp [contextualWords]) false rfl _ _) ?_
    refine .step (reads_seesWord "TO" "WITH" (by simp [contextualWords]) false rfl _ _) ?_
    refine .step (reads_seesWord "USING" "WITH" (by simp [contextualWords]) false rfl _ _) ?_
    refine .step (reads_seesWord "WITH" "WITH" (by simp [contextualWords]) true rfl _ _) (.step .next ?_)
    exact .step (.satisfy _ rfl) (.step (.satisfy _ rfl) (.pure rfl))

lemma restored_policy {p : Policy} (h : p.WellFormed) : ∃ ps, (Feature.policy p).Restored ps := by
  have clauses := completes_command (s := _) (p := ⟨p.name, "", "", "", ""⟩) rfl h.command
    (completes_role rfl h.role (completes_using rfl h.usingExpr
      (completes_withCheck rfl h.withCheck (completes_nil _))))
  obtain ⟨ps, trailing, reads⟩ := clauses
  refine ⟨.gap ' ' :: .name p.name :: ps, ⟨?_, fun after end_ => ?_⟩, fun t at_ => ?_, fun src at_ _ => ?_⟩
  · simp [trailing.text, Feature.keyword, Feature.print.eq_def, Keyword.word]
  · refine cuts_upper .policy rfl (.blank (cuts_identifier h.name ?_ (trailing.cuts after end_)))
    exact trailing.stops after end_
  · exact startsField_of_identifier h.name t at_ ps
  · refine (reads_identifier h.name _ _ _).bind fun t ht => ?_
    rw [ht]
    exact (reads _).step (.pure rfl)

/-- A feature line that can be written is read back. -/
lemma exists_directiveLine {d : Directive} (h : d.feature.WellFormed) :
    ∃ ps, Spelled d.feature.print ps ∧ Restores (.directive d) ps := by
  have restored : ∃ ps, d.feature.Restored ps := by
    obtain ⟨f, span⟩ := d
    cases f with
    | partition strategy columns => exact ⟨_, restored_partition h⟩
    | ttl column interval => exact restored_ttl h
    | fts columns method => exact ⟨_, restored_fts h⟩
    | rls mode => exact ⟨_, restored_rls mode⟩
    | policy p => exact restored_policy h
    | auditable =>
      exact ⟨[], ⟨List.append_nil _, fun after end_ => cuts_upper .auditable end_ .nil⟩, fun _ _ => rfl,
        fun src p _ => .pure rfl⟩
    | softDelete column => exact ⟨_, restored_softDelete h⟩
  obtain ⟨ps, spelled, plain, reads⟩ := restored
  refine ⟨keywordPiece d.feature.keyword :: ps, spelled, fun p => List.cons_ne_nil _ _,
    fun src p stands previous atEnd => ?_⟩
  have whole : Stands src p (d.feature.keyword.word.toList ++ chars ps) := stands
  have line : entityLine (Text.slice src)
      ⟨previous, tokensAt p (keywordPiece d.feature.keyword :: ps), atEnd⟩ =
      keywordLine (Text.slice src) d.feature.keyword _ := entityLine_of_keyword rfl (plain _ _)
  obtain ⟨d', previous', eq, hd⟩ := reads_directiveLine (reads src _ whole.right) previous atEnd
  refine ⟨.directive d', previous', ?_, ?_⟩
  · rw [line, keywordLine_keyword]
    exact congrArg (LineResult.ofParsed .directive) eq
  · rw [LineItem.unplaced, LineItem.unplaced, hd]

/-- A line that can be written is read back. -/
lemma exists_line {item : LineItem} (h : item.WellFormed) :
    ∃ ps, Spelled item.print ps ∧ Restores item ps := by
  cases item with
  | field f => exact exists_fieldLine h
  | key k => exact exists_keyLine h
  | directive d => exact exists_directiveLine h

end ErdSql.Document
