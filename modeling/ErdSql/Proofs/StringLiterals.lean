import ErdSql.Proofs.Clauses
import ErdSql.Proofs.Expressions
import ErdSql.Proofs.Pieces
import ErdSql.Proofs.References
import ErdSql.Proofs.Sentences

/-!
# String literals

What the string literals of a script stand for, and where the comparison of scripts takes them to end.

* `Sql.decode?_standardLiteral`, `Sql.decode?_escapeLiteral`: a literal is read back as its text.
* `Script.StandsFor`: a literal of a dialect with its value, which the comparison takes in one piece.
* `Document.says_of_mem_constraints`, `Document.exists_says_of_mem_ofTokens`: a constraint of a document
  is said by tokens of its text.
* `Compilation.string_defaults`: string defaults keep their value.

Three conventions meet. The document doubles the quote that a string starts with, a standard literal
doubles single quotes, and an escape literal doubles backslashes as well. All of them are doublings, so
each is undone by reading pairs, and a run of doubled quotes ends at the first single one.
-/

namespace ErdSql

/-! ### Decoding -/

namespace Sql

/-- Whether a literal is an escape literal, by the letter in front of its quote. -/
def isEscape (sql : String) : Bool := sql.toList.head? == some 'E'

/-- A doubled quote is read as one. -/
lemma decodeBody?_quote (escapes : Bool) (cs : List Char) :
    decodeBody? escapes ('\'' :: '\'' :: cs) = (decodeBody? escapes cs).map ('\'' :: ·) := by
  conv_lhs => unfold decodeBody?
  rfl

/-- A doubled backslash is read as one where there are escapes. -/
lemma decodeBody?_backslash (cs : List Char) :
    decodeBody? true ('\\' :: '\\' :: cs) = (decodeBody? true cs).map ('\\' :: ·) := by
  conv_lhs => unfold decodeBody?
  rfl

/-- Any other character is read as itself. -/
lemma decodeBody?_plain (escapes : Bool) {c : Char} (noQuote : c ≠ '\'')
    (noEscape : escapes = true → c ≠ '\\') (cs : List Char) :
    decodeBody? escapes (c :: cs) = (decodeBody? escapes cs).map (c :: ·) := by
  conv_lhs => unfold decodeBody?
  rw [if_neg (by simpa using noQuote), if_neg]
  intro escape
  rw [Bool.and_eq_true, beq_iff_eq] at escape
  exact noEscape escape.2 escape.1

/-- The body of a standard literal is read back. -/
lemma decodeBody?_doubleChar (cs : List Char) :
    decodeBody? false (Text.doubleChar '\'' cs ++ ['\'']) = some cs := by
  induction cs with
  | nil => rfl
  | cons c cs ih =>
    rw [Text.doubleChar, List.flatMap_cons, ← Text.doubleChar, List.append_assoc]
    by_cases quote : c = '\''
    · rw [if_pos (by simpa using quote), quote]
      exact (decodeBody?_quote _ _).trans (congrArg _ ih)
    · rw [if_neg (by simpa using quote)]
      exact (decodeBody?_plain false quote (fun escape => Bool.noConfusion escape) _).trans (congrArg _ ih)

/-- The body of an escape literal is read back. -/
lemma decodeBody?_doubleChar_backslash (cs : List Char) :
    decodeBody? true (Text.doubleChar '\\' (Text.doubleChar '\'' cs) ++ ['\'']) = some cs := by
  induction cs with
  | nil => rfl
  | cons c cs ih =>
    have step : Text.doubleChar '\\' (Text.doubleChar '\'' (c :: cs)) =
        Text.doubleChar '\\' (if c == '\'' then [c, c] else [c]) ++
          Text.doubleChar '\\' (Text.doubleChar '\'' cs) := by
      rw [Text.doubleChar, Text.doubleChar, List.flatMap_cons, List.flatMap_append]
      rfl
    rw [step, List.append_assoc]
    by_cases quote : c = '\''
    · rw [if_pos (by simpa using quote), quote]
      exact (decodeBody?_quote _ _).trans (congrArg _ ih)
    · rw [if_neg (by simpa using quote), Text.doubleChar, List.flatMap_singleton]
      by_cases backslash : c = '\\'
      · rw [if_pos (by simpa using backslash), backslash]
        exact (decodeBody?_backslash _).trans (congrArg _ ih)
      · rw [if_neg (by simpa using backslash)]
        exact (decodeBody?_plain true quote (fun _ => backslash) _).trans (congrArg _ ih)

/-- A standard literal stands for its text. -/
lemma decode?_standardLiteral (s : String) : decode? (standardLiteral s) = some s := by
  have body := decodeBody?_doubleChar s.toList
  have chars : (standardLiteral s).toList = '\'' :: (Text.doubleChar '\'' s.toList ++ ['\'']) := by
    simp [standardLiteral]
  rw [decode?, chars]
  simp only [body, Option.map_some, String.ofList_toList]

/-- An escape literal stands for its text. -/
lemma decode?_escapeLiteral (s : String) : decode? (escapeLiteral s) = some s := by
  have body := decodeBody?_doubleChar_backslash s.toList
  have chars : (escapeLiteral s).toList =
      'E' :: '\'' :: (Text.doubleChar '\\' (Text.doubleChar '\'' s.toList) ++ ['\'']) := by
    simp [escapeLiteral]
  rw [decode?, chars]
  simp only [body, Option.map_some, String.ofList_toList]

end Sql

/-! ### Ends of literals -/

namespace Script

open Text (ascii)

/-- What stands in front of the opening quote of a literal. -/
def literalMark (sql : String) : List UInt8 :=
  if Sql.isEscape sql then [ascii 'E'] else []

/-- A string literal of a dialect and its value. Reading the literal gives the value, only PostgreSQL has
escape literals, and behind the opening quote the rest of the literal, and nothing of what follows it,
is the quoted run. It is looked for with escapes exactly in an escape literal, also where the mode is
found from the bytes in front. -/
structure StandsFor (d : Dialect) (sql value : String) : Prop where
  decode : Sql.decode? sql = some value
  dialect : Sql.isEscape sql = true → d = .postgresql
  ends : ∃ body, Text.bytes sql = literalMark sql ++ ascii '\'' :: body ∧
    ∀ next : List UInt8, next.head? ≠ some (ascii '\'') →
      quotedLength (ascii '\'') (Sql.isEscape sql) (body ++ next) = body.length ∧
      pieces .nothing (Text.bytes sql ++ next) =
        (literalMark sql).map .other ++ .quoted (ascii '\'' :: body) :: pieces .nothing next

/-- A quoted run is one piece of a script, where its escapes are those that the bytes in front ask for. -/
lemma pieces_enclosed {before : Before} {escapes : Bool} (mode : (before == .escapeMark) = escapes)
    {body next : List UInt8}
    (length : quotedLength (ascii '\'') escapes (body ++ next) = body.length) :
    pieces before (ascii '\'' :: (body ++ next)) =
      .quoted (ascii '\'' :: body) :: pieces .nothing next := by
  refine pieces_cons ?_
  have quoted : pieceAt before (ascii '\'') (body ++ next) =
      (.quoted (ascii '\'' :: (body ++ next).take
          (quotedLength (ascii '\'') (before == .escapeMark) (body ++ next))),
        quotedLength (ascii '\'') (before == .escapeMark) (body ++ next)) := rfl
  rw [quoted, mode, length, List.take_left']
  rfl

/-- A run and its closing quote are taken together. -/
lemma quotedLength_closed {escapes : Bool} {bs next : List UInt8} (h : Enclosed (ascii '\'') escapes bs)
    (apart : next.head? ≠ some (ascii '\'')) :
    quotedLength (ascii '\'') escapes (bs ++ [ascii '\''] ++ next) = (bs ++ [ascii '\'']).length := by
  rw [List.append_assoc, List.length_append]
  exact quotedLength_of_enclosed (by decide) h apart

/-- A standard literal stands for its text in both dialects. -/
lemma standsFor_standardLiteral (d : Dialect) (s : String) : StandsFor d (Sql.standardLiteral s) s := by
  have mode : Sql.isEscape (Sql.standardLiteral s) = false := by
    simp [Sql.isEscape, Sql.standardLiteral]
  refine ⟨Sql.decode?_standardLiteral s, fun escape => ?_,
    Text.doubleByte (ascii '\'') (Text.bytes s) ++ [ascii '\''], ?_, fun next apart => ?_⟩
  · rw [mode] at escape
    cases escape
  · rw [literalMark, mode]
    exact Text.bytes_standardLiteral s
  · have length := quotedLength_closed (enclosed_doubleByte _ (Text.bytes s)) apart
    rw [literalMark, mode, Text.bytes_standardLiteral]
    exact ⟨length, pieces_enclosed rfl length⟩

/-- An escape literal stands for its text in PostgreSQL. -/
lemma standsFor_escapeLiteral (s : String) : StandsFor .postgresql (Sql.escapeLiteral s) s := by
  have mode : Sql.isEscape (Sql.escapeLiteral s) = true := by
    simp [Sql.isEscape, Sql.escapeLiteral]
  refine ⟨Sql.decode?_escapeLiteral s, fun _ => rfl,
    Text.doubleByte (ascii '\\') (Text.doubleByte (ascii '\'') (Text.bytes s)) ++ [ascii '\''], ?_,
    fun next apart => ?_⟩
  · rw [literalMark, mode]
    exact Text.bytes_escapeLiteral s
  · have length := quotedLength_closed
      (enclosed_doubleByte_backslash (by decide) true (Text.bytes s)) apart
    have first (r : List UInt8) : pieces .nothing (ascii 'E' :: r) =
        .other (ascii 'E') :: pieces .escapeMark r := pieces_cons (t := []) rfl
    rw [literalMark, mode, Text.bytes_escapeLiteral]
    exact ⟨length, (first _).trans (congrArg _ (pieces_enclosed rfl length))⟩

/-- A text as a string literal stands for itself. -/
lemma standsFor_quoteString (d : Dialect) (s : String) : StandsFor d (d.quoteString s) s := by
  cases d with
  | sqlite => exact standsFor_standardLiteral _ s
  | postgresql =>
    change StandsFor .postgresql (Sql.literal s) s
    unfold Sql.literal
    split
    · exact standsFor_escapeLiteral s
    · exact standsFor_standardLiteral _ s

end Script

/-! ### Strings of a document -/

namespace Scan

/-- A string token is spelled as one string. -/
lemma isString_of_mem_ofBytes {src : List UInt8} {t : Token} (ht : t ∈ (ofBytes src).tokens)
    (kind : t.kind = .string) : isString t.spelling = true := by
  unfold ofBytes at ht
  split at ht
  · obtain ⟨opens, c, cs, more, found⟩ := exists_step_of_mem_scanFrom ht (by simp [kind])
    rw [kind] at found
    generalize t.spelling = spelling at found ⊢
    cases takes_of_step found with
    | string quote length =>
      have ends : ([] : List Char).head? ≠ some c := by simp
      have whole := stringLength?_take_append length ends
      rw [List.append_nil] at whole
      have taken : (cs.take more).length = more := List.length_take_of_le (stringLength?_le length)
      rw [isString, String.toList_ofList]
      simpa [whole, taken] using quote
  · cases ht

end Scan

namespace Document

open ErdSql.Document.Parser

section Readers
variable {src : Source} {c : Cursor}

/-- Every constraint that is read behind a field name is said by tokens that were left, also where the
reader stops before the end of the line. -/
lemma says_of_mem_constraints {span : Span} {k : Constraint} (hk : k ∈ (constraints src span c).1) :
    ∃ ts ⊆ c.rest, ClauseSays src ts k.clause := by
  induction length : c.rest.length using Nat.strong_induction_on generalizing c span with
  | _ n ih =>
    rw [constraints] at hk
    split at hk
    · cases hk
    · split at hk
      · cases hk
      · next first after found =>
        obtain ⟨used, rest, said⟩ := takes_constraint src _ _ _ found
        have shorter := advances_constraint src _ _ _ found
        rw [if_pos shorter] at hk
        rw [rest]
        rcases List.mem_cons.1 hk with rfl | hk
        · exact ⟨used, List.subset_append_left _ _, said⟩
        · obtain ⟨ts, sub, said⟩ := ih _ (length ▸ shorter) hk rfl
          exact ⟨ts, List.Subset.trans sub (List.subset_append_right _ _), said⟩

/-- The constraints of a field line are said by its tokens. -/
lemma says_of_fieldLine {f : Field} (read : (fieldLine src c).item = some (.field f)) {k : Constraint}
    (hk : k ∈ f.constraints) : ∃ ts ⊆ c.rest, ClauseSays src ts k.clause := by
  unfold fieldLine at read
  split at read
  · cases read
  · next head after found =>
    obtain ⟨used, rest, -⟩ := takes_fieldHead src _ _ _ found
    cases read
    obtain ⟨ts, sub, said⟩ := says_of_mem_constraints hk
    rw [rest]
    exact ⟨ts, List.Subset.trans sub (List.subset_append_right _ _), said⟩

/-- A line that gives a field is read as a field line. -/
lemma fieldLine_of_entityLine {f : Field} (read : (entityLine src c).item = some (.field f)) :
    (fieldLine src c).item = some (.field f) := by
  have noField {α : Type} {wrap : α → LineItem} {r : Parsed α} (other : ∀ a, wrap a ≠ .field f) :
      (LineResult.ofParsed wrap r).item ≠ some (.field f) := by
    cases r with
    | error e stopped => simp [LineResult.ofParsed]
    | ok a after => exact fun same => other a (Option.some.inj same)
  unfold entityLine at read
  split at read
  · exact read
  · split at read
    · exact read
    · split at read
      all_goals first
        | exact read
        | exact absurd read (noField (by simp))
  · cases read

/-- The constraints of a field of an entity are said by tokens of the entity. -/
lemma says_of_mem_entity {head : Token} {tokens : List Token} {atEnd : Bool} {f : Field}
    (hf : f ∈ (entity src head tokens atEnd).1.fields) {k : Constraint} (hk : k ∈ f.constraints) :
    ∃ ts ⊆ tokens, ClauseSays src ts k.clause := by
  have line {lines : List (List Token)} {previous : Token} {r : LineResult}
      (hr : r ∈ entityLines src atEnd previous lines) (item : r.item = some (.field f)) :
      ∃ line ∈ lines, ∃ ts ⊆ line, ClauseSays src ts k.clause := by
    induction lines generalizing previous with
    | nil => cases hr
    | cons first rest ih =>
      rcases List.mem_cons.1 hr with rfl | hr
      · exact ⟨first, List.mem_cons_self, says_of_fieldLine (fieldLine_of_entityLine item) hk⟩
      · obtain ⟨line, mem, said⟩ := ih hr
        exact ⟨line, List.mem_cons_of_mem _ mem, said⟩
  rw [entity_fst] at hf
  obtain ⟨r, hr, field⟩ := List.mem_filterMap.1 hf
  unfold LineResult.field? at field
  split at field
  · next item =>
    cases field
    obtain ⟨line, mem, ts, sub, said⟩ := line hr item
    exact ⟨ts, List.Subset.trans sub (sublist_of_mem_bodyLines mem).1.subset, said⟩
  · cases field

/-- The constraints of a document that was read are said by the tokens that it is made of. -/
lemma exists_says_of_mem_ofTokens {path : String} {cs : List Char} {plugins : Plugin.Registry}
    {tokens : List Token} {node : Entity}
    (h : .entity node ∈ (ofTokens path cs plugins tokens).1.statements) {f : Field}
    (hf : f ∈ node.fields) {k : Constraint} (hk : k ∈ f.constraints) :
    ∃ (src : Source) (ts : List Token), ts ⊆ tokens ∧ ClauseSays src ts k.clause := by
  obtain ⟨head, ts, atEnd, group, -, rfl⟩ := exists_group_of_entity h
  obtain ⟨used, sub, said⟩ := says_of_mem_entity hf hk
  refine ⟨_, used, fun t ht => ?_, said⟩
  have held := (sublist_of_mem_statementGroups group).subset (List.mem_cons_of_mem _ (sub ht))
  exact (List.takeWhile_sublist _).subset held

end Readers

end Document

/-! ### Strings as defaults -/

/-- The value of a standard literal of a document is its body. -/
lemma Token.unquote_standardLiteral (body : String) : unquote (Sql.standardLiteral body) = body := by
  have chars : (Sql.standardLiteral body).toList = '\'' :: (Text.doubleChar '\'' body.toList ++ ['\'']) := by
    simp [Sql.standardLiteral]
  rw [unquote, chars, unquoteChars_enclosed (.inl rfl), String.ofList_toList]

/-- The default in SQL of a string keeps its value. -/
lemma Script.standsFor_defaultExpr (d : Dialect) (s : Schema) (f : Schema.Field) {v : Literal}
    (kind : v.kind = .string) (string : Scan.isString v.text = true) :
    StandsFor d (Ddl.defaultExpr d s f v) (Token.unquote v.text) := by
  rw [Ddl.defaultExpr, kind]
  dsimp only
  split
  · rw [Literal.value, kind]
    exact standsFor_quoteString d _
  · next single =>
    have notDouble : v.text.toList.head? ≠ some '"' := by
      simpa [Literal.isDoubleQuoted, kind] using single
    obtain ⟨body, text⟩ := exists_standardLiteral_of_isString string notDouble
    rw [text, Token.unquote_standardLiteral]
    exact standsFor_standardLiteral d body

namespace Schema

variable {doc : Document} {e : Entity} {f : Field} {v : Literal}

/-- The default of a field is one of its constraints. -/
lemma exists_constraint_of_default? (stated : f.default? = some v) :
    ∃ span, ⟨.default v, span⟩ ∈ f.constraints := by
  unfold Field.default? at stated
  split at stated
  · next span found =>
    cases stated
    exact ⟨span, List.mem_of_find?_eq_some found⟩
  · cases stated

/-- The default of a field stands behind its name in the document. -/
lemma exists_default_of_mem_ofDocument (he : e ∈ (ofDocument doc).1.entities) (hf : f ∈ e.fields)
    (stated : f.default? = some v) :
    ∃ node, .entity node ∈ doc.statements ∧ ∃ line ∈ node.fields, line.states (.default v) = true := by
  rw [entities_ofDocument] at he
  obtain ⟨i, hi, rfl⟩ := List.mem_mapIdx.1 he
  obtain ⟨line, hl, marked⟩ := exists_of_forall₂ (forall₂_marked_buildEntity i _) hf
  obtain ⟨span, hk⟩ := exists_constraint_of_default? stated
  refine ⟨_, mem_entities_of_declared (List.getElem_mem hi), line, mem_of_mem_firsts _ hl, ?_⟩
  have kept : ∃ span, ⟨.default v, span⟩ ∈ (buildField (declaredNames doc) line).constraints := by
    rcases marked with rfl | ⟨mark, rfl⟩
    · exact ⟨span, hk⟩
    · exact ⟨span, by simpa using hk⟩
  refine (clause_mem_buildField fun c => ?_).1 kept
  unfold bindConstraint
  cases c.clause <;> simp

end Schema

namespace Compilation

open Schema

variable {path : String} {src : List UInt8} {o : CompileOptions}

/-- A string that a schema has as a default is one string of the document. -/
lemma isString_of_default {e : Entity} (he : e ∈ (ofDocument (document path src o)).1.entities)
    {f : Field} (hf : f ∈ e.fields) {v : Literal} (stated : f.default? = some v)
    (kind : v.kind = .string) : Scan.isString v.text = true := by
  obtain ⟨node, hn, line, hl, states⟩ := exists_default_of_mem_ofDocument he hf stated
  obtain ⟨k, hk, clause⟩ := List.any_eq_true.1 states
  obtain ⟨source, ts, sub, said⟩ := Document.exists_says_of_mem_ofTokens hn hl hk
  rw [beq_iff_eq.1 clause] at said
  cases said with
  | default word literal =>
    cases literal with
    | string isString =>
      exact Scan.isString_of_mem_ofBytes (sub (List.mem_cons_of_mem _ List.mem_cons_self)) isString
    | _ => cases kind

/-- The column of a field has the default that the generator writes for the default of the field. -/
lemma default_of_output {path : String} {src : List UInt8} {o : CompileOptions} {out : Ddl.Output}
    (output : (run path src o).output = some out) {e : Entity} (he : e ∈ (run path src o).schema.entities)
    {f : Field} (hf : f ∈ e.fields) (column : f.isColumn = true) {v : Literal} (stated : f.default? = some v) :
    (out.column? e.name f.name).bind (·.default) =
      some (Ddl.defaultExpr o.dialect (run path src o).schema f v) := by
  have generated := generate_of_output output
  rw [run_schema] at he ⊢
  rw [Ddl.column?_of_generate generated (entity_names_nodup _) he (field_names_nodup _ _ he) hf column,
    Option.bind_some, Ddl.column, stated]
  rfl

/-- String literals keep their value. Any text, as a string of either dialect, any string token of any
text, as a default of a field, and any string of a document that is the default of a scalar field, is
written as one string literal that stands for the text. The text of a string of a document is what stands
between its quotes, with each doubled quote written once. -/
theorem string_defaults :
    (∀ (d : Dialect) (s : String), Script.StandsFor d (d.quoteString s) s) ∧
      (∀ (src : List UInt8), ∀ t ∈ (Scan.ofBytes src).tokens, t.kind = .string →
        ∀ (d : Dialect) (s : Schema) (f : Field), Script.StandsFor d
          (Ddl.defaultExpr d s f ⟨.string, t.spelling, t.span⟩) (Token.unquote t.spelling)) ∧
      ∀ (path : String) (src : List UInt8) (o : CompileOptions) (out : Ddl.Output),
        (run path src o).output = some out →
        ∀ e ∈ (run path src o).schema.entities, ∀ f ∈ e.fields, f.cardinality = .scalar →
        ∀ v, f.default? = some v → v.kind = .string →
        ∃ sql, (out.column? e.name f.name).bind (·.default) = some sql ∧
          Script.StandsFor o.dialect sql (Token.unquote v.text) := by
  refine ⟨Script.standsFor_quoteString, fun src t ht kind d s f => ?_,
    fun path src o out output e he f hf scalar v stated kind => ?_⟩
  · exact Script.standsFor_defaultExpr d s f rfl (Scan.isString_of_mem_ofBytes ht kind)
  · have single : f.isColumn = true := by rw [Field.isColumn, scalar]; rfl
    refine ⟨_, default_of_output output he hf single stated, Script.standsFor_defaultExpr _ _ _ kind ?_⟩
    rw [run_schema] at he
    exact isString_of_default he hf stated kind

/-- A block with a string in single and one in double quotes; the second one ends in a backslash. -/
def sayings : List UInt8 :=
  Text.bytes ":Saying\n  TEXT $.plain DEFAULT 'it''s'\n  TEXT $.odd DEFAULT \"it's \"\"\\\"\n"

/-- Both strings of the block keep their value, the second one as an escape literal. -/
theorem string_defaults_of_sayings :
    ∃ out, (run "sayings.erd" sayings {}).output = some out ∧
      (out.column? "Saying" "plain").bind (·.default) = some "'it''s'" ∧
      (out.column? "Saying" "odd").bind (·.default) = some "E'it''s \"\\\\'" ∧
      ∃ e ∈ (run "sayings.erd" sayings {}).schema.entities, ∃ f ∈ e.fields, f.name = "odd" ∧
        f.cardinality = .scalar ∧ ∃ v, f.default? = some v ∧ v.kind = .string ∧
          Token.unquote v.text = "it's \"\\" ∧
          ∃ sql, (out.column? e.name f.name).bind (·.default) = some sql ∧
            Script.StandsFor .postgresql sql (Token.unquote v.text) := by
  have facts : ∃ out ∈ (run "sayings.erd" sayings {}).output,
      ((out.column? "Saying" "plain").bind (·.default) = some "'it''s'" ∧
        (out.column? "Saying" "odd").bind (·.default) = some "E'it''s \"\\\\'") ∧
      ∃ e ∈ (run "sayings.erd" sayings {}).schema.entities, ∃ f ∈ e.fields, f.name = "odd" ∧
        f.cardinality = .scalar ∧ ∃ v ∈ f.default?, v.kind = .string ∧
          Token.unquote v.text = "it's \"\\" := by
    rw [run, analyse, sayings, read_bytes]
    decide +kernel
  obtain ⟨out, output, texts, e, he, f, hf, named, scalar, v, stated, kind, value⟩ := facts
  exact ⟨out, output, texts.1, texts.2, e, he, f, hf, named, scalar, v, stated, kind, value,
    string_defaults.2.2 "sayings.erd" sayings {} out output e he f hf scalar v stated kind⟩

end Compilation

end ErdSql
