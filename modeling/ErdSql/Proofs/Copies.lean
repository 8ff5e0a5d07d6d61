import ErdSql.Proofs.Acceptance
import ErdSql.Proofs.Boundaries

/-!
# Texts that statements copy

A statement is made of words of the generator's own and of texts that it copies from the document, the
overlay or a plugin. It is sealed if the copied texts are (`Ddl.Statement.sealed_sql`), so the script of
a compilation is cut into what its statements are cut into as long as no copied text leaves a comment
or a quoted run open (`Compilation.normalize_output`).
-/

namespace ErdSql

open Script (Phrase Closed Stops Breaks Piece Gaps statementsOf pieces normalize)
open Text (ascii)

namespace Ddl

/-! ### What statements copy -/

/-- The texts that an element type copies. -/
def ElementType.copied : ElementType → List String
  | written t => t.name :: t.args.map (·.text)
  | _ => []

/-- The texts that a column copies; sets have a type of their own where there are no arrays. -/
def Column.copied (d : Dialect) (c : Column) : List String :=
  (if c.isSet && !d.supports .arrays then [] else c.element.copied) ++ c.default.toList ++
    c.check.toList

/-- The texts that a definition copies. -/
def TableElement.copied (d : Dialect) : TableElement → List String
  | column c => c.copied d
  | check e => [e]
  | _ => []

/-- The texts that a table copies. -/
def Table.copied (d : Dialect) (t : Table) : List String :=
  t.elements.flatMap (·.copied d) ++ t.partition.toList.map (·.strategy)

/-- The remark about rows that expire. -/
def remark (owner column interval : String) : String :=
  "-- ttl: rows of " ++ owner ++ " expire " ++ interval ++ " after " ++ column

/-- Whether nothing follows the command of a policy. -/
def Policy.endsWithCommand (p : Policy) : Bool :=
  p.role == "" && p.usingExpr == "" && p.withCheck == ""

/-- The texts that a statement copies from the document, the overlay or a plugin. At the end of a
statement it is what stays of the text. -/
def Statement.copied (d : Dialect) : Statement → List String
  | table t => t.copied d
  | partition _ p => [p.strategy]
  | expiry owner column interval =>
    if Text.contains (remark owner column interval) '\n' then [remark owner column interval ++ "\n"]
    else []
  | search _ _ _ method _ => [method]
  | policy _ p =>
    [if Policy.endsWithCommand p then ended p.command else p.command, p.usingExpr, p.withCheck]
  | migration _ sql => [settled sql]
  | index _ i => [ended (Text.trim i.tail)]
  | view _ v => [ended (Text.trim v.body)]
  | trigger t => [Text.trim t.timing, ended (Text.trim t.procedure)]
  | plugin _ _ sql => [settled sql]
  | _ => []

/-- The names that the generator makes up for a statement are plain words. -/
def Statement.Named : Statement → Prop
  | table t => ∀ k, .foreignKey k ∈ t.elements → Sql.isPlainWord k.name = true
  | search _ name _ _ _ => Sql.isPlainWord name = true
  | audit name _ _ => Sql.isPlainWord name = true
  | distinctElements name _ _ => Sql.isPlainWord name = true
  | softDelete name _ _ => Sql.isPlainWord name = true
  | foreignKey k => Sql.isPlainWord k.name = true
  | _ => True

/-! ### Tables -/

lemma sealed_elementType {t : ElementType} (h : ∀ s ∈ t.copied, Sealed s) : Sealed t.sql := by
  cases t with
  | written t =>
    have name := h t.name List.mem_cons_self
    rw [ElementType.sql, Schema.FieldType.text]
    split
    · exact name
    · refine sealed_trail (sealed_between name "(" (.of_own (by decide)) (sealed_join (.of_own (by decide)) ?_))
        ")" (.of_own (by decide))
      exact fun s hs => h s (List.mem_cons_of_mem _ hs)
  | enum name => exact sealed_name name
  | text => exact sealed_of_own (by decide : isOwn "TEXT" = true)

lemma sealed_column {d : Dialect} {c : Column} (h : ∀ s ∈ c.copied d, Sealed s) : Sealed (c.sql d) := by
  have type : Sealed (c.typeSql d) := by
    rw [Column.typeSql]
    rw [Column.copied] at h
    cases set : c.isSet with
    | false =>
      rw [set] at h
      exact sealed_elementType fun s hs => h s (List.mem_append_left _ (List.mem_append_left _ hs))
    | true =>
      rw [set] at h
      cases d with
      | sqlite => exact sealed_of_own (by decide : isOwn "TEXT" = true)
      | postgresql =>
        exact sealed_trail (sealed_elementType fun s hs =>
          h s (List.mem_append_left _ (List.mem_append_left _ hs))) "[]" (.of_own (by decide))
  rw [Column.sql]
  refine sealed_join (.of_own (by decide)) fun t ht => ?_
  simp only [List.append_assoc, List.mem_append, List.mem_cons, List.not_mem_nil, or_false] at ht
  rcases ht with (rfl | rfl) | ht | ht | ht | ht | ht | ht
  · exact sealed_name c.name
  · exact type
  · split at ht
    · rw [List.mem_singleton.1 ht]
      exact sealed_of_own (by decide)
    · cases ht
  · split at ht
    · rw [List.mem_singleton.1 ht]
      exact sealed_of_own (by decide)
    · cases ht
  · split at ht
    · rw [List.mem_singleton.1 ht]
      exact sealed_of_own (by decide)
    · cases ht
  · obtain ⟨e, he, rfl⟩ := List.mem_map.1 ht
    exact sealed_lead "DEFAULT " (.of_own (by decide))
      (h e (List.mem_append_left _ (List.mem_append_right _ he)))
  · obtain ⟨e, he, rfl⟩ := List.mem_map.1 ht
    exact sealed_trail (sealed_lead "CHECK (" (.of_own (by decide)) (h e (List.mem_append_right _ he))) ")"
      (.of_own (by decide))
  · obtain ⟨labels, -, rfl⟩ := List.mem_map.1 ht
    exact sealed_of_clause (clause_labels d _ labels)

lemma sealed_foreignKey {k : ForeignKey} (plain : Sql.isPlainWord k.name = true) : Sealed k.sql := by
  rw [foreignKey_sql]
  exact sealed_join (.of_own (by decide)) fun s hs => sealed_of_clause (clause_foreignKey plain s hs)

lemma sealed_parens (lead : String) (h : Lead lead) {s : String}
    (hs : Sealed s) : Sealed (lead ++ s ++ ")") :=
  sealed_trail (sealed_lead lead h hs) ")" (.of_own (by decide))

lemma sealed_element {d : Dialect} {t : TableElement} (h : ∀ s ∈ t.copied d, Sealed s)
    (named : ∀ k, t = .foreignKey k → Sql.isPlainWord k.name = true) : Sealed (t.sql d) := by
  cases t with
  | column c => exact sealed_column h
  | primaryKey columns => exact sealed_parens "PRIMARY KEY (" (.of_own (by decide)) (sealed_nameList columns)
  | unique columns => exact sealed_parens "UNIQUE (" (.of_own (by decide)) (sealed_nameList columns)
  | check e => exact sealed_parens "CHECK (" (.of_own (by decide)) (h e List.mem_cons_self)
  | foreignKey k =>
    exact sealed_lead "CONSTRAINT " (.of_own (by decide)) (sealed_foreignKey (named k rfl))

lemma sealed_partition {p : PartitionBy} (h : Sealed p.strategy) : Sealed p.sql :=
  sealed_trail (sealed_between (sealed_lead "PARTITION BY " (.of_own (by decide)) h) " (" (.of_own (by decide))
    (sealed_nameList p.columns)) ")" (.of_own (by decide))

/-- The words before a name that may be guarded. -/
lemma sealed_guarded (lead : String) (h : Lead lead) (ifNotExists : Bool) {s : String} (hs : Sealed s) :
    Sealed (lead ++ guardWords ifNotExists ++ s) := by
  cases ifNotExists with
  | false =>
    have none : lead ++ guardWords false = lead := String.append_empty
    rw [none]
    exact sealed_lead lead h hs
  | true => exact sealed_lead _ (h.append (.of_own (by decide : (isOwn "IF NOT EXISTS " && _) = true))) hs

lemma sealed_table {d : Dialect} {t : Table} (h : ∀ s ∈ t.copied d, Sealed s)
    (named : ∀ k, .foreignKey k ∈ t.elements → Sql.isPlainWord k.name = true) : Sealed (t.sql d) := by
  have elements : Sealed (Text.join ", " (t.elements.map (·.sql d))) := by
    refine sealed_join (.of_own (by decide)) fun s hs => ?_
    obtain ⟨e, he, rfl⟩ := List.mem_map.1 hs
    refine sealed_element (fun s hs => h s (List.mem_append_left _ ?_)) fun k hk => ?_
    · exact List.mem_flatMap.2 ⟨e, he, hs⟩
    · rw [hk] at he
      exact named k he
  have front : Sealed ("CREATE TABLE " ++ guardWords t.ifNotExists ++ Sql.name t.name ++ " (" ++
      Text.join ", " (t.elements.map (·.sql d)) ++ ")") :=
    sealed_trail (sealed_between (sealed_guarded "CREATE TABLE " (.of_own (by decide)) _ (sealed_name t.name))
      " (" (.of_own (by decide)) elements) ")" (.of_own (by decide))
  unfold Table.sql
  cases hp : t.partition with
  | none =>
    rw [String.append_empty]
    exact front
  | some p =>
    have strategy : Sealed p.strategy := h _ (List.mem_append_right _ (by rw [hp]; exact List.mem_cons_self))
    dsimp only
    rw [← String.append_assoc]
    exact sealed_between front " " (.of_own (by decide)) (sealed_partition strategy)

lemma solid_table (d : Dialect) (t : Table) : Solid (t.sql d) := by
  unfold Table.sql
  constructor
  · simp only [String.append_assoc]
    exact startsFirm_append (by decide) _
  · cases t.partition with
    | none =>
      rw [String.append_empty]
      exact endsFirm_append _ (by decide)
    | some p =>
      have last : endsFirm p.sql = true := by
        unfold PartitionBy.sql
        exact endsFirm_append _ (by decide)
      exact endsFirm_append _ (endsFirm_append _ last)

/-! ### Other statements -/

lemma sealed_settled_of_phrase {s : String} {ws : List Script.Word} (h : Phrase (Text.bytes s) ws) :
    Sealed (settled s) := by
  rw [settled, trimmed_of_phrase h]
  exact sealed_of_phrase h

lemma sealed_settled_of_solid {s : String} (h : Sealed s) (solid : Solid s) : Sealed (settled s) := by
  rw [settled_of_solid solid]
  exact h

lemma sealed_settled_of_clauses (clauses : List String) (ne : clauses ≠ [])
    (h : ∀ s ∈ clauses, Clause s) : Sealed (settled (Text.join " " clauses)) := by
  obtain ⟨ws, phrase, -⟩ := clause_join h ne
  exact sealed_settled_of_phrase phrase

lemma sealed_settled_of_legible {d : Dialect} {st : Statement} (h : st.Legible d) :
    Sealed (settled (st.sql d)) := by
  obtain ⟨ws, phrase, -⟩ := h
  exact sealed_settled_of_phrase phrase

lemma sealed_extension (d : Dialect) (name : String) :
    Sealed (settled ((Statement.extension name).sql d)) := by
  have text : (Statement.extension name).sql d =
      Text.join " " ["CREATE", "EXTENSION", "IF", "NOT", "EXISTS", Sql.name name] := by
    have front : ("CREATE EXTENSION IF NOT EXISTS " : String) =
        "CREATE" ++ " " ++ "EXTENSION" ++ " " ++ "IF" ++ " " ++ "NOT" ++ " " ++ "EXISTS" ++ " " := by decide
    change "CREATE EXTENSION IF NOT EXISTS " ++ Sql.name name = _
    rw [front]
    simp only [Text.join, String.append_assoc]
  rw [text]
  refine sealed_settled_of_clauses _ (by simp) fun s hs => ?_
  simp only [List.mem_cons, List.not_mem_nil, or_false] at hs
  rcases hs with rfl | rfl | rfl | rfl | rfl | rfl
  · exact clause_word (by decide)
  · exact clause_word (by decide)
  · exact clause_word (by decide)
  · exact clause_word (by decide)
  · exact clause_word (by decide)
  · exact clause_name name

lemma endsFirm_quoteString (d : Dialect) (s : String) : endsFirm (d.quoteString s) = true := by
  have standard : endsFirm (Sql.standardLiteral s) = true := endsFirm_append _ (by decide)
  cases d with
  | sqlite => exact standard
  | postgresql =>
    change endsFirm (Sql.literal s) = true
    rw [Sql.literal]
    split
    · exact endsFirm_append _ (by decide)
    · exact standard

/-- A remark on one line is closed by its line feed. -/
lemma sealed_remark {line : String} (h : '\n' ∉ ("-- " ++ line).toList) : Sealed ("-- " ++ line ++ "\n") := by
  have comment : Script.IsComment (Text.bytes ("-- " ++ line)) := by
    refine ⟨⟨ascii ' ' :: Text.bytes line, ?_⟩, lineFeed_not_mem_bytes h⟩
    rw [Text.bytes_append]
    rfl
  have feed : Text.bytes "\n" = [ascii '\n'] := by decide
  have cut := Script.pieces_comment comment [ascii ';']
  rw [Sealed, Text.bytes_append, feed]
  refine @Script.closed_of_pieces _ [.comment (Text.bytes ("-- " ++ line)), .blank (ascii '\n')] ?_
  rw [List.append_assoc, List.singleton_append, cut]
  rfl

lemma sealed_expiry (d : Dialect) {owner column interval : String}
    (h : Text.contains (remark owner column interval) '\n' = true →
      Sealed (remark owner column interval ++ "\n")) :
    Sealed (settled ((Statement.expiry owner column interval).sql d)) := by
  have line : Sealed (remark owner column interval ++ "\n") := by
    by_cases split : Text.contains (remark owner column interval) '\n' = true
    · exact h split
    · have front : remark owner column interval = "-- " ++ ("ttl: rows of " ++ owner ++ " expire " ++
          interval ++ " after " ++ column) := by
        have words : ("-- ttl: rows of " : String) = "-- " ++ "ttl: rows of " := by decide
        unfold remark
        rw [words]
        simp only [String.append_assoc]
      rw [Text.contains, List.contains_iff_mem, front] at split
      rw [front]
      exact sealed_remark split
  have text : (Statement.expiry owner column interval).sql d =
      remark owner column interval ++ "\n" ++ ("COMMENT ON TABLE " ++ Sql.name owner ++ " IS " ++
        d.quoteString ("ttl: " ++ column ++ " + " ++ interval)) := by
    have middle : ("\nCOMMENT ON TABLE " : String) = "\n" ++ "COMMENT ON TABLE " := by decide
    change "-- ttl: rows of " ++ owner ++ " expire " ++ interval ++ " after " ++ column ++
      "\nCOMMENT ON TABLE " ++ Sql.name owner ++ " IS " ++
      d.quoteString ("ttl: " ++ column ++ " + " ++ interval) = _
    unfold remark
    rw [middle]
    simp only [String.append_assoc]
  have breaks : Breaks (Text.bytes (remark owner column interval ++ "\n")) := by
    rw [Text.bytes_append]
    exact breaks_append (breaks_of_endsApart (by decide))
  rw [text]
  refine sealed_settled_of_solid (sealed_lead _ ⟨line, breaks⟩ ?_) ⟨?_, ?_⟩
  · exact sealed_between (sealed_lead "COMMENT ON TABLE " (.of_own (by decide)) (sealed_name owner)) " IS "
      (.of_own (by decide)) (sealed_quoteString d _)
  · unfold remark
    simp only [String.append_assoc]
    exact startsFirm_append (by decide) _
  · exact endsFirm_append _ (endsFirm_append _ (endsFirm_quoteString d _))

-- texts with strings in them are cut, not only looked through
lemma sealed_searchTexts :
    Sealed " || ' ' || " ∧ Sealed ", '')" ∧ Sealed " (to_tsvector('simple', " := by decide +kernel

lemma joint_blank : Joint " || ' ' || " :=
  ⟨⟨sealed_searchTexts.1, breaks_of_endsApart (by decide)⟩, stops_of_startsApart (by decide)⟩

lemma trail_empty : Trail ", '')" :=
  ⟨sealed_searchTexts.2.1, stops_of_startsApart (by decide)⟩

lemma joint_vector : Joint " (to_tsvector('simple', " :=
  ⟨⟨sealed_searchTexts.2.2, breaks_of_endsApart (by decide)⟩, stops_of_startsApart (by decide)⟩

lemma sealed_searchDocument (columns : List String) : Sealed (Statement.searchDocument columns) := by
  unfold Statement.searchDocument
  split
  · exact sealed_name _
  · refine sealed_join joint_blank fun s hs => ?_
    obtain ⟨column, -, rfl⟩ := List.mem_map.1 hs
    exact sealed_trail (sealed_lead "coalesce(" (.of_own (by decide)) (sealed_name column)) ", '')"
      trail_empty

lemma sealed_search (d : Dialect) (ifNotExists : Bool) {name method : String} (owner : String)
    (columns : List String) (plain : Sql.isPlainWord name = true) (h : Sealed method) :
    Sealed (settled ((Statement.search ifNotExists name owner method columns).sql d)) := by
  have text : (Statement.search ifNotExists name owner method columns).sql d =
      "CREATE INDEX " ++ guardWords ifNotExists ++ name ++ " ON " ++ Sql.name owner ++ " USING " ++
        method ++ " (to_tsvector('simple', " ++ Statement.searchDocument columns ++ "))" := rfl
  rw [text]
  refine sealed_settled_of_solid ?_ ⟨?_, endsFirm_append _ (by decide)⟩
  · have named := sealed_guarded "CREATE INDEX " (.of_own (by decide)) ifNotExists
      (sealed_of_clause (clause_word plain))
    have owned := sealed_between named " ON " (.of_own (by decide)) (sealed_name owner)
    have used := sealed_between owned " USING " (.of_own (by decide)) h
    exact sealed_trail (sealed_between used _ joint_vector
      (sealed_searchDocument columns)) "))" (.of_own (by decide))
  · simp only [String.append_assoc]
    exact startsFirm_append (by decide) _

lemma sealed_security (d : Dialect) (owner : String) (mode : SecurityMode) :
    Sealed (settled ((Statement.security owner mode).sql d)) := by
  have text : (Statement.security owner mode).sql d =
      Text.join " " ["ALTER", "TABLE", Sql.name owner, mode.word, "ROW", "LEVEL", "SECURITY"] := by
    have front : ("ALTER TABLE " : String) = "ALTER" ++ " " ++ "TABLE" ++ " " := by decide
    have back : (" ROW LEVEL SECURITY" : String) = " " ++ "ROW" ++ " " ++ "LEVEL" ++ " " ++ "SECURITY" := by
      decide
    change "ALTER TABLE " ++ Sql.name owner ++ " " ++ mode.word ++ " ROW LEVEL SECURITY" = _
    rw [front, back]
    simp only [Text.join, String.append_assoc]
  rw [text]
  refine sealed_settled_of_clauses _ (by simp) fun s hs => ?_
  simp only [List.mem_cons, List.not_mem_nil, or_false] at hs
  rcases hs with rfl | rfl | rfl | rfl | rfl | rfl | rfl
  · exact clause_word (by decide)
  · exact clause_word (by decide)
  · exact clause_name owner
  · cases mode <;> exact clause_word (by decide)
  · exact clause_word (by decide)
  · exact clause_word (by decide)
  · exact clause_word (by decide)

lemma sealed_index (d : Dialect) (ifNotExists : Bool) {i : Document.Index}
    (h : Sealed (ended (Text.trim i.tail))) :
    Sealed (settled ((Statement.index ifNotExists i).sql d)) := by
  have front : Sealed ("CREATE " ++ (if i.unique then "UNIQUE " else "") ++ "INDEX " ++
      guardWords ifNotExists ++ Sql.name i.name ++ " ON " ++ Sql.name i.table ++ " (" ++
      Sql.nameList i.columns ++ ")") := by
    have named : Sealed ("CREATE " ++ (if i.unique then "UNIQUE " else "") ++ "INDEX " ++
        guardWords ifNotExists ++ Sql.name i.name) := by
      cases i.unique with
      | false => exact sealed_guarded ("CREATE " ++ "" ++ "INDEX ") (.of_own (by decide)) _ (sealed_name _)
      | true =>
        exact sealed_guarded ("CREATE " ++ "UNIQUE " ++ "INDEX ") (.of_own (by decide)) _ (sealed_name _)
    have owned := sealed_between named " ON " (.of_own (by decide)) (sealed_name i.table)
    exact sealed_trail (sealed_between owned " (" (.of_own (by decide)) (sealed_nameList i.columns)) ")"
      (.of_own (by decide))
  have solid : Solid ("CREATE " ++ (if i.unique then "UNIQUE " else "") ++ "INDEX " ++
      guardWords ifNotExists ++ Sql.name i.name ++ " ON " ++ Sql.name i.table ++ " (" ++
      Sql.nameList i.columns ++ ")") := by
    refine ⟨?_, endsFirm_append _ (by decide)⟩
    simp only [String.append_assoc]
    exact startsFirm_append (by decide) _
  change Sealed (settled (Statement.indexSql ifNotExists i))
  unfold Statement.indexSql
  dsimp only
  by_cases empty : (Text.trim i.tail == "") = true
  · rw [if_pos empty, String.append_empty]
    exact sealed_settled_of_solid front solid
  · rw [if_neg empty, ← String.append_assoc]
    exact sealed_settled_append solid front h

lemma endsFirm_name (s : String) : endsFirm (Sql.name s) = true := by
  obtain ⟨ws, phrase, -⟩ := clause_name s
  exact (solid_of_phrase phrase).2

lemma sealed_view (d : Dialect) (ifNotExists : Bool) {v : Document.View}
    (h : Sealed (ended (Text.trim v.body))) :
    Sealed (settled ((Statement.view ifNotExists v).sql d)) := by
  have text : (Statement.view ifNotExists v).sql d =
      "CREATE " ++ (if d.supports .materializedViews then "MATERIALIZED VIEW " else "VIEW ") ++
        guardWords ifNotExists ++ Sql.name v.name ++ " AS" ++ " " ++ Text.trim v.body := by
    have middle : (" AS " : String) = " AS" ++ " " := by decide
    change "CREATE " ++ _ ++ guardWords ifNotExists ++ Sql.name v.name ++ " AS " ++ Text.trim v.body = _
    rw [middle, ← String.append_assoc]
  rw [text]
  refine sealed_settled_append ⟨?_, endsFirm_append _ (by decide)⟩ (sealed_trail ?_ " AS" (.of_own (by decide))) h
  · simp only [String.append_assoc]
    exact startsFirm_append (by decide) _
  · cases d with
    | postgresql =>
      exact sealed_guarded ("CREATE " ++ "MATERIALIZED VIEW ") (.of_own (by decide)) _ (sealed_name _)
    | sqlite => exact sealed_guarded ("CREATE " ++ "VIEW ") (.of_own (by decide)) _ (sealed_name _)

lemma sealed_trigger (d : Dialect) {t : Document.Trigger} (timing : Sealed (Text.trim t.timing))
    (h : Sealed (ended (Text.trim t.procedure))) :
    Sealed (settled ((Statement.trigger t).sql d)) := by
  have text : (Statement.trigger t).sql d =
      "CREATE TRIGGER " ++ Sql.name t.name ++ " " ++ Text.trim t.timing ++ " EXECUTE PROCEDURE" ++ " " ++
        Text.trim t.procedure := by
    have middle : (" EXECUTE PROCEDURE " : String) = " EXECUTE PROCEDURE" ++ " " := by decide
    change "CREATE TRIGGER " ++ Sql.name t.name ++ " " ++ Text.trim t.timing ++ " EXECUTE PROCEDURE " ++
      Text.trim t.procedure = _
    rw [middle, ← String.append_assoc]
  rw [text]
  refine sealed_settled_append ⟨?_, endsFirm_append _ (by decide)⟩ (sealed_trail ?_ _ (.of_own (by decide))) h
  · simp only [String.append_assoc]
    exact startsFirm_append (by decide) _
  · exact sealed_between (sealed_lead "CREATE TRIGGER " (.of_own (by decide)) (sealed_name t.name)) " "
      (.of_own (by decide)) timing

lemma sealed_optionalClause {s : String} (hs : Sealed s) (words : String) (h : Joint words) {t : String}
    (ht : Sealed t) (tail : String) (h' : Trail tail) :
    Sealed (s ++ Statement.optionalClause words t tail) := by
  unfold Statement.optionalClause
  split
  · rw [String.append_empty]
    exact hs
  · rw [← String.append_assoc, ← String.append_assoc]
    exact sealed_trail (sealed_between hs words h ht) tail h'

lemma optionalClause_empty (words tail : String) : Statement.optionalClause words "" tail = "" := by
  simp [Statement.optionalClause]

lemma endsFirm_optionalClause {s : String} (words : String) {t : String} (ne : t ≠ "") (tail : String)
    (h : endsFirm tail = true) : endsFirm (s ++ Statement.optionalClause words t tail) = true := by
  rw [Statement.optionalClause, if_neg (by simpa using ne)]
  exact endsFirm_append _ (endsFirm_append _ h)

lemma sealed_policy (d : Dialect) {owner : String} {p : Policy}
    (h : ∀ s ∈ (Statement.policy owner p).copied d, Sealed s) :
    Sealed (settled ((Statement.policy owner p).sql d)) := by
  have command := h _ List.mem_cons_self
  have usingExpr : Sealed p.usingExpr := h _ (List.mem_cons_of_mem _ List.mem_cons_self)
  have withCheck : Sealed p.withCheck :=
    h _ (List.mem_cons_of_mem _ (List.mem_cons_of_mem _ List.mem_cons_self))
  have front : Sealed ("CREATE POLICY " ++ Sql.name p.name ++ " ON " ++ Sql.name owner) :=
    sealed_between (sealed_lead "CREATE POLICY " (.of_own (by decide)) (sealed_name p.name)) " ON "
      (.of_own (by decide)) (sealed_name owner)
  have start (t : String) :
      startsFirm ("CREATE POLICY " ++ Sql.name p.name ++ " ON " ++ Sql.name owner ++ t) = true := by
    simp only [String.append_assoc]
    exact startsFirm_append (by decide) _
  change Sealed (settled (Statement.policySql owner p))
  unfold Statement.policySql
  cases ends : Policy.endsWithCommand p with
  | true =>
    rw [ends, if_pos rfl] at command
    simp only [Policy.endsWithCommand, Bool.and_eq_true, beq_iff_eq] at ends
    obtain ⟨⟨role, usingExpr⟩, withCheck⟩ := ends
    rw [role, usingExpr, withCheck, optionalClause_empty, optionalClause_empty, if_pos (by decide),
      String.append_empty, String.append_empty, String.append_empty]
    by_cases none : p.command = ""
    · rw [none, optionalClause_empty]
      refine sealed_settled_of_solid (by rw [String.append_empty]; exact front) ⟨start _, ?_⟩
      rw [String.append_empty]
      exact endsFirm_append _ (endsFirm_name owner)
    · have words : (" FOR " : String) = " FOR" ++ " " := by decide
      rw [Statement.optionalClause, if_neg (by simpa using none), String.append_empty, words,
        ← String.append_assoc, ← String.append_assoc]
      exact sealed_settled_append ⟨start _, endsFirm_append _ (by decide)⟩
        (sealed_trail front " FOR" (.of_own (by decide))) command
  | false =>
    rw [ends, if_neg Bool.false_ne_true] at command
    have granted := sealed_optionalClause front " FOR " (.of_own (by decide)) command "" (.of_own (by decide))
    generalize hg : "CREATE POLICY " ++ Sql.name p.name ++ " ON " ++ Sql.name owner ++
      Statement.optionalClause " FOR " p.command "" = g at granted ⊢
    have given : Sealed (g ++ if (p.role == "") = true then "" else " TO " ++ Sql.name p.role) := by
      split
      · rw [String.append_empty]
        exact granted
      · rw [← String.append_assoc]
        exact sealed_between granted " TO " (.of_own (by decide)) (sealed_name p.role)
    refine sealed_settled_of_solid ?_ ⟨?_, ?_⟩
    · exact sealed_optionalClause (sealed_optionalClause given " USING (" (.of_own (by decide)) usingExpr ")"
        (.of_own (by decide))) " WITH CHECK (" (.of_own (by decide)) withCheck ")" (.of_own (by decide))
    · rw [← hg]
      simp only [String.append_assoc]
      exact startsFirm_append (by decide) _
    · -- the last clause that is there ends with a bracket or a name
      by_cases noCheck : p.withCheck = ""
      · rw [noCheck, optionalClause_empty, String.append_empty]
        by_cases noUsing : p.usingExpr = ""
        · have role : p.role ≠ "" := by
            rintro role
            simp [Policy.endsWithCommand, role, noUsing, noCheck] at ends
          rw [noUsing, optionalClause_empty, String.append_empty, if_neg (by simpa using role)]
          exact endsFirm_append _ (endsFirm_append _ (endsFirm_name _))
        · exact endsFirm_optionalClause _ noUsing ")" (by decide)
      · exact endsFirm_optionalClause _ noCheck ")" (by decide)

lemma sealed_partitioning (d : Dialect) (owner : String) {p : PartitionBy} (h : Sealed p.strategy) :
    Sealed (settled ((Statement.partition owner p).sql d)) := by
  refine sealed_settled_of_solid (sealed_partition h) ⟨?_, ?_⟩
  · change startsFirm p.sql = true
    unfold PartitionBy.sql
    simp only [String.append_assoc]
    exact startsFirm_append (by decide) _
  · change endsFirm p.sql = true
    unfold PartitionBy.sql
    exact endsFirm_append _ (by decide)

/-- A statement is sealed if the texts are that it copies. -/
theorem Statement.sealed_sql {d : Dialect} {st : Statement} (named : st.Named)
    (h : ∀ s ∈ st.copied d, Sealed s) : Sealed (settled (st.sql d)) := by
  cases st with
  | extension name => exact sealed_extension d name
  | enum name labels => exact sealed_settled_of_legible (legible_enum d name labels)
  | table t => exact sealed_settled_of_solid (sealed_table h named) (solid_table d t)
  | partition owner p => exact sealed_partitioning d owner (h _ List.mem_cons_self)
  | expiry owner column interval =>
    refine sealed_expiry d fun split => h _ ?_
    rw [copied, if_pos split]
    exact List.mem_cons_self
  | search ifNotExists name owner method columns =>
    exact sealed_search d ifNotExists owner columns named (h _ List.mem_cons_self)
  | security owner mode => exact sealed_security d owner mode
  | policy owner p => exact sealed_policy d h
  | audit name owner event => exact sealed_settled_of_legible (legible_audit d named owner event)
  | distinctElements name owner column =>
    exact sealed_settled_of_legible (legible_distinctElements d named owner column)
  | softDelete name owner column =>
    exact sealed_settled_of_legible (legible_softDelete d named owner column)
  | migration owner sql => exact h _ List.mem_cons_self
  | foreignKey k => exact sealed_settled_of_legible (legible_foreignKey d named)
  | index ifNotExists i => exact sealed_index d ifNotExists (h _ List.mem_cons_self)
  | view ifNotExists v => exact sealed_view d ifNotExists (h _ List.mem_cons_self)
  | trigger t =>
    exact sealed_trigger d (h _ List.mem_cons_self) (h _ (List.mem_cons_of_mem _ List.mem_cons_self))
  | plugin keyword ordinal sql => exact h _ List.mem_cons_self

/-! ### The statements of a schema -/

lemma mem_of_foreignKey_mem_tableElements {d : Dialect} {s : Schema} {keys : List ForeignKey}
    {e : Schema.Entity} {k : ForeignKey} (h : .foreignKey k ∈ tableElements d s keys e) : k ∈ keys := by
  have groups := (tableOf_views { dialect := d } s keys e).2.2.2.2
  have found : k ∈ (tableOf { dialect := d } s keys e).foreignKeys :=
    List.mem_filterMap.2 ⟨_, h, rfl⟩
  rw [groups] at found
  split at found
  · cases found
  · exact found

lemma named_tableStatements (opts : Options) (s : Schema) {keys : List ForeignKey}
    (plain : ∀ k ∈ keys, Sql.isPlainWord k.name = true) (e : Schema.Entity) :
    ∀ st ∈ tableStatements opts s keys e, st.Named := by
  have table (partition : Option PartitionBy) : (Statement.table ⟨opts.ifNotExists, e.name,
      tableElements opts.dialect s keys e, partition⟩).Named :=
    fun k hk => plain k (mem_of_foreignKey_mem_tableElements hk)
  intro st hst
  rw [tableStatements] at hst
  split at hst
  · rw [List.mem_singleton.1 hst]
    exact table _
  · rcases List.mem_cons.1 hst with rfl | hst
    · exact table _
    · obtain ⟨p, -, rfl⟩ := List.mem_map.1 hst
      trivial

lemma named_securityStatements (o : Overlay) (e : Schema.Entity) :
    ∀ st ∈ securityStatements o e, st.Named := by
  intro st hst
  unfold securityStatements at hst
  split at hst
  · cases hst
  · obtain rfl | rfl : st = _ ∨ st = _ := by simpa using hst
    · trivial
    · trivial
  · rw [List.mem_singleton.1 hst]
    trivial

lemma named_migrationStatements (o : Overlay) (e : Schema.Entity) :
    ∀ st ∈ migrationStatements o e, st.Named := by
  intro st hst
  unfold migrationStatements at hst
  split at hst
  · split at hst
    · cases hst
    · rw [List.mem_singleton.1 hst]
      trivial
  · cases hst

/-- The statements of an entity have the names that the table of names gives out. -/
lemma named_entityStatements (opts : Options) (s : Schema) {keys : List ForeignKey}
    (plain : ∀ k ∈ keys, Sql.isPlainWord k.name = true) (e : Schema.Entity) (names : NameTable) :
    ∀ st ∈ ((entityStatements opts s e keys).run names).1, st.Named := by
  obtain ⟨searchNames, auditNames, softNames, run⟩ := entityStatements_run opts s keys e names
  rw [run]
  intro st hst
  simp only [List.mem_append] at hst
  rcases hst with (((((((hst | hst) | hst) | hst) | hst) | hst) | hst) | hst) | hst
  · exact named_tableStatements opts s plain e st hst
  · refine forall_mem_mapM (P := Statement.Named) (fun _ _ => ?_) _ _ st hst
    exact isPlainWord_claimName _ _
  · obtain ⟨t, -, rfl⟩ := List.mem_map.1 hst
    trivial
  · refine forall_mem_mapM (P := Statement.Named) (fun _ _ => ?_) _ _ st hst
    exact isPlainWord_claimName _ _
  · exact named_securityStatements _ e st hst
  · obtain ⟨p, -, rfl⟩ := List.mem_map.1 hst
    trivial
  · refine forall_mem_mapM (P := Statement.Named) (fun _ _ => ?_) _ _ st hst
    exact isPlainWord_claimName _ _
  · refine forall_mem_mapM (P := Statement.Named) (fun _ _ => ?_) _ _ st hst
    exact isPlainWord_claimName _ _
  · exact named_migrationStatements _ e st hst

lemma named_sourceStatements (opts : Options) (s : Schema) : ∀ st ∈ sourceStatements opts s, st.Named := by
  intro st hst
  obtain ⟨p, hp, rfl⟩ := List.mem_map.1 hst
  rw [List.mem_mergeSort, List.mem_append, List.mem_append] at hp
  rcases hp with (hp | hp) | hp
  · obtain ⟨i, -, rfl⟩ := List.mem_map.1 hp
    trivial
  · obtain ⟨v, -, rfl⟩ := List.mem_map.1 hp
    trivial
  · obtain ⟨t, -, rfl⟩ := List.mem_map.1 hp
    trivial

/-- The names that the generator makes up are plain words. -/
lemma named_of_generate {opts : Options} {s : Schema} {out : Output} (h : generate opts s = .ok out) :
    ∀ st ∈ out.statements, st.Named := by
  obtain ⟨blocks, found, rfl⟩ := exists_blocks_of_generate h
  have groups : ∀ group ∈ entityGroups opts s, ∀ st ∈ group, st.Named := by
    intro group hg
    refine forall_mem_mapM_of_mem (P := fun group => ∀ st ∈ group, st.Named) (fun p hp names => ?_) _
      group hg
    exact named_entityStatements opts s (isPlainWord_keyGroups s _ (List.of_mem_zip hp).2) _ names
  intro st hst
  rw [schemaStatements_eq] at hst
  simp only [List.mem_append] at hst
  rcases hst with ((((hst | hst) | hst) | hst) | hst) | hst
  · obtain ⟨x, -, rfl⟩ := List.mem_map.1 hst
    trivial
  · split at hst
    · obtain ⟨x, -, rfl⟩ := List.mem_map.1 hst
      trivial
    · cases hst
  · obtain ⟨group, hg, hst⟩ := List.mem_flatten.1 hst
    exact groups group hg st hst
  · split at hst
    · obtain ⟨k, hk, rfl⟩ := List.mem_map.1 hst
      obtain ⟨keys, hkeys, hk⟩ := List.mem_flatten.1 hk
      exact isPlainWord_keyGroups s keys hkeys k hk
    · cases hst
  · exact named_sourceStatements opts s st hst
  · obtain ⟨keyword, ordinal, sql, rfl⟩ := exists_plugin_of_mem_blockStatements found st hst
    trivial

end Ddl

namespace Compilation

/-- The script of a compilation is cut into what its statements are cut into, as long as no text that
an enabled statement copies leaves a comment or a quoted run open. -/
theorem normalize_output {path : String} {src : List UInt8} {o : CompileOptions} {out : Ddl.Output}
    (h : (run path src o).output = some out)
    (copies : ∀ st ∈ out.statements, st.disabled out.dialect = false →
      ∀ s ∈ st.copied out.dialect, Ddl.Sealed s) :
    normalize (Text.bytes out.sql) =
      out.statements.flatMap fun st => normalize (Text.bytes (st.render out.dialect)) := by
  have generated : Ddl.generate (generateOptions o) (analyse path src o).1 = .ok out := by
    rw [run_eq] at h
    split at h
    · next out' ok =>
      cases h
      exact ok
    · cases h
  exact Ddl.normalize_sql fun st hst enabled =>
    Ddl.Statement.sealed_sql (Ddl.named_of_generate generated st hst) (copies st hst enabled)

/-- A table and a view, whose texts hold semicolons in a string and in a comment. -/
def quoted : List UInt8 :=
  Text.bytes (":T\n  INT $.id PK CHECK (id > 0)\n" ++
    "MATERIALIZED VIEW v AS SELECT ';' /* ; */ FROM T\n")

/-- Semicolons inside of copied texts do not matter. -/
theorem normalize_output_of_quoted :
    ∃ out, (run "quoted.erd" quoted {}).output = some out ∧ out.statements.length = 2 ∧
      normalize (Text.bytes out.sql) =
        out.statements.flatMap fun st => normalize (Text.bytes (st.render out.dialect)) := by
  have closed : (run "quoted.erd" quoted {}).output.map (fun out => decide
      (out.statements.length = 2 ∧ ∀ st ∈ out.statements, ∀ s ∈ st.copied out.dialect, Ddl.Sealed s)) =
        some true := by
    rw [run, analyse, quoted, read_bytes, String.toList_append]
    decide +kernel
  obtain ⟨out, ok, facts⟩ := Option.map_eq_some_iff.1 closed
  rw [decide_eq_true_iff] at facts
  exact ⟨out, ok, facts.1, normalize_output ok fun st hst _ => facts.2 st hst⟩

/-- Two views, the first of which ends with a remark. -/
def remarked : List UInt8 :=
  Text.bytes ("MATERIALIZED VIEW v AS SELECT 1 -- one\n" ++ "MATERIALIZED VIEW w AS SELECT 2\n")

/-- The schema of the two views. -/
def remarkedSchema : Schema where
  path := "remarked.erd"
  entities := []
  enums := []
  indexes := []
  views := [⟨"v", "SELECT 1 -- one", ⟨1, 1, 1, 39⟩⟩, ⟨"w", "SELECT 2", ⟨2, 1, 2, 32⟩⟩]
  triggers := []
  extensions := []
  blocks := []
  unresolved := []

/-- The script of the two views. -/
def remarkedOutput : Ddl.Output where
  dialect := .postgresql
  header := ""
  statements := remarkedSchema.views.map (.view false)

/-- A remark at the end of a view swallows the semicolon and joins the view with the next. -/
theorem normalize_output_swallows :
    (run "remarked.erd" remarked {}).valid = true ∧
      ∃ out, (run "remarked.erd" remarked {}).output = some out ∧
        normalize (Text.bytes out.sql) ≠
          out.statements.flatMap fun st => normalize (Text.bytes (st.render out.dialect)) := by
  have analysed : analyse "remarked.erd" remarked {} = (remarkedSchema, []) := by
    rw [analyse, remarked, read_bytes, String.toList_append]
    decide +kernel
  have sorted : Ddl.sourceStatements (generateOptions {}) remarkedSchema = remarkedOutput.statements := by
    unfold Ddl.sourceStatements
    dsimp only
    rw [List.mergeSort_of_pairwise (by decide)]
    rfl
  have generated : run "remarked.erd" remarked {} =
      ⟨"remarked.erd", remarkedSchema, some remarkedOutput, []⟩ := by
    rw [run_eq, analysed, Ddl.generate, Ddl.schemaStatements, sorted]
    rfl
  rw [generated]
  exact ⟨rfl, remarkedOutput, rfl, by decide +kernel⟩

end Compilation

end ErdSql
