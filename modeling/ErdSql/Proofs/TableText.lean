import ErdSql.Proofs.Clauses
import ErdSql.Proofs.Statements

/-!
# Reading generated tables

How the statements of a schema of basic fields are read back from their SQL.

* `Ddl.reads_column`: a column is read with its name, unless the name opens with the word `EXCLUDE`.
* `Ddl.legible_table`: a table is read with its name and the columns so read.
* `Ddl.tables_of_legible`: the tables read from a script are the tables of its statements.

Every statement that is not a table is read as something else, or as nothing.
-/

namespace ErdSql

open Script (Atom Phrase Word Name mark)
open Script.Head (keyword nameWords listWords Outside Item)
open Text (ascii)

/-! ### Basic fields -/

/-- Whether a literal is a number, a string or `NULL`. -/
def Literal.isConstant (v : Literal) : Bool :=
  match v.kind with
  | .number => Scan.isNumber v.text
  | .string => Scan.isString v.text
  | .null => true
  | _ => false

/-- A field of a known type with numbers for arguments, without a check and with a constant for its
default. -/
structure Schema.Field.Basic (f : Schema.Field) : Prop where
  name : '\x00' ∉ f.name.toList
  bound : f.type.binding ≠ .unresolved
  base : f.type.binding = .base → Sql.isPlainWord f.type.name = true
  args : ∀ a ∈ f.type.args, Scan.isNumber a.text = true
  default : ∀ v, f.default? = some v → v.isConstant = true
  unchecked : f.check? = none

/-- An entity of basic fields that asks for no feature but audit triggers and the view of its live
rows. -/
structure Schema.Entity.Basic (e : Schema.Entity) : Prop where
  name : '\x00' ∉ e.name.toList
  fields : ∀ f ∈ e.fields, f.Basic
  unchecked : Ddl.checkKeys e = []
  unpartitioned : e.partition = none
  kept : e.ttl = none
  unsearched : e.fts = []
  unsecured : e.rls = none
  unruled : e.policies = []

/-- A schema of basic entities and enumerations and nothing else. -/
structure Schema.Basic (s : Schema) : Prop where
  entities : ∀ e ∈ s.entities, e.Basic
  indexes : s.indexes = []
  views : s.views = []
  triggers : s.triggers = []
  extensions : s.extensions = []
  blocks : s.blocks = []

namespace Ddl

open Schema

/-! ### Columns -/

lemma clause_typeText {f : Field} (h : f.Basic) (base : f.type.binding = .base) :
    Clause f.type.text := by
  have name := clause_word (h.base base)
  unfold FieldType.text
  split
  · exact name
  · have list : Clause ("(" ++ (Text.join ", " (f.type.args.map (·.text)) ++ ")")) := by
      rw [← String.append_assoc]
      refine clause_list fun s hs => ?_
      obtain ⟨a, ha, rfl⟩ := List.mem_map.1 hs
      obtain ⟨ws, phrase, -⟩ := clause_of_isNumber (h.args a ha)
      exact ⟨ws, phrase⟩
    have both := name.behind list
    rwa [← String.append_assoc] at both

/-- A basic field that is typed by no declaration has a base type. -/
lemma binding_of_basic {f : Field} (h : f.Basic) (noEnum : ∀ id, f.type.binding ≠ .enum id)
    (noEntity : ∀ id, f.type.binding ≠ .entity id) : f.type.binding = .base := by
  cases e : f.type.binding with
  | unresolved => exact absurd e h.bound
  | base => rfl
  | enum id => exact absurd e (noEnum id)
  | entity id => exact absurd e (noEntity id)

/-- The element type of a field of a basic schema, which may come from the key of another entity. -/
lemma clause_elementType {s : Schema} (basic : ∀ e ∈ s.entities, ∀ f ∈ e.fields, f.Basic) (d : Dialect)
    (fuel : Nat) {f : Field} (h : f.Basic) : Clause (elementType d s fuel f).sql := by
  have text : Clause ElementType.text.sql := clause_word (s := "TEXT") (by decide)
  -- only a reference goes on to another field
  induction fuel generalizing f with
  | zero =>
    rw [elementType]
    split
    · split
      · exact clause_name _
      · exact text
    · exact text
    · next noEnum noEntity => exact clause_typeText h (binding_of_basic h noEnum noEntity)
  | succ fuel ih =>
    rw [elementType]
    split
    · split
      · exact clause_name _
      · exact text
    · next id e =>
      cases ht : s.entity? id with
      | none => exact text
      | some target =>
        dsimp only
        split
        · exact text
        · next key hk =>
          have mem : target ∈ s.entities := List.mem_of_getElem? ht
          split
          · exact ih (basic target mem key (List.mem_of_find?_eq_some hk))
          · exact text
    · next noEnum noEntity => exact clause_typeText h (binding_of_basic h noEnum noEntity)

lemma clause_defaultExpr (d : Dialect) (s : Schema) (f : Field) {v : Literal}
    (h : v.isConstant = true) : Clause (defaultExpr d s f v) := by
  unfold Literal.isConstant at h
  unfold defaultExpr
  cases e : v.kind with
  | number =>
    rw [e] at h
    exact clause_of_isNumber h
  | string =>
    rw [e] at h
    dsimp only
    split
    · exact clause_quoteString d _
    · next single =>
      refine clause_of_isString h fun quote => single ?_
      rw [Literal.isDoubleQuoted, e, quote]
      rfl
  | null => exact clause_word (s := "NULL") (by decide)
  | identifier => rw [e] at h; cases h
  | call => rw [e] at h; cases h
  | list => rw [e] at h; cases h

/-- A text that opens with a plain word. -/
lemma clause_behind_word (word : String) {s : String} (hw : Sql.isPlainWord word = true) (h : Clause s) :
    Clause (word ++ " " ++ s) := by
  have all : ∀ t ∈ [word, s], Clause t := by
    intro t ht
    rcases List.mem_pair.1 ht with rfl | rfl
    · exact clause_word hw
    · exact h
  have joined := clause_join all (by simp)
  rwa [Text.join, Text.join] at joined

/-- Whether a name opens with the word that no dialect reserves and that opens a table constraint. -/
def opensConstraint (name : String) : Bool :=
  match Sql.parts name with
  | part :: _ => Sql.isPlainWord part && Text.upper part == "EXCLUDE"
  | [] => false

/-- A text that is read as an item with the given column. -/
def Reads (s : String) (column : Option Name) : Prop :=
  ∃ ws, Phrase (Text.bytes s) ws ∧ Item ws column

/-- An item that opens with a name is read as a column, unless the name opens a table constraint. -/
lemma reads_named {name : String} (nul : '\x00' ∉ name.toList) {rest : List String} (ne : rest ≠ [])
    (clauses : ∀ s ∈ rest, Clause s) :
    Reads (Text.join " " (Sql.name name :: rest))
      (if opensConstraint name then none else some ((Sql.parts name).map Text.bytes)) := by
  obtain ⟨cs, phrase, outside⟩ := clause_join clauses ne
  have text : Text.join " " (Sql.name name :: rest) = Sql.name name ++ " " ++ Text.join " " rest := by
    cases rest with
    | nil => exact absurd rfl ne
    | cons s rest => rfl
  have undotted : ∀ w ∈ cs.head?, w.isMark '.' = false := by
    obtain ⟨w, hw, undotted⟩ := Script.Head.undotted_of_phrase phrase
    intro v hv
    rw [hw] at hv
    cases hv
    exact undotted
  rw [Reads, text]
  refine ⟨_, phrase_spaced (Sql.phrase_name name) phrase, ?_⟩
  have names := Sql.namePart?_parts nul
  cases e : Sql.parts name with
  | nil => exact absurd e (Sql.parts_ne_nil name)
  | cons part parts =>
    rw [e, List.map_cons] at names
    have taken : Script.Head.constraintWords.any (Sql.partWord part).spells = opensConstraint name := by
      rw [opensConstraint, e]
      exact Sql.constraintWords_partWord part
    cases excluded : opensConstraint name with
    | true =>
      rw [excluded] at taken
      exact Script.Head.item_constraint taken ((outside_parts parts).append outside)
    | false =>
      rw [excluded] at taken
      exact Script.Head.item_column taken names outside undotted

/-- An item that opens with a word for a table constraint is read without column. -/
lemma reads_constraint {word : String} (plain : Sql.isPlainWord word = true)
    (taken : Script.Head.constraintWords.any (keyword word).spells = true) {rest : List String}
    (ne : rest ≠ []) (clauses : ∀ s ∈ rest, Clause s) :
    Reads (Text.join " " (word :: rest)) none := by
  obtain ⟨cs, phrase, outside⟩ := clause_join clauses ne
  have text : Text.join " " (word :: rest) = word ++ " " ++ Text.join " " rest := by
    cases rest with
    | nil => exact absurd rfl ne
    | cons s rest => rfl
  rw [Reads, text]
  exact ⟨_, phrase_spaced (.atom (Sql.atom_of_isPlainWord plain)) phrase,
    Script.Head.item_constraint taken outside⟩

/-- The check that a column holds one of some labels. -/
lemma clause_labels (d : Dialect) (name : String) (labels : List String) :
    Clause ("CHECK (" ++ Sql.name name ++ " IN (" ++ d.stringList labels ++ "))") := by
  have inner : Clause (Text.join " " [Sql.name name, "IN", "(" ++ d.stringList labels ++ ")"]) := by
    refine clause_join (fun t ht => ?_) (by simp)
    simp only [List.mem_cons, List.not_mem_nil, or_false] at ht
    rcases ht with rfl | rfl | rfl
    · exact clause_name name
    · exact clause_word (by decide)
    · exact clause_stringList d labels
  obtain ⟨ws, phrase, -⟩ := inner
  have list := @clause_list [Text.join " " [Sql.name name, "IN", "(" ++ d.stringList labels ++ ")"]] (by
    intro t ht
    rw [List.mem_singleton.1 ht]
    exact ⟨ws, phrase⟩)
  have text : "CHECK (" ++ Sql.name name ++ " IN (" ++ d.stringList labels ++ "))" =
      "CHECK" ++ " " ++ ("(" ++ Text.join ", "
        [Text.join " " [Sql.name name, "IN", "(" ++ d.stringList labels ++ ")"]] ++ ")") := by
    have front : ("CHECK (" : String) = "CHECK" ++ " " ++ "(" := by decide
    have middle : (" IN (" : String) = " " ++ "IN" ++ " " ++ "(" := by decide
    have back : ("))" : String) = ")" ++ ")" := by decide
    rw [front, middle, back]
    simp only [Text.join, String.append_assoc]
  rw [text]
  exact clause_behind_word "CHECK" (by decide) list

/-- A column of a basic field is read with its name. -/
lemma reads_column {s : Schema} (basic : ∀ e ∈ s.entities, ∀ f ∈ e.fields, f.Basic) (d : Dialect)
    (inlineKey : Option String) {f : Field} (h : f.Basic) :
    Reads ((column d s inlineKey f).sql d)
      (if opensConstraint f.name then none else some ((Sql.parts f.name).map Text.bytes)) := by
  have element := clause_elementType basic d (s.entities.length + 1) h
  have type : Clause ((column d s inlineKey f).typeSql d) := by
    unfold Column.typeSql
    split
    · cases d with
      | postgresql => exact element.brackets
      | sqlite => exact clause_word (s := "TEXT") (by decide)
    · exact element
  unfold Column.sql
  simp only [List.cons_append, List.nil_append]
  refine reads_named h.name (by simp) fun t ht => ?_
  simp only [List.append_assoc, List.mem_cons, List.mem_append] at ht
  rcases ht with rfl | ht | ht | ht | ht | ht | ht
  · exact type
  · split at ht
    · rw [List.mem_singleton.1 ht]
      exact clause_words ["PRIMARY", "KEY"] (by decide) (by decide) (by decide)
    · cases ht
  · split at ht
    · rw [List.mem_singleton.1 ht]
      exact clause_word (by decide)
    · cases ht
  · split at ht
    · rw [List.mem_singleton.1 ht]
      exact clause_words ["NOT", "NULL"] (by decide) (by decide) (by decide)
    · cases ht
  · obtain ⟨e, he, rfl⟩ := List.mem_map.1 ht
    rw [Option.mem_toList] at he
    obtain ⟨v, hv, rfl⟩ := Option.map_eq_some_iff.1 he
    exact clause_behind_word "DEFAULT" (by decide) (clause_defaultExpr d s f (h.default v hv))
  · obtain ⟨e, he, rfl⟩ := List.mem_map.1 ht
    rw [Option.mem_toList] at he
    have none : (column d s inlineKey f).check = none := h.unchecked
    rw [none] at he
    cases he
  · obtain ⟨labels, -, rfl⟩ := List.mem_map.1 ht
    exact clause_labels d _ labels

/-! ### Constraints -/

/-- The texts of a foreign key, one clause after another. -/
def foreignKeyClauses (k : ForeignKey) : List String :=
  [k.name, "FOREIGN", "KEY", "(" ++ Sql.nameList [k.column] ++ ")", "REFERENCES", Sql.name k.target,
    "(" ++ Sql.nameList k.columns ++ ")"]

lemma foreignKey_sql (k : ForeignKey) : k.sql = Text.join " " (foreignKeyClauses k) := by
  have first : (" FOREIGN KEY (" : String) = " " ++ "FOREIGN" ++ " " ++ "KEY" ++ " " ++ "(" := by decide
  have second : (") REFERENCES " : String) = ")" ++ " " ++ "REFERENCES" ++ " " := by decide
  have third : (" (" : String) = " " ++ "(" := by decide
  have column : Sql.nameList [k.column] = Sql.name k.column := rfl
  rw [ForeignKey.sql, first, second, third, foreignKeyClauses, column]
  simp only [Text.join, String.append_assoc]

lemma clause_foreignKey {k : ForeignKey} (plain : Sql.isPlainWord k.name = true) :
    ∀ s ∈ foreignKeyClauses k, Clause s := by
  intro s hs
  simp only [foreignKeyClauses, List.mem_cons, List.not_mem_nil, or_false] at hs
  rcases hs with rfl | rfl | rfl | rfl | rfl | rfl | rfl
  · exact clause_word plain
  · exact clause_word (by decide)
  · exact clause_word (by decide)
  · exact clause_nameList _
  · exact clause_word (by decide)
  · exact clause_name _
  · exact clause_nameList _

/-- What is read from a definition in the list of a table. -/
def readElement : TableElement → Option Name
  | .column c => if opensConstraint c.name then none else some ((Sql.parts c.name).map Text.bytes)
  | _ => none

/-- The definitions of the table of a basic entity are read one by one. -/
lemma reads_tableElements {s : Schema} (basic : ∀ e ∈ s.entities, ∀ f ∈ e.fields, f.Basic) (d : Dialect)
    {keys : List ForeignKey} (plain : ∀ k ∈ keys, Sql.isPlainWord k.name = true) {e : Entity}
    (h : e.Basic) : ∀ t ∈ tableElements d s keys e, Reads (t.sql d) (readElement t) := by
  intro t ht
  rw [tableElements_eq, h.unchecked] at ht
  simp only [List.append_assoc, List.mem_append, List.map_nil, List.not_mem_nil, false_or] at ht
  rcases ht with ht | ht | ht | ht
  · obtain ⟨c, hc, rfl⟩ := List.mem_map.1 ht
    obtain ⟨f, hf, rfl⟩ := List.mem_map.1 hc
    exact reads_column basic d _ (h.fields f (List.mem_filter.1 hf).1)
  · obtain ⟨columns, -, rfl⟩ := List.mem_map.1 ht
    have text : (TableElement.primaryKey columns).sql d =
        Text.join " " ["PRIMARY", "KEY", "(" ++ Sql.nameList columns ++ ")"] := by
      have front : ("PRIMARY KEY (" : String) = "PRIMARY" ++ " " ++ "KEY" ++ " " ++ "(" := by decide
      change "PRIMARY KEY (" ++ Sql.nameList columns ++ ")" = _
      rw [front]
      simp only [Text.join, String.append_assoc]
    rw [text]
    refine reads_constraint (by decide) (by decide) (by simp) fun t ht => ?_
    rcases List.mem_pair.1 ht with rfl | rfl
    · exact clause_word (by decide)
    · exact clause_nameList columns
  · obtain ⟨columns, -, rfl⟩ := List.mem_map.1 ht
    have text : (TableElement.unique columns).sql d =
        Text.join " " ["UNIQUE", "(" ++ Sql.nameList columns ++ ")"] := by
      have front : ("UNIQUE (" : String) = "UNIQUE" ++ " " ++ "(" := by decide
      change "UNIQUE (" ++ Sql.nameList columns ++ ")" = _
      rw [front]
      simp only [Text.join, String.append_assoc]
    rw [text]
    refine reads_constraint (by decide) (by decide) (by simp) fun t ht => ?_
    rw [List.mem_singleton.1 ht]
    exact clause_nameList columns
  · obtain ⟨k, hk, rfl⟩ := List.mem_map.1 ht
    have mem : k ∈ keys := by
      split at hk
      · cases hk
      · exact hk
    have text : (TableElement.foreignKey k).sql d = Text.join " " ("CONSTRAINT" :: foreignKeyClauses k) := by
      have front : ("CONSTRAINT " : String) = "CONSTRAINT" ++ " " := by decide
      change "CONSTRAINT " ++ k.sql = _
      rw [foreignKey_sql, front]
      rfl
    rw [text]
    exact reads_constraint (by decide) (by decide) (by simp [foreignKeyClauses])
      (clause_foreignKey (plain k mem))

/-! ### Tables -/

/-- Items with commas between them, in parentheses. -/
lemma phrase_items {ps : List (String × Option Name)} (h : ∀ p ∈ ps, Reads p.1 p.2) :
    ∃ is : List (List Word × Option Name), (∀ i ∈ is, Item i.1 i.2) ∧
      is.map Prod.snd = ps.map Prod.snd ∧
      Phrase (Text.bytes ("(" ++ Text.join ", " (ps.map Prod.fst) ++ ")"))
        (mark '(' :: listWords is ++ [mark ')']) := by
  have inner : ∃ is : List (List Word × Option Name), (∀ i ∈ is, Item i.1 i.2) ∧
      is.map Prod.snd = ps.map Prod.snd ∧
      (ps ≠ [] → Phrase (Text.bytes (Text.join ", " (ps.map Prod.fst))) (listWords is)) := by
    induction ps with
    | nil => exact ⟨[], nofun, rfl, fun ne => absurd rfl ne⟩
    | cons p ps ih =>
      obtain ⟨ws, phrase, item⟩ := h p List.mem_cons_self
      obtain ⟨is, items, columns, rest⟩ := ih fun q hq => h q (List.mem_cons_of_mem p hq)
      refine ⟨(ws, p.2) :: is, ?_, ?_, fun _ => ?_⟩
      · intro i hi
        rcases List.mem_cons.1 hi with rfl | hi
        · exact item
        · exact items i hi
      · rw [List.map_cons, List.map_cons, columns]
      · cases ps with
        | nil =>
          rw [List.map_eq_nil_iff.1 columns, listWords, List.flatMap_nil, List.append_nil]
          exact phrase
        | cons q qs =>
          cases is with
          | nil => cases columns
          | cons j js =>
            have both := Phrase.listed phrase (rest (by simp))
            have bytes : Text.bytes (Text.join ", " ((p :: q :: qs).map Prod.fst)) =
                Text.bytes p.1 ++ ascii ',' :: ascii ' ' ::
                  Text.bytes (Text.join ", " ((q :: qs).map Prod.fst)) := by
              simp only [List.map_cons, Text.join, Text.bytes_append, List.append_assoc]
              rfl
            rw [bytes]
            exact both
  obtain ⟨is, items, columns, phrase⟩ := inner
  have bytes : Text.bytes ("(" ++ Text.join ", " (ps.map Prod.fst) ++ ")") =
      ascii '(' :: Text.bytes (Text.join ", " (ps.map Prod.fst)) ++ [ascii ')'] := by
    rw [Text.bytes_append, Text.bytes_append]
    rfl
  refine ⟨is, items, columns, ?_⟩
  rw [bytes]
  by_cases ne : ps = []
  · subst ne
    rw [List.map_eq_nil_iff.1 columns]
    exact .unit
  · exact .parens (phrase ne)

/-- The table that is read from a table definition. -/
def readTable (t : Table) : Script.Table :=
  ⟨Text.bytes t.name, (t.columns.filter fun c => !opensConstraint c.name).map fun c => Text.bytes c.name⟩

/-- The columns that are read from the definitions of a table. -/
lemma map_text_filterMap_readElement (ts : List TableElement) :
    (ts.filterMap readElement).map Name.text =
      ((ts.filterMap fun
        | .column c => some c
        | _ => none).filter fun c => !opensConstraint c.name).map fun c => Text.bytes c.name := by
  induction ts with
  | nil => rfl
  | cons t ts ih =>
    cases t with
    | column c =>
      cases opens : opensConstraint c.name with
      | true => simp [readElement, opens, ih]
      | false => simp [readElement, opens, ih, Sql.text_parts]
    | primaryKey _ => exact ih
    | unique _ => exact ih
    | check _ => exact ih
    | foreignKey _ => exact ih

/-- A statement that is a phrase and is read as the table that it defines, if it defines one. -/
def Statement.Legible (d : Dialect) (st : Statement) : Prop :=
  ∃ ws, Phrase (Text.bytes (st.sql d)) ws ∧
    Script.Table.ofStatement? (Text.bytes (st.sql d)) = st.table?.map readTable

/-- A table without partitioning whose definitions can be read. -/
lemma legible_table {d : Dialect} {t : Table} (name : '\x00' ∉ t.name.toList)
    (whole : t.partition = none) (reads : ∀ e ∈ t.elements, Reads (e.sql d) (readElement e)) :
    (Statement.table t).Legible d := by
  obtain ⟨is, items, columns, list⟩ :=
    @phrase_items (t.elements.map fun e => (e.sql d, readElement e)) fun p hp => by
      obtain ⟨e, he, rfl⟩ := List.mem_map.1 hp
      exact reads e he
  rw [List.map_map] at columns list
  change Phrase (Text.bytes ("(" ++ Text.join ", " (t.elements.map (·.sql d)) ++ ")")) _ at list
  have word {s : String} (h : Sql.isPlainWord s = true) : Phrase (Text.bytes s) [keyword s] :=
    .atom (Sql.atom_of_isPlainWord h)
  -- the guard goes between the two words and the name
  have guarded {rest : String} {ws : List Word} (h : Phrase (Text.bytes rest) ws) :
      Phrase (Text.bytes (guardWords t.ifNotExists ++ rest))
        ((if t.ifNotExists then [keyword "IF", keyword "NOT", keyword "EXISTS"] else []) ++ ws) := by
    cases t.ifNotExists with
    | false =>
      have empty : guardWords false ++ rest = rest := by simp [guardWords]
      rw [empty]
      exact h
    | true =>
      have words : ("IF NOT EXISTS " : String) = "IF" ++ " " ++ "NOT" ++ " " ++ "EXISTS" ++ " " := by decide
      have text : guardWords true ++ rest = "IF" ++ " " ++ ("NOT" ++ " " ++ ("EXISTS" ++ " " ++ rest)) := by
        rw [guardWords, if_pos rfl, words]
        simp only [String.append_assoc]
      rw [text]
      have all := phrase_spaced (word (s := "IF") (by decide))
        (phrase_spaced (word (s := "NOT") (by decide)) (phrase_spaced (word (s := "EXISTS") (by decide)) h))
      exact all
  have text : (Statement.table t).sql d = "CREATE" ++ " " ++ ("TABLE" ++ " " ++
      (guardWords t.ifNotExists ++ (Sql.name t.name ++ " " ++
        ("(" ++ Text.join ", " (t.elements.map (·.sql d)) ++ ")")))) := by
    have front : ("CREATE TABLE " : String) = "CREATE" ++ " " ++ "TABLE" ++ " " := by decide
    have middle : (" (" : String) = " " ++ "(" := by decide
    change t.sql d = _
    unfold Table.sql
    rw [whole, front, middle]
    simp only [String.append_assoc, String.append_empty]
  have phrase := phrase_spaced (word (s := "CREATE") (by decide))
    (phrase_spaced (word (s := "TABLE") (by decide))
      (guarded (phrase_spaced (Sql.phrase_name t.name) list)))
  rw [← text] at phrase
  have ne : (Sql.parts t.name).map Sql.partWord ≠ [] := by
    rw [Ne, List.map_eq_nil_iff]
    exact Sql.parts_ne_nil t.name
  have head := Script.Head.ofWords?_table t.ifNotExists (Sql.namePart?_parts name) ne items
  have read : is.filterMap Prod.snd = t.elements.filterMap readElement := by
    have := congrArg (List.filterMap id) columns
    rwa [List.filterMap_map, List.filterMap_map] at this
  refine ⟨_, phrase, ?_⟩
  have words := phrase.words?_eq
  simp only [List.nil_append, List.cons_append] at words
  rw [Script.Table.ofStatement?, Script.Head.ofStatement?, words, Option.bind_some, head, read]
  change some (Script.Table.mk _ _) = some (Script.Table.mk _ _)
  rw [Sql.text_parts, map_text_filterMap_readElement]
  rfl

/-! ### Other statements -/

/-- Two plain words and clauses behind them. -/
lemma phrase_two_words (first second : String) {rest : List String} (clauses : ∀ s ∈ rest, Clause s)
    (h : Sql.isPlainWord first = true) (h' : Sql.isPlainWord second = true) (ne : rest ≠ []) :
    ∃ ws, Phrase (Text.bytes (Text.join " " (first :: second :: rest)))
      (keyword first :: keyword second :: ws) := by
  obtain ⟨ws, phrase, -⟩ := clause_join clauses ne
  cases rest with
  | nil => exact absurd rfl ne
  | cons s rest =>
    exact ⟨ws, phrase_spaced (.atom (Sql.atom_of_isPlainWord h))
      (phrase_spaced (.atom (Sql.atom_of_isPlainWord h')) phrase)⟩

lemma legible_enum (d : Dialect) (name : String) (labels : List String) :
    (Statement.enum name labels).Legible d := by
  have text : (Statement.enum name labels).sql d = Text.join " "
      ["CREATE", "TYPE", Sql.name name, "AS", "ENUM", "(" ++ d.stringList labels ++ ")"] := by
    have front : ("CREATE TYPE " : String) = "CREATE" ++ " " ++ "TYPE" ++ " " := by decide
    have middle : (" AS ENUM (" : String) = " " ++ "AS" ++ " " ++ "ENUM" ++ " " ++ "(" := by decide
    change "CREATE TYPE " ++ Sql.name name ++ " AS ENUM (" ++ d.stringList labels ++ ")" = _
    rw [front, middle]
    simp only [Text.join, String.append_assoc]
  have clauses : ∀ s ∈ [Sql.name name, "AS", "ENUM", "(" ++ d.stringList labels ++ ")"], Clause s := by
    intro s hs
    simp only [List.mem_cons, List.not_mem_nil, or_false] at hs
    rcases hs with rfl | rfl | rfl | rfl
    · exact clause_name name
    · exact clause_word (by decide)
    · exact clause_word (by decide)
    · exact clause_stringList d labels
  obtain ⟨ws, phrase⟩ := phrase_two_words "CREATE" "TYPE" clauses (by decide) (by decide) (by simp)
  rw [← text] at phrase
  exact ⟨_, phrase, Script.Head.ofStatement?_create phrase (.inl rfl)⟩

lemma legible_foreignKey (d : Dialect) {k : ForeignKey} (plain : Sql.isPlainWord k.name = true) :
    (Statement.foreignKey k).Legible d := by
  have text : (Statement.foreignKey k).sql d = Text.join " "
      ("ALTER" :: "TABLE" :: ([Sql.name k.table, "ADD", "CONSTRAINT"] ++ foreignKeyClauses k)) := by
    have front : ("ALTER TABLE " : String) = "ALTER" ++ " " ++ "TABLE" ++ " " := by decide
    have middle : (" ADD CONSTRAINT " : String) = " " ++ "ADD" ++ " " ++ "CONSTRAINT" ++ " " := by decide
    change "ALTER TABLE " ++ Sql.name k.table ++ " ADD CONSTRAINT " ++ k.sql = _
    rw [foreignKey_sql, front, middle]
    simp only [foreignKeyClauses, List.cons_append, List.nil_append, Text.join, String.append_assoc]
  have clauses : ∀ s ∈ [Sql.name k.table, "ADD", "CONSTRAINT"] ++ foreignKeyClauses k, Clause s := by
    intro s hs
    rcases List.mem_append.1 hs with hs | hs
    · simp only [List.mem_cons, List.not_mem_nil, or_false] at hs
      rcases hs with rfl | rfl | rfl
      · exact clause_name _
      · exact clause_word (by decide)
      · exact clause_word (by decide)
    · exact clause_foreignKey plain s hs
  obtain ⟨ws, phrase⟩ := phrase_two_words "ALTER" "TABLE" clauses (by decide) (by decide) (by simp)
  rw [← text] at phrase
  exact ⟨_, phrase, Script.Head.ofStatement?_alter phrase⟩

/-- The words of a trigger that calls a procedure for each row. -/
def triggerClauses (name event owner procedure : String) : List String :=
  [name, "BEFORE", event, "ON", Sql.name owner, "FOR", "EACH", "ROW", "EXECUTE", "PROCEDURE", procedure]

/-- A trigger whose name is a plain word. -/
lemma legible_trigger {d : Dialect} {st : Statement} (name event owner procedure : String)
    (other : st.table? = none)
    (text : st.sql d = Text.join " " ("CREATE" :: "TRIGGER" :: triggerClauses name event owner procedure))
    (plain : Sql.isPlainWord name = true) (watched : Clause event) (called : Clause procedure) :
    st.Legible d := by
  have clauses : ∀ s ∈ triggerClauses name event owner procedure, Clause s := by
    intro s hs
    simp only [triggerClauses, List.mem_cons, List.not_mem_nil, or_false] at hs
    rcases hs with rfl | rfl | rfl | rfl | rfl | rfl | rfl | rfl | rfl | rfl | rfl
    · exact clause_word plain
    · exact clause_word (by decide)
    · exact watched
    · exact clause_word (by decide)
    · exact clause_name owner
    · exact clause_word (by decide)
    · exact clause_word (by decide)
    · exact clause_word (by decide)
    · exact clause_word (by decide)
    · exact clause_word (by decide)
    · exact called
  obtain ⟨ws, phrase⟩ := phrase_two_words "CREATE" "TRIGGER" clauses (by decide) (by decide)
    (by simp [triggerClauses])
  rw [← text] at phrase
  refine ⟨_, phrase, ?_⟩
  rw [other]
  exact Script.Head.ofStatement?_create phrase (.inr (.inl rfl))

/-- The words between the table of a trigger and what it calls. -/
lemma triggerWords_eq : (" FOR EACH ROW EXECUTE PROCEDURE " : String) =
    " " ++ "FOR" ++ " " ++ "EACH" ++ " " ++ "ROW" ++ " " ++ "EXECUTE" ++ " " ++ "PROCEDURE" ++ " " := by
  decide

lemma legible_audit (d : Dialect) {name : String} (plain : Sql.isPlainWord name = true) (owner : String)
    (event : AuditEvent) : (Statement.audit name owner event).Legible d := by
  have call {s : String} (h : Sql.isPlainWord s = true) : Clause (s ++ "(" ++ ")") :=
    (clause_word h).behind (@clause_list [] nofun)
  refine legible_trigger name event.operation owner ("set_" ++ event.word ++ "_at()") rfl ?_ plain ?_ ?_
  · have front : ("CREATE TRIGGER " : String) = "CREATE" ++ " " ++ "TRIGGER" ++ " " := by decide
    have first : (" BEFORE " : String) = " " ++ "BEFORE" ++ " " := by decide
    have second : (" ON " : String) = " " ++ "ON" ++ " " := by decide
    have third : (" FOR EACH ROW EXECUTE PROCEDURE set_" : String) =
        " FOR EACH ROW EXECUTE PROCEDURE " ++ "set_" := by decide
    change "CREATE TRIGGER " ++ name ++ " BEFORE " ++ event.operation ++ " ON " ++ Sql.name owner ++
      " FOR EACH ROW EXECUTE PROCEDURE set_" ++ event.word ++ "_at()" = _
    rw [front, first, second, third, triggerWords_eq, triggerClauses]
    simp only [Text.join, String.append_assoc]
  · cases event with
    | created => exact clause_word (s := "INSERT") (by decide)
    | updated => exact clause_word (s := "UPDATE") (by decide)
  · cases event with
    | created => exact call (s := "set_created_at") (by decide)
    | updated => exact call (s := "set_updated_at") (by decide)

lemma legible_distinctElements (d : Dialect) {name : String} (plain : Sql.isPlainWord name = true)
    (owner column : String) : (Statement.distinctElements name owner column).Legible d := by
  refine legible_trigger name "INSERT OR UPDATE" owner
    ("check_distinct_elements" ++ "(" ++ (d.quoteString column ++ ")")) rfl ?_ plain ?_ ?_
  · have front : ("CREATE TRIGGER " : String) = "CREATE" ++ " " ++ "TRIGGER" ++ " " := by decide
    have first : (" BEFORE INSERT OR UPDATE ON " : String) =
        " " ++ "BEFORE" ++ " " ++ "INSERT OR UPDATE" ++ " " ++ "ON" ++ " " := by decide
    have second : (" FOR EACH ROW EXECUTE PROCEDURE check_distinct_elements(" : String) =
        " FOR EACH ROW EXECUTE PROCEDURE " ++ "check_distinct_elements" ++ "(" := by decide
    change "CREATE TRIGGER " ++ name ++ " BEFORE INSERT OR UPDATE ON " ++ Sql.name owner ++
      " FOR EACH ROW EXECUTE PROCEDURE check_distinct_elements(" ++ d.quoteString column ++ ")" = _
    rw [front, first, second, triggerWords_eq, triggerClauses]
    simp only [Text.join, String.append_assoc]
  · exact clause_words ["INSERT", "OR", "UPDATE"] (by decide) (by decide) (by decide)
  · have list := clause_stringList d [column]
    have one : d.stringList [column] = d.quoteString column := rfl
    rw [one, String.append_assoc] at list
    exact (clause_word (by decide)).behind list

/-- All columns of what follows. -/
lemma clause_star {s : String} (h : Clause s) : Clause ("* " ++ s) := by
  obtain ⟨ws, phrase, outside⟩ := h
  rw [Clause, Text.bytes_append]
  exact ⟨_, .star phrase,
    (Script.Head.outside_plain (w := Script.star) (by decide) (by decide)).append outside⟩

lemma legible_softDelete (d : Dialect) {name : String} (plain : Sql.isPlainWord name = true)
    (owner column : String) : (Statement.softDelete name owner column).Legible d := by
  have rows : ∀ s ∈ ["FROM", Sql.name owner, "WHERE", Sql.name column, "IS", "NULL"], Clause s := by
    intro s hs
    simp only [List.mem_cons, List.not_mem_nil, or_false] at hs
    rcases hs with rfl | rfl | rfl | rfl | rfl | rfl
    · exact clause_word (by decide)
    · exact clause_name owner
    · exact clause_word (by decide)
    · exact clause_name column
    · exact clause_word (by decide)
    · exact clause_word (by decide)
  have clauses : ∀ s ∈ [name, "AS", "SELECT", "* " ++ Text.join " "
      ["FROM", Sql.name owner, "WHERE", Sql.name column, "IS", "NULL"]], Clause s := by
    intro s hs
    simp only [List.mem_cons, List.not_mem_nil, or_false] at hs
    rcases hs with rfl | rfl | rfl | rfl
    · exact clause_word plain
    · exact clause_word (by decide)
    · exact clause_word (by decide)
    · exact clause_star (clause_join rows (by simp))
  have text : (Statement.softDelete name owner column).sql d = Text.join " " ["CREATE", "VIEW", name, "AS",
      "SELECT", "* " ++ Text.join " " ["FROM", Sql.name owner, "WHERE", Sql.name column, "IS", "NULL"]] := by
    have front : ("CREATE VIEW " : String) = "CREATE" ++ " " ++ "VIEW" ++ " " := by decide
    have first : (" AS SELECT * FROM " : String) =
        " " ++ "AS" ++ " " ++ "SELECT" ++ " " ++ "* " ++ "FROM" ++ " " := by decide
    have second : (" WHERE " : String) = " " ++ "WHERE" ++ " " := by decide
    have back : (" IS NULL" : String) = " " ++ "IS" ++ " " ++ "NULL" := by decide
    change "CREATE VIEW " ++ name ++ " AS SELECT * FROM " ++ Sql.name owner ++ " WHERE " ++
      Sql.name column ++ " IS NULL" = _
    rw [front, first, second, back]
    simp only [Text.join, String.append_assoc]
  obtain ⟨ws, phrase⟩ := phrase_two_words "CREATE" "VIEW" clauses (by decide) (by decide) (by simp)
  rw [← text] at phrase
  exact ⟨_, phrase, Script.Head.ofStatement?_create phrase (.inr (.inr rfl))⟩

/-! ### Scripts -/

/-- A statement that a dialect lacks the feature for defines no table. -/
lemma table?_of_disabled {d : Dialect} {st : Statement} (h : st.disabled d = true) :
    st.table? = none := by
  cases st with
  | table t => cases h
  | _ => rfl

/-- The tables that are read from a script of legible statements are the tables of its statements. -/
theorem tables_of_legible {out : Output} (h : ∀ st ∈ out.statements, st.Legible out.dialect) :
    Script.tables (Text.bytes out.sql) = out.tables.map readTable := by
  -- what is left of a statement when the script is cut at its semicolons
  let text (st : Statement) : Option (List UInt8) :=
    if st.disabled out.dialect then none else some (Text.bytes (st.sql out.dialect))
  have chunks : List.Forall₂ Script.Chunk
      (Text.bytes (banner out.header) ::
        (out.statements.map (·.render out.dialect)).map fun r => Text.bytes (r ++ "\n"))
      (none :: out.statements.map text) := by
    refine .cons (chunk_banner out.header) ?_
    rw [List.map_map, List.forall₂_map_left_iff, List.forall₂_map_right_iff, List.forall₂_same]
    intro st hst
    obtain ⟨ws, phrase, -⟩ := h st hst
    exact chunk_of_terminated phrase _
  rw [Script.tables, Output.sql, bytes_script, Script.normalize_of_chunks chunks, Output.tables,
    List.filterMap_cons_none rfl, List.filterMap_map, List.filterMap_filterMap, List.map_filterMap]
  refine List.filterMap_congr fun st hst => ?_
  obtain ⟨ws, -, read⟩ := h st hst
  cases disabled : st.disabled out.dialect with
  | true => simp [text, disabled, table?_of_disabled disabled]
  | false => simpa [text, disabled] using read

/-- The names of the foreign keys of a schema are plain words. -/
lemma isPlainWord_keyGroups (s : Schema) :
    ∀ keys ∈ keyGroups s, ∀ k ∈ keys, Sql.isPlainWord k.name = true :=
  forall_mem_mapM (fun _ _ => forall_mem_mapM (fun _ names => isPlainWord_claimName _ names) _ _) _ _

/-- The statements of a basic entity are legible. -/
lemma legible_entityStatements {opts : Options} (bare : opts.overlay = Overlay.empty) {s : Schema}
    (basic : ∀ e ∈ s.entities, e.Basic) {keys : List ForeignKey}
    (plain : ∀ k ∈ keys, Sql.isPlainWord k.name = true) {e : Entity} (h : e.Basic) (names : NameTable) :
    ∀ st ∈ ((entityStatements opts s e keys).run names).1, st.Legible opts.dialect := by
  have whole : partitionOf opts.overlay e = none := by
    rw [bare, partitionOf, h.unpartitioned]
    rfl
  have table : (tableOf opts s keys e).partition = none := by
    rw [tableOf]
    split
    · exact whole
    · rfl
  have elements := reads_tableElements (fun e he => (basic e he).fields) opts.dialect plain h
  have single : tableStatements opts s keys e = [.table (tableOf opts s keys e)] := by
    rw [tableStatements, tableOf]
    split
    · rfl
    · rw [whole]
      rfl
  have secured : securityStatements opts.overlay e = [] := by
    rw [bare, securityStatements, securityOf, h.unsecured]
    rfl
  have migrated : migrationStatements opts.overlay e = [] := by
    rw [bare]
    rfl
  obtain ⟨searchNames, auditNames, softNames, run⟩ := entityStatements_run opts s keys e names
  have search : ((searchStatements opts e).run searchNames).1 = [] := by
    rw [searchStatements, h.unsearched]
    rfl
  rw [run, single, h.kept, search, secured, h.unruled, migrated]
  intro st hst
  simp only [Option.toList_none, List.map_nil, List.append_nil, List.mem_append,
    List.mem_singleton] at hst
  rcases hst with ((rfl | hst) | hst) | hst
  · exact legible_table h.name table elements
  · exact forall_mem_mapM
      (fun _ _ => legible_distinctElements _ (isPlainWord_claimName _ _) _ _) _ _ st hst
  · exact forall_mem_mapM (fun _ _ => legible_audit _ (isPlainWord_claimName _ _) _ _) _ _ st hst
  · exact forall_mem_mapM (fun _ _ => legible_softDelete _ (isPlainWord_claimName _ _) _ _) _ _ st hst

/-- A basic schema has a script, and every statement of it is legible. -/
lemma exists_legible {opts : Options} (bare : opts.overlay = Overlay.empty) {s : Schema} (h : s.Basic) :
    ∃ out, generate opts s = .ok out ∧ ∀ st ∈ out.statements, st.Legible out.dialect := by
  refine ⟨⟨opts.dialect, opts.header, schemaStatements opts s ++ []⟩, ?_, ?_⟩
  · rw [generate, h.blocks]
    rfl
  have source : sourceStatements opts s = [] := by
    rw [sourceStatements, h.indexes, h.views, h.triggers]
    simp
  rw [List.append_nil, schemaStatements_eq, h.extensions, source, List.map_nil, List.nil_append,
    List.append_nil]
  intro st hst
  simp only [List.mem_append] at hst
  rcases hst with (hst | hst) | hst
  · split at hst
    · obtain ⟨e, -, rfl⟩ := List.mem_map.1 hst
      exact legible_enum _ _ _
    · cases hst
  · obtain ⟨group, hg, hst⟩ := List.mem_flatten.1 hst
    have legible : ∀ st ∈ group, st.Legible opts.dialect := by
      refine forall_mem_mapM_of_mem (P := fun group => ∀ st ∈ group, st.Legible opts.dialect)
        (fun p hp names => ?_) _ group hg
      obtain ⟨inEntities, inKeys⟩ := List.of_mem_zip hp
      exact legible_entityStatements bare h.entities (isPlainWord_keyGroups s _ inKeys)
        (h.entities _ inEntities) names
    exact legible st hst
  · split at hst
    · obtain ⟨k, hk, rfl⟩ := List.mem_map.1 hst
      obtain ⟨keys, hkeys, hk⟩ := List.mem_flatten.1 hk
      exact legible_foreignKey _ (isPlainWord_keyGroups s keys hkeys k hk)
    · cases hst

/-- The table that is read for an entity: all columns but those whose names open a table constraint. -/
def readEntity (e : Entity) : Script.Table :=
  ⟨Text.bytes e.name, ((e.fields.filter (·.isColumn)).filter fun f => !opensConstraint f.name).map
    fun f => Text.bytes f.name⟩

/-- A basic schema has a script, from which the tables of its entities are read in order. -/
theorem tables_of_basic {opts : Options} (bare : opts.overlay = Overlay.empty) {s : Schema}
    (h : s.Basic) :
    ∃ out, generate opts s = .ok out ∧
      Script.tables (Text.bytes out.sql) = s.entities.map readEntity := by
  obtain ⟨out, ok, legible⟩ := exists_legible bare h
  refine ⟨out, ok, ?_⟩
  have same : (s.entities.zip (keyGroups s)).map Prod.fst = s.entities :=
    List.map_fst_zip (length_keyGroups s).ge
  rw [tables_of_legible legible, tables_of_generate ok, List.map_map]
  conv_rhs => rw [← same, List.map_map]
  refine List.map_congr_left fun p _ => ?_
  obtain ⟨columns, -⟩ := tableOf_views opts s p.2 p.1
  rw [Function.comp_apply, Function.comp_apply, readTable, readEntity, columns, List.filter_map,
    List.map_map]
  rfl

end Ddl

end ErdSql
