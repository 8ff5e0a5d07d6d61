import ErdSql.Proofs.Acceptance
import ErdSql.Proofs.CopiedTexts
import ErdSql.Proofs.Handlers
import ErdSql.Proofs.Integrity
import ErdSql.Proofs.NameTables

/-!
# Compilation always ends well

Every definition here is total, so compiling gives a result for all bytes and options. What could still
go wrong is hidden in the defaults: a part of the text that does not exist would be empty, a position
without declaration would be passed over, and a loop that reads nothing would stop. None of this
happens.

* `Schema.Closed`: the positions that a schema refers to are positions of declarations.
* `Compilation.safe_run`: no default is ever used, and only a handler can prevent a script.
-/

namespace ErdSql

/-! ### Positions -/

namespace Schema

/-- The positions that a schema refers to are positions of declarations, and every label has a
place. -/
structure Closed (s : Schema) : Prop where
  foreignKey : ∀ e ∈ s.entities, ∀ f ∈ e.fields, ∀ id span, f.foreignKey? = some (id, span) →
    ∃ target, s.entity? id = some target
  entityType : ∀ e ∈ s.entities, ∀ f ∈ e.fields, ∀ id, f.type.binding = .entity id →
    ∃ target, s.entity? id = some target
  enumType : ∀ e ∈ s.entities, ∀ f ∈ e.fields, ∀ id, f.type.binding = .enum id →
    ∃ en, s.enum? id = some en
  index : ∀ i ∈ s.indexes, ∀ id, i.entity = some id → ∃ e, s.entity? id = some e
  variant : ∀ en ∈ s.enums, ∀ (i : Nat) label, en.labels[i]? = some label →
    ∃ v, en.variants[i]? = some v ∧ v.name = label

/-- The target of a foreign key is the target of a constraint. -/
lemma exists_constraint_of_foreignKey? {f : Field} {id : Nat} {span : Span}
    (h : f.foreignKey? = some (id, span)) : ∃ c ∈ f.constraints, c.clause.target? = some id := by
  unfold Field.foreignKey? at h
  split at h
  · next found =>
    cases h
    exact ⟨_, List.mem_of_find?_eq_some found, rfl⟩
  · cases h

/-- An entity of a schema comes from a block. -/
lemma exists_builtFrom_of_mem {doc : Document} {e : Entity} (h : e ∈ (ofDocument doc).1.entities) :
    ∃ node, (ofDocument doc).1.BuiltFrom node e := by
  rw [entities_ofDocument] at h
  obtain ⟨i, hi, rfl⟩ := List.mem_mapIdx.1 h
  exact ⟨_, builtFrom_buildEntity i _⟩

/-- The type of a field is bound as a name is. -/
lemma exists_binds_of_mem {doc : Document} {e : Entity} (he : e ∈ (ofDocument doc).1.entities) {f : Field}
    (hf : f ∈ e.fields) : ∃ written, (ofDocument doc).1.Binds written f.type := by
  obtain ⟨node, built⟩ := exists_builtFrom_of_mem he
  obtain ⟨line, -, -, binds⟩ := exists_of_forall₂ built.fields hf
  exact ⟨line.type.name, binds⟩

/-- The schema of every document refers to its own declarations only. -/
lemma closed_ofDocument (doc : Document) : (ofDocument doc).1.Closed := by
  constructor
  case foreignKey =>
    intro e he f hf id span key
    obtain ⟨node, built⟩ := exists_builtFrom_of_mem he
    obtain ⟨c, hc, target⟩ := exists_constraint_of_foreignKey? key
    exact ⟨_, List.getElem?_eq_getElem (built.targets f hf c hc id target).2⟩
  case entityType =>
    intro e he f hf id binding
    obtain ⟨written, binds⟩ := exists_binds_of_mem he hf
    rw [Binds, binding] at binds
    obtain ⟨target, found, -⟩ := Option.map_eq_some_iff.1 binds.1
    exact ⟨target, found⟩
  case enumType =>
    intro e he f hf id binding
    obtain ⟨written, binds⟩ := exists_binds_of_mem he hf
    rw [Binds, binding] at binds
    obtain ⟨en, found, -⟩ := Option.map_eq_some_iff.1 binds.1
    exact ⟨en, found⟩
  case index =>
    intro i hi id key
    obtain ⟨st, -, read⟩ := List.mem_filterMap.1 hi
    cases st with
    | index node =>
      cases read
      have lt : id < (declaredNames doc).entities.length := Names.entity?_lt key
      rw [← length_entities_ofDocument] at lt
      exact ⟨_, List.getElem?_eq_getElem lt⟩
    | _ => cases read
  case variant =>
    intro en _ i label found
    rw [Enum.labels, List.getElem?_map] at found
    exact Option.map_eq_some_iff.1 found

end Schema

/-! ### Compilations -/

namespace Compilation

open Document

/-- The characters of a document; there are none if its bytes are malformed. -/
def text (src : List UInt8) : List Char :=
  (Text.decode? src).getD []

/-- The tokens of a document before its end. -/
def body (src : List UInt8) : List Token :=
  (Scan.ofBytes src).tokens.takeWhile fun t => t.kind != .eof

/-- Nothing goes wrong when a document is compiled. -/
structure Safe (path : String) (src : List UInt8) (o : CompileOptions) : Prop where
  /-- Tokens are parts of the text, one behind the other. -/
  tokens : Token.Ordered (Text.byteSize (text src)) (Scan.ofBytes src).tokens
  /-- Statements take up all tokens, and each has a first one. -/
  statements : ((statementGroups (body src)).flatMap fun g => g.1 :: g.2) = body src
  /-- Lines take up all tokens of a statement, and none is empty. -/
  lines : ∀ g ∈ statementGroups (body src), (lineGroups g.2).flatten = g.2 ∧ [] ∉ lineGroups g.2
  /-- Reading asks for parts of the text only: whatever a source gives elsewhere, the outcome is the
  same. -/
  slices : ∀ part : Source, part.Agrees (text src) →
    readStatements part o.plugins false (statementGroups (body src)) =
      ((read path src o.plugins).1.statements, (read path src o.plugins).2.2)
  /-- Every turn of a loop over tokens reads a token. -/
  turns : ∀ part : Source, (∀ expected, Advances (Parser.name expected)) ∧ Advances (literal part) ∧
    Advances (constraint part) ∧ ∀ p, Advances (policyClause p)
  /-- Positions lead to declarations. -/
  positions : (run path src o).schema.Closed
  /-- A keyword has the same handler when it is found in a document and when its upper-case form is
  looked up. -/
  keywords : ∀ word, o.plugins.lookup (Text.upper word) = o.plugins.lookup word
  /-- Blocks have handlers, which have read them. -/
  handlers : ∀ b ∈ (run path src o).schema.blocks, ∃ handler,
    o.plugins.lookup b.block.keyword = some handler ∧ handler.parse b.block = .ok b.node
  /-- Free names are found. -/
  names : ∀ (t : Ddl.NameTable) base, t.isTaken (t.claim base).1 = false
  /-- There is a script unless a handler refuses to write its block. -/
  script : (run path src o).output = none ↔ ∃ b ∈ (run path src o).schema.blocks, ∃ handler reason,
    o.plugins.lookup b.block.keyword = some handler ∧ handler.emit b.block b.node = .error reason

section Safety
variable (path : String) (src : List UInt8) (o : CompileOptions)

/-- The tokens before the end stand in order. -/
lemma ordered_body : Token.Ordered (Text.byteSize (text src)) (body src) :=
  (Scan.ordered_ofBytes src).sublist (List.takeWhile_sublist _)

/-- A block of the schema was read with a handler. -/
lemma exists_handler_of_mem_blocks {b : Block} (h : b ∈ (run path src o).schema.blocks) : ∃ handler,
    o.plugins.lookup b.block.keyword = some handler ∧ handler.parse b.block = .ok b.node := by
  rw [run_schema] at h
  obtain ⟨st, hst, read⟩ := List.mem_filterMap.1 h
  cases st with
  | block b' =>
    cases read
    exact exists_handler_of_mem_readStatements hst
  | _ => cases read

/-- There is no script where generation fails. -/
lemma output_eq_none_iff : (run path src o).output = none ↔
    ∃ e, Ddl.generate (generateOptions o) (run path src o).schema = .error e := by
  rw [run_schema]
  change _ ↔ ∃ e, Ddl.generate (generateOptions o) (analyse path src o).1 = .error e
  rw [run_eq]
  cases Ddl.generate (generateOptions o) (analyse path src o).1 with
  | ok out => simp
  | error e => simp

/-- Compiling a document is safe for all bytes, paths and options: reading, checking and writing stay
inside the text, the tokens and the declarations, every loop goes on, and only a handler that refuses
to write its block prevents the script. -/
theorem safe_run : Safe path src o where
  tokens := Scan.ordered_ofBytes src
  statements := flatMap_statementGroups (body src)
  lines := fun g _ => ⟨flatten_lineGroups g.2, nil_notMem_lineGroups g.2⟩
  slices := fun _ agrees => readStatements_of_agrees agrees (ordered_body src) o.plugins
  turns := fun part => ⟨advances_name, advances_literal part, advances_constraint part,
    advances_policyClause⟩
  positions := by
    rw [run_schema]
    exact Schema.closed_ofDocument _
  keywords := o.plugins.lookup_upper
  handlers := fun _ hb => exists_handler_of_mem_blocks path src o hb
  names := Ddl.NameTable.isTaken_claim
  script := by
    have handlers : ∀ b ∈ (run path src o).schema.blocks, ∃ handler,
        o.plugins.lookup b.block.keyword = some handler := by
      intro b hb
      obtain ⟨handler, found, -⟩ := exists_handler_of_mem_blocks path src o hb
      exact ⟨handler, found⟩
    rw [output_eq_none_iff, Ddl.exists_error_generate_iff]
    exact Ddl.exists_error_blockStatements_iff handlers

end Safety

end Compilation

end ErdSql
