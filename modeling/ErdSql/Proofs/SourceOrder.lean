import ErdSql.Proofs.AddedFields
import ErdSql.Proofs.Locality
import ErdSql.Proofs.Totality

/-!
# The order of the source

The statements of a script follow the statements of its document.

* `Compilation.exists_heads`: the statements of a document start on lines further and further down.
* `Ddl.sourceStatements_ofDocument`: indexes, views and triggers keep the order of the document, although
  they are kept apart in the schema and merged by their lines.
* `Compilation.script_follows_source`: the parts of a script, each in the order of the document.
-/

namespace ErdSql

/-! ### Where a statement starts -/

namespace Span

/-- A span starts where a token starts. -/
def OpensAt (s : Span) (t : Token) : Prop :=
  s.startLine = t.line ∧ s.startColumn = t.column

lemma opensAt_between (first last : Token) : (between first last).OpensAt first := by
  unfold between across
  split <;> exact ⟨rfl, rfl⟩

/-- A span that starts inside the document starts there however far it is stretched. -/
lemma OpensAt.extend {s : Span} {t : Token} (opens : s.OpensAt t) (inside : t.line ≠ 0) (u : Token) :
    (s.extend u).OpensAt t := by
  have started : (s.startLine == 0 && s.startColumn == 0) = false := by
    rw [opens.1, Bool.and_eq_false_iff, beq_eq_false_iff_ne]
    exact .inl (by exact_mod_cast inside)
  unfold Span.extend cover
  rw [if_neg (Bool.eq_false_iff.1 started)]
  split
  · exact opens
  · exact opens

end Span

namespace Document

/-- The span of a statement. -/
def Statement.span : Statement → Span
  | entity e => e.span
  | enum e => e.span
  | index i => i.span
  | view v => v.span
  | trigger t => t.span
  | extension x => x.span
  | block b => b.block.span

/-- The kind of the token that a statement starts with. -/
def Statement.opening : Statement → Token.Kind
  | entity _ => .entity
  | enum _ => .keyword .enum
  | index _ => .keyword .index
  | view _ => .keyword .materialized
  | trigger _ => .keyword .trigger
  | extension _ => .keyword .extension
  | block _ => .identifier

/-- A statement starts with a token. -/
structure Heads (t : Token) (st : Statement) : Prop where
  kind : t.kind = st.opening
  span : st.span.OpensAt t

/-! ### Readers of statements -/

/-- Wherever a reader starts, its values have a property. -/
def Yields {α : Type} (Q : α → Prop) (p : Parser α) : Prop :=
  ∀ c a after, Returns p c a after → Q a

namespace Yields

variable {α β : Type} {Q : β → Prop} {q q' : Parser β}

lemma pure {b : β} (h : Q b) : Yields Q (Pure.pure b) := by
  rintro c _ _ ⟨⟩
  exact h

lemma bind {p : Parser α} {f : α → Parser β} (h : ∀ a, Yields Q (f a)) : Yields Q (p >>= f) := by
  intro c b after returns
  obtain ⟨a, mid, -, rest⟩ := exists_of_bind returns
  exact h a mid b after rest

lemma ite {b : Bool} (yes : Yields Q q) (no : Yields Q q') : Yields Q (if b then q else q') := by
  cases b
  · exact no
  · exact yes

lemma fail (expected : Expected) : Yields Q (Parser.fail expected) := by
  rintro c _ _ ⟨⟩

lemma failAt (t : Token) (expected : Expected) (found : Found) :
    Yields Q (Parser.failAt t expected found) := by
  rintro c _ _ ⟨⟩

/-- A statement whose span goes from its first token to the last one that is read. -/
lemma spanned {head : Token} {view : β → Span} {make : Span → β} (spans : ∀ s, view (make s) = s) :
    Yields (fun b => (view b).OpensAt head)
      (Parser.previous >>= fun last => Pure.pure (make (Span.between head last))) :=
  .bind fun last => .pure (by rw [spans]; exact Span.opensAt_between head last)

end Yields

section Readers
variable {src : Source} {head : Token}

lemma opensAt_enumStatement : Yields (·.span.OpensAt head) (enumStatement head) :=
  .bind fun _ => .bind fun _ => .bind fun _ => .spanned fun _ => rfl

lemma opensAt_indexStatement : Yields (·.span.OpensAt head) (indexStatement src head) := by
  refine .bind fun unique => .ite (.bind fun _ => ?_) ?_
  all_goals exact .bind fun _ => .bind fun _ => .bind fun _ => .bind fun _ => .bind fun _ => .bind fun _ =>
    .spanned fun _ => rfl

lemma opensAt_viewStatement : Yields (·.span.OpensAt head) (viewStatement src head) :=
  .bind fun _ => .bind fun _ => .bind fun _ => .bind fun _ =>
    .ite (.fail _) (.bind fun _ => .spanned fun _ => rfl)

lemma opensAt_triggerStatement : Yields (·.span.OpensAt head) (triggerStatement src head) := by
  refine .bind fun _ => .bind fun tokens => ?_
  split
  · exact .bind fun _ => .bind fun _ => .failAt _ _ _
  · exact .fail _
  · exact .bind fun _ => .fail _
  · exact .bind fun _ => .spanned fun _ => rfl

lemma opensAt_extensionStatement : Yields (·.span.OpensAt head) (extensionStatement src head) :=
  .bind fun _ => .ite (.fail _) (.ite (.fail _) (.bind fun _ => .spanned fun _ => rfl))

lemma opensAt_blockStatement (handler : Plugin.Handler) :
    Yields (·.block.span.OpensAt head) (blockStatement src handler head) := by
  refine .bind fun _ => .bind fun _ => .bind fun last => ?_
  unfold handledBlock
  split
  · exact .pure (Span.opensAt_between head last)
  · exact .failAt _ _ _

/-- An entity starts at its marker, whatever of its lines could be read. -/
lemma opensAt_entity (inside : head.line ≠ 0) (tokens : List Token) (atEnd : Bool) :
    (entity src head tokens atEnd).1.span.OpensAt head := by
  have stretched (results : List LineResult) {s : Span} (opens : s.OpensAt head) :
      (results.foldl (fun s r => s.extend r.last) s).OpensAt head := by
    induction results generalizing s with
    | nil => exact opens
    | cons r rs ih => exact ih (opens.extend inside r.last)
  exact stretched _ ⟨rfl, rfl⟩

lemma opensAt_of_ofParsed {α : Type} {view : α → Span} {p : Parser α} {c : Cursor} {wrap : α → Statement}
    {st : Statement} (opens : Yields (fun a => (view a).OpensAt head) p)
    (given : (StatementResult.ofParsed wrap (p c)).statement = some st) :
    ∃ a, st = wrap a ∧ (view a).OpensAt head := by
  cases read : p c with
  | ok a after =>
    rw [read] at given
    cases given
    exact ⟨a, rfl, opens c a after read⟩
  | error e stopped =>
    rw [read] at given
    cases given

/-- A statement starts with the first of its tokens. -/
lemma heads_of_readStatement {plugins : Plugin.Registry} {recovering atEnd : Bool} {tokens : List Token}
    {st : Statement} (inside : head.line ≠ 0)
    (given : (readStatement src plugins recovering head tokens atEnd).statement = some st) :
    Heads head st := by
  unfold readStatement at given
  dsimp only at given
  split at given
  · next kind =>
    cases given
    exact ⟨kind, opensAt_entity inside tokens atEnd⟩
  · next kind =>
    obtain ⟨e, rfl, opens⟩ := opensAt_of_ofParsed opensAt_enumStatement given
    exact ⟨kind, opens⟩
  · next kind =>
    obtain ⟨i, rfl, opens⟩ := opensAt_of_ofParsed opensAt_indexStatement given
    exact ⟨kind, opens⟩
  · next kind =>
    obtain ⟨v, rfl, opens⟩ := opensAt_of_ofParsed opensAt_viewStatement given
    exact ⟨kind, opens⟩
  · next kind =>
    obtain ⟨t, rfl, opens⟩ := opensAt_of_ofParsed opensAt_triggerStatement given
    exact ⟨kind, opens⟩
  · next kind =>
    obtain ⟨x, rfl, opens⟩ := opensAt_of_ofParsed opensAt_extensionStatement given
    exact ⟨kind, opens⟩
  · next kind =>
    split at given
    · split at given
      · obtain ⟨b, rfl, opens⟩ := opensAt_of_ofParsed (opensAt_blockStatement _) given
        exact ⟨kind, opens⟩
      · cases given
    · cases given
  · cases given

/-- A statement that cannot be read is left out, and nothing else changes: the others keep their order. -/
lemma exists_heads_of_readStatements (src : Source) {groups : List (Token × List Token)}
    (plugins : Plugin.Registry) (inside : ∀ g ∈ groups, g.1.line ≠ 0) (recovering : Bool) :
    ∃ heads, heads.Sublist (groups.map Prod.fst) ∧
      List.Forall₂ Heads heads (readStatements src plugins recovering groups).1 := by
  induction groups generalizing recovering with
  | nil => exact ⟨[], .slnil, .nil⟩
  | cons g rest ih =>
    obtain ⟨head, tokens⟩ := g
    obtain ⟨first, others⟩ := List.forall_mem_cons.1 inside
    obtain ⟨heads, sub, headed⟩ :=
      ih others (readStatement src plugins recovering head tokens rest.isEmpty).statement.isNone
    rw [readStatements]
    cases given : (readStatement src plugins recovering head tokens rest.isEmpty).statement with
    | none =>
      rw [given] at headed
      exact ⟨heads, sub.cons _, headed⟩
    | some st =>
      rw [given] at headed
      exact ⟨head :: heads, sub.cons_cons _, .cons (heads_of_readStatement first given) headed⟩

end Readers

/-! ### Lines of statements -/

lemma map_fst_sublist (groups : List (Token × List Token)) :
    (groups.map Prod.fst).Sublist (groups.flatMap fun g => g.1 :: g.2) := by
  induction groups with
  | nil => exact .slnil
  | cons g rest ih =>
    rw [List.map_cons, List.flatMap_cons]
    exact (ih.trans (List.sublist_append_right g.2 _)).cons_cons g.1

/-- A statement starts on a line below the one that the statement in front of it starts on. -/
lemma pairwise_line_statementGroups {ts : List Token} (standing : Token.Standing ts) :
    ((statementGroups ts).map Prod.fst).Pairwise (·.line < ·.line) := by
  have go (head previous : Token) (collected ts : List Token) (standing : Token.Standing (previous :: ts))
      (down : head.line ≤ previous.endLine) :
      ((statementGroups.go head previous collected ts).map Prod.fst).Pairwise (·.line < ·.line) ∧
        ∃ heads, (statementGroups.go head previous collected ts).map Prod.fst = head :: heads ∧
          heads.Sublist ts := by
    fun_induction statementGroups.go head previous collected ts with
    | case1 => simp
    | case2 head previous collected t ts opens ih =>
      obtain ⟨above, -⟩ := List.pairwise_cons.1 standing.pairwise
      have behind := standing.sublist (List.sublist_cons_self previous (t :: ts))
      obtain ⟨apart, heads, eq, sub⟩ := ih behind (behind.line t List.mem_cons_self).2
      have below : previous.endLine < t.line := by
        simp only [opensStatement, Bool.and_eq_true, decide_eq_true_eq] at opens
        exact opens.1.1.1
      refine ⟨?_, t :: heads, by rw [List.map_cons, eq], sub.cons_cons t⟩
      rw [List.map_cons, List.pairwise_cons]
      refine ⟨fun u hu => ?_, apart⟩
      rw [eq] at hu
      obtain rfl | later := List.mem_cons.1 hu
      · exact down.trans_lt below
      · have further := (List.pairwise_cons.1 behind.pairwise).1 u (sub.subset later)
        have here := (behind.line t List.mem_cons_self).2
        exact down.trans_lt (below.trans_le (here.trans further))
    | case3 head previous collected t ts _ ih =>
      obtain ⟨above, -⟩ := List.pairwise_cons.1 standing.pairwise
      have behind := standing.sublist (List.sublist_cons_self previous (t :: ts))
      have here := above t List.mem_cons_self
      obtain ⟨apart, heads, eq, sub⟩ :=
        ih behind (down.trans (here.trans (behind.line t List.mem_cons_self).2))
      exact ⟨apart, heads, eq, sub.cons t⟩
  cases ts with
  | nil => exact .nil
  | cons t ts => exact (go t t [] ts standing (standing.line t List.mem_cons_self).2).1

end Document

namespace Scan

lemma standing_ofBytes (src : List UInt8) : Token.Standing (ofBytes src).tokens := by
  unfold ofBytes
  cases Text.decode? src with
  | none => exact ⟨.nil, List.forall_mem_nil _, List.forall_mem_nil _⟩
  | some cs => exact standing_ofChars cs

end Scan

namespace Compilation

open Document

/-- The statements of a document start at tokens of its text, each on a line of its own, and stand in the
order of these lines. -/
lemma exists_heads (path : String) (src : List UInt8) (o : CompileOptions) :
    ∃ heads, heads.Sublist (Scan.ofBytes src).tokens ∧ heads.Pairwise (·.line < ·.line) ∧
      List.Forall₂ Heads heads (document path src o).statements := by
  have inside : (body src).Sublist (Scan.ofBytes src).tokens := List.takeWhile_sublist _
  have standing := (Scan.standing_ofBytes src).sublist inside
  have sub : ((statementGroups (body src)).map Prod.fst).Sublist (body src) := by
    conv_rhs => rw [← flatMap_statementGroups (body src)]
    exact map_fst_sublist _
  obtain ⟨heads, among, headed⟩ := exists_heads_of_readStatements (Text.slice (text src)) o.plugins
    (fun g hg => (standing.line g.1 (sub.subset (List.mem_map_of_mem hg))).1.ne') false
  exact ⟨heads, among.trans (sub.trans inside),
    (pairwise_line_statementGroups standing).sublist among, headed⟩

end Compilation

/-! ### Declarations in the order of the document -/

/-- The enumerations of a document in order. -/
def Document.enums (doc : Document) : List Document.Enum :=
  doc.statements.filterMap fun
    | .enum e => some e
    | _ => none

/-- The extensions of a document in order. -/
def Document.extensions (doc : Document) : List Document.Extension :=
  doc.statements.filterMap fun
    | .extension x => some x
    | _ => none

/-- The plugin blocks of a document in order. -/
def Document.blocks (doc : Document) : List Document.Block :=
  doc.statements.filterMap fun
    | .block b => some b
    | _ => none

namespace Schema

lemma firsts_sublist {α : Type} (key : α → String) (xs : List α) : (firsts key xs).Sublist xs := by
  conv_rhs => rw [← List.zipIdx_map_fst 0 xs]
  exact List.filter_sublist.map Prod.fst

/-- The enumerations that a document declares. -/
def declaredEnums (doc : Document) : List Document.Enum :=
  (firsts Declaration.name (declarations doc)).filterMap Declaration.enum?

lemma declaredEntities_sublist (doc : Document) : (declaredEntities doc).Sublist doc.entities := by
  have all : (declarations doc).filterMap Declaration.entity? = doc.entities := by
    rw [declarations, List.filterMap_filterMap]
    refine List.filterMap_congr fun st _ => ?_
    cases st <;> rfl
  rw [declaredEntities_eq, ← all]
  exact (firsts_sublist Declaration.name (declarations doc)).filterMap _

lemma declaredEnums_sublist (doc : Document) : (declaredEnums doc).Sublist doc.enums := by
  have all : (declarations doc).filterMap Declaration.enum? = doc.enums := by
    rw [declarations, List.filterMap_filterMap]
    refine List.filterMap_congr fun st _ => ?_
    cases st <;> rfl
  rw [declaredEnums, ← all]
  exact (firsts_sublist Declaration.name (declarations doc)).filterMap _

end Schema

namespace Ddl

open Schema

/-! ### Indexes, views and triggers -/

/-- What an index, a view or a trigger of a document is in a script. -/
def passed? (ifNotExists : Bool) : Document.Statement → Option Statement
  | .index i => some (.index ifNotExists i)
  | .view v => some (.view ifNotExists v)
  | .trigger t => some (.trigger t)
  | _ => none

/-- Whether a statement is an index, a view or a trigger of the document. -/
def Statement.isPassed : Statement → Bool
  | index .. | view .. | trigger _ => true
  | _ => false

/-- What a statement of a document is in a script, with the line that it starts on. -/
def placed? (ifNotExists : Bool) (st : Document.Statement) : Option (Int × Statement) :=
  (passed? ifNotExists st).map fun out => (st.span.startLine, out)

/-- The part of an index in it. -/
def index? (ifNotExists : Bool) : Document.Statement → Option (Int × Statement)
  | .index i => some (i.span.startLine, .index ifNotExists i)
  | _ => none

/-- The part of a view in it. -/
def view? (ifNotExists : Bool) : Document.Statement → Option (Int × Statement)
  | .view v => some (v.span.startLine, .view ifNotExists v)
  | _ => none

/-- The part of a trigger in it. -/
def trigger? : Document.Statement → Option (Int × Statement)
  | .trigger t => some (t.span.startLine, .trigger t)
  | _ => none

/-- Two kinds of items that are picked from a list one after the other are, but for their order, the items
that are picked at once. -/
lemma filterMap_append_perm {α β : Type} {f g : α → Option β} (apart : ∀ a, f a = none ∨ g a = none)
    (as : List α) : (as.filterMap f ++ as.filterMap g).Perm (as.filterMap fun a => (f a).or (g a)) := by
  induction as with
  | nil => exact .nil
  | cons a as ih =>
    rw [List.filterMap_cons, List.filterMap_cons, List.filterMap_cons]
    cases first : f a with
    | none =>
      rw [Option.none_or]
      cases g a with
      | none => exact ih
      | some b => exact List.perm_middle.trans (ih.cons b)
    | some b =>
      rw [(apart a).resolve_left (by simp [first])]
      exact ih.cons b

/-- The lists of a schema hold what goes into its script behind the tables, each with its line. -/
lemma placed_perm (ifNotExists : Bool) (doc : Document) :
    (((ofDocument doc).1.indexes.map fun i =>
        (i.index.span.startLine, Statement.index ifNotExists i.index)) ++
      ((ofDocument doc).1.views.map fun v => (v.span.startLine, Statement.view ifNotExists v)) ++
      ((ofDocument doc).1.triggers.map fun t => (t.span.startLine, Statement.trigger t))).Perm
        (doc.statements.filterMap (placed? ifNotExists)) := by
  have indexes : ((ofDocument doc).1.indexes.map fun i =>
      (i.index.span.startLine, Statement.index ifNotExists i.index)) = doc.statements.filterMap (index? ifNotExists) := by
    rw [ofDocument, List.map_filterMap]
    refine List.filterMap_congr fun st _ => ?_
    cases st <;> rfl
  have views : ((ofDocument doc).1.views.map fun v => (v.span.startLine, Statement.view ifNotExists v)) =
      doc.statements.filterMap (view? ifNotExists) := by
    rw [ofDocument, List.map_filterMap]
    refine List.filterMap_congr fun st _ => ?_
    cases st <;> rfl
  have triggers : ((ofDocument doc).1.triggers.map fun t => (t.span.startLine, Statement.trigger t)) =
      doc.statements.filterMap trigger? := by
    rw [ofDocument, List.map_filterMap]
    refine List.filterMap_congr fun st _ => ?_
    cases st <;> rfl
  have all : placed? ifNotExists = fun st =>
      ((index? ifNotExists st).or (view? ifNotExists st)).or (trigger? st) := by
    funext st
    cases st <;> rfl
  rw [indexes, views, triggers, all]
  refine ((filterMap_append_perm (fun st => ?_) _).append_right _).trans
    (filterMap_append_perm (fun st => ?_) _)
  · cases st <;> simp [index?, view?]
  · cases st <;> simp [index?, view?, trigger?]

/-- Where statements start on lines further and further down, sorting them by these lines brings the
indexes, views and triggers into the order of the document. -/
lemma sourceStatements_ofDocument (opts : Options) {doc : Document}
    (lines : doc.statements.Pairwise fun st st' => st.span.startLine < st'.span.startLine) :
    sourceStatements opts (ofDocument doc).1 = doc.statements.filterMap (passed? opts.ifNotExists) := by
  have down : (doc.statements.filterMap (placed? opts.ifNotExists)).Pairwise fun a b => a.1 < b.1 := by
    refine lines.filterMap _ fun st st' below a ha b hb => ?_
    obtain ⟨-, -, rfl⟩ := Option.map_eq_some_iff.1 ha
    obtain ⟨-, -, rfl⟩ := Option.map_eq_some_iff.1 hb
    exact below
  have distinct : ((doc.statements.filterMap (placed? opts.ifNotExists)).map Prod.fst).Nodup :=
    List.pairwise_map.2 (down.imp ne_of_lt)
  have sorted (l : List (Int × Statement))
      (perm : l.Perm (doc.statements.filterMap (placed? opts.ifNotExists))) :
      l.mergeSort (fun a b => a.1 ≤ b.1) = doc.statements.filterMap (placed? opts.ifNotExists) := by
    refine List.Perm.eq_of_pairwise (fun a b ha hb le le' => ?_)
      (List.pairwise_mergeSort (by simpa using fun _ _ _ => Int.le_trans) (by simpa using Int.le_total) l)
      (down.imp fun lt => decide_eq_true (Int.le_of_lt lt)) ((List.mergeSort_perm _ _).trans perm)
    have ha := perm.subset (List.mem_mergeSort.1 ha)
    exact List.inj_on_of_nodup_map distinct ha hb
      (Int.le_antisymm (of_decide_eq_true le) (of_decide_eq_true le'))
  rw [sourceStatements, sorted _ (placed_perm opts.ifNotExists doc), List.map_filterMap]
  refine List.filterMap_congr fun st _ => ?_
  rw [placed?, Option.map_map]
  exact Option.map_id_fun' ▸ rfl

/-! ### The parts of a script -/

/-- The statements of an entity block of a name: its table, and then what else the entity has. -/
def OfEntity (name : String) (sts : List Statement) : Prop :=
  ∃ t rest, sts = .table t :: rest ∧ t.name = name ∧ ∀ st ∈ rest, st.table? = none ∧ st.entity = name

/-- The statement of a plugin block: the SQL of its handler, if there is any. -/
def OfBlock (plugins : Plugin.Registry) (b : Document.Block) (sts : List Statement) : Prop :=
  ∃ handler sql, plugins.lookup b.block.keyword = some handler ∧ handler.emit b.block b.node = .ok sql ∧
    if Text.isBlank sql then sts = [] else ∃ ordinal, sts = [.plugin b.block.keyword ordinal (Text.trim sql)]

lemma ofEntity_entityStatements (opts : Options) (s : Schema) (e : Entity) (keys : List ForeignKey)
    (t : NameTable) : OfEntity e.name ((entityStatements opts s e keys).run t).1 := by
  refine ⟨_, _, congrArg Prod.fst (run_entityStatements opts s e keys t), rfl, fun st hst => ?_⟩
  have own : ∀ st ∈ ((entityStatements opts s e keys).run t).1, st.entity = e.name :=
    entity_of_mem_entityStatements
  rw [run_entityStatements] at own
  exact ⟨table?_of_mem_behindTable st hst, own st (List.mem_cons_of_mem _ hst)⟩

lemma ofEntity_entityGroups (opts : Options) (doc : Document) :
    List.Forall₂ OfEntity ((declaredEntities doc).map (·.name)) (entityGroups opts (ofDocument doc).1) := by
  have same : ((ofDocument doc).1.entities.zip (keyGroups (ofDocument doc).1)).map Prod.fst =
      (ofDocument doc).1.entities := List.map_fst_zip (length_keyGroups (ofDocument doc).1).ge
  rw [← map_name_entities_ofDocument, ← same, List.map_map, List.forall₂_map_left_iff]
  exact forall₂_mapM (fun p t => ofEntity_entityStatements opts (ofDocument doc).1 p.1 p.2 t) _ _

lemma exists_parts_of_blockStatements {plugins : Plugin.Registry} {seen : List String}
    {bs : List Document.Block} {sts : List Statement} (h : blockStatements plugins seen bs = .ok sts) :
    ∃ parts, sts = parts.flatten ∧ List.Forall₂ (OfBlock plugins) bs parts := by
  induction bs generalizing seen sts with
  | nil =>
    cases h
    exact ⟨[], rfl, .nil⟩
  | cons b bs ih =>
    rw [blockStatements] at h
    split at h
    · cases h
    · next handler found =>
      split at h
      · cases h
      · next sql emitted =>
        dsimp only at h
        cases rest : blockStatements plugins (b.block.keyword :: seen) bs with
        | error e =>
          rw [rest] at h
          cases h
        | ok more =>
          obtain ⟨parts, rfl, written⟩ := ih rest
          rw [rest] at h
          change (if _ then Except.ok parts.flatten else Except.ok (_ :: parts.flatten)) =
            Except.ok sts at h
          split at h
          · next blank =>
            cases h
            exact ⟨[] :: parts, rfl, .cons ⟨handler, sql, found, emitted, by rw [if_pos blank]⟩ written⟩
          · next text =>
            cases h
            refine ⟨[_] :: parts, rfl, .cons ⟨handler, sql, found, emitted, ?_⟩ written⟩
            rw [if_neg text]
            exact ⟨_, rfl⟩

/-- No entity has an index, a view or a trigger of the document among its statements. -/
lemma isPassed_of_mem_entityGroups {opts : Options} {s : Schema} :
    ∀ st ∈ (entityGroups opts s).flatten, st.isPassed = false := by
  have none {k : Kind} (own : k.isMade = false) (nothing : ∀ e, ownLabels opts e k = []) :
      ∀ st ∈ (entityGroups opts s).flatten, st.kind ≠ k := by
    intro st hst kind
    have labelled : st.label ∈ labels k (entityGroups opts s).flatten := mem_labels.2 ⟨st, hst, kind, rfl⟩
    rw [labels_entityGroups opts s own, List.flatMap_eq_nil_iff.2 fun e _ => nothing e] at labelled
    cases labelled
  intro st hst
  have index := none (k := .index) rfl (fun _ => rfl) st hst
  have view := none (k := .view) rfl (fun _ => rfl) st hst
  have trigger := none (k := .trigger) rfl (fun _ => rfl) st hst
  cases st with
  | index => exact absurd rfl index
  | view => exact absurd rfl view
  | trigger => exact absurd rfl trigger
  | _ => rfl

lemma isPassed_of_mem_sourceStatements {opts : Options} {s : Schema} :
    ∀ st ∈ sourceStatements opts s, st.isPassed = true := by
  intro st hst
  obtain ⟨p, hp, rfl⟩ := List.mem_map.1 hst
  rw [List.mem_mergeSort, List.mem_append, List.mem_append] at hp
  rcases hp with (hp | hp) | hp
  all_goals
    obtain ⟨x, -, rfl⟩ := List.mem_map.1 hp
    rfl

/-- The indexes, views and triggers of a script are those of the document. -/
lemma filter_isPassed_of_generate {opts : Options} {s : Schema} {out : Output}
    (generated : generate opts s = .ok out) :
    out.statements.filter (·.isPassed) = sourceStatements opts s := by
  have nothing {sts : List Statement} (h : ∀ st ∈ sts, st.isPassed = false) :
      sts.filter (·.isPassed) = [] :=
    List.filter_eq_nil_iff.2 fun st hst => Bool.eq_false_iff.1 (h st hst)
  obtain ⟨blocks, found, rfl⟩ := exists_blocks_of_generate generated
  have plugins : ∀ st ∈ blocks, st.isPassed = false := by
    intro st hst
    obtain ⟨keyword, ordinal, sql, rfl⟩ := exists_plugin_of_mem_blockStatements found st hst
    rfl
  have extensions : ∀ st ∈ s.extensions.map fun x => Statement.extension x.name, st.isPassed = false :=
    List.forall_mem_map.2 fun _ _ => rfl
  have enums : ∀ st ∈ if opts.dialect.supports .enumTypes then
      s.enums.map fun e => Statement.enum e.name e.labels else [], st.isPassed = false := by
    split
    · exact List.forall_mem_map.2 fun _ _ => rfl
    · exact List.forall_mem_nil _
  have keys : ∀ st ∈ if opts.dialect.supports .alterConstraints then
      (keyGroups s).flatten.map Statement.foreignKey else [], st.isPassed = false := by
    split
    · exact List.forall_mem_map.2 fun _ _ => rfl
    · exact List.forall_mem_nil _
  rw [schemaStatements_eq, List.filter_append, List.filter_append, List.filter_append, List.filter_append,
    List.filter_append, nothing extensions, nothing enums, nothing isPassed_of_mem_entityGroups, nothing keys,
    nothing plugins, List.filter_eq_self.2 isPassed_of_mem_sourceStatements, List.append_nil]
  rfl

end Ddl

namespace Compilation

open Document Schema Ddl

lemma pairwise_startLine (path : String) (src : List UInt8) (o : CompileOptions) :
    (document path src o).statements.Pairwise fun st st' => st.span.startLine < st'.span.startLine := by
  obtain ⟨heads, -, down, headed⟩ := exists_heads path src o
  have lines : heads.map (fun t => (t.line : Int)) =
      (document path src o).statements.map (·.span.startLine) := by
    rw [← List.forall₂_eq_eq_eq, List.forall₂_map_left_iff, List.forall₂_map_right_iff]
    exact headed.imp fun t st h => h.span.1.symm
  have below : (heads.map fun t => (t.line : Int)).Pairwise (· < ·) :=
    List.pairwise_map.2 (down.imp Int.ofNat_lt.2)
  rw [lines] at below
  exact List.pairwise_map.1 below

/-- **A script keeps the order of its document.** The statements of a document start on lines further and
further down, whatever errors there are. Its script holds first the extensions, then the enumerations,
the tables each with the statements of their entity, and the foreign keys; then all indexes, views and
triggers; and then the plugin blocks: each of these in the order of the document, and none twice. -/
theorem script_follows_source {path : String} {src : List UInt8} {o : CompileOptions} {out : Output}
    (generated : (run path src o).output = some out) :
    let doc := document path src o
    (∃ heads, heads.Sublist (Scan.ofBytes src).tokens ∧ heads.Pairwise (·.line < ·.line) ∧
      List.Forall₂ Heads heads doc.statements) ∧
    (declaredEnums doc).Sublist doc.enums ∧ (declaredEntities doc).Sublist doc.entities ∧
    (∃ (entities : List (List Ddl.Statement)) (keys : List ForeignKey) (blocks : List (List Ddl.Statement)),
      out.statements = (doc.extensions.map fun x => .extension x.name) ++
        (if o.dialect.supports .enumTypes then
          (declaredEnums doc).map fun e => .enum e.name (e.variants.map (·.name)) else []) ++
        entities.flatten ++ keys.map .foreignKey ++
        doc.statements.filterMap (passed? o.ifNotExists) ++ blocks.flatten ∧
      List.Forall₂ OfEntity ((declaredEntities doc).map (·.name)) entities ∧
      List.Forall₂ (OfBlock o.plugins) doc.blocks blocks) ∧
    out.statements.filter (·.isPassed) = doc.statements.filterMap (passed? o.ifNotExists) := by
  intro doc
  obtain ⟨sts, found, rfl⟩ := exists_blocks_of_generate (generate_of_output generated)
  obtain ⟨blocks, rfl, ofBlocks⟩ := exists_parts_of_blockStatements found
  have passed : sourceStatements (generateOptions o) (ofDocument doc).1 =
      doc.statements.filterMap (passed? o.ifNotExists) :=
    sourceStatements_ofDocument (generateOptions o) (pairwise_startLine path src o)
  have enums : ((ofDocument doc).1.enums.map fun e => Ddl.Statement.enum e.name e.labels) =
      (declaredEnums doc).map fun e => .enum e.name (e.variants.map (·.name)) := by
    rw [enums_ofDocument]
    refine List.ext_getElem ?_ ?_
    · simp [declaredEnums]
    · simp [declaredEnums, Enum.labels]
  have statements := schemaStatements_eq (generateOptions o) (ofDocument doc).1
  rw [enums, passed] at statements
  refine ⟨exists_heads path src o, declaredEnums_sublist doc, declaredEntities_sublist doc,
    ⟨entityGroups (generateOptions o) (ofDocument doc).1,
      if o.dialect.supports .alterConstraints then (keyGroups (ofDocument doc).1).flatten else [], blocks, ?_,
      ofEntity_entityGroups (generateOptions o) doc, ofBlocks⟩, ?_⟩
  · rw [statements, apply_ite (List.map Ddl.Statement.foreignKey)]
    rfl
  · rw [filter_isPassed_of_generate (generate_of_output generated)]
    exact passed

/-- A view, two indexes and a trigger among other statements, one of which cannot be read. -/
def shop : List UInt8 :=
  Text.bytes ("MATERIALIZED VIEW recent AS\n  SELECT id\n:Item\n  INT $.id PK\nINDEX by_id ON Item(id)\n" ++
    "INDEX broken ON\nTRIGGER touch AFTER UPDATE\n  EXECUTE PROCEDURE f()\nINDEX again ON Item(id)\n")

/-- The view comes first and the trigger between the indexes, as in the document. -/
theorem script_follows_source_of_shop :
    ∃ out, (run "shop.erd" shop {}).output = some out ∧
      (out.statements.filter (·.isPassed)).map (·.key) =
        ["view:recent", "index:by_id", "trigger:touch", "index:again"] ∧
      ∃ heads, heads.Sublist (Scan.ofBytes shop).tokens ∧ heads.Pairwise (·.line < ·.line) ∧
        List.Forall₂ Heads heads (document "shop.erd" shop {}).statements := by
  have facts : (run "shop.erd" shop {}).output.isSome = true ∧
      ((document "shop.erd" shop {}).statements.filterMap (passed? false)).map (·.key) =
        ["view:recent", "index:by_id", "trigger:touch", "index:again"] := by
    rw [run, analyse, document, shop, read_bytes, String.toList_append]
    decide +kernel
  obtain ⟨out, output⟩ := Option.isSome_iff_exists.1 facts.1
  obtain ⟨heads, -, -, -, passed⟩ := script_follows_source output
  exact ⟨out, output, by rw [passed, facts.2], heads⟩

end Compilation

end ErdSql
