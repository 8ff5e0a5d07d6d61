import ErdSql.Proofs.Acceptance
import ErdSql.Proofs.EntityLines

/-!
# Entity blocks are read back

The scanner cuts a printed block into the tokens of its lines, the parser groups them line by line,
and every line is read back, so the block is (`Document.Entity.read_print`). An expression may run
over several lines of text: a token belongs to the line on which the one before it ends.
-/

namespace ErdSql

namespace Scan

/-! ### Lines of tokens -/

/-- The text of an indented line. -/
def lineChars (ps : List Piece) : List Char :=
  [' ', ' '] ++ (chars ps ++ ['\n'])

/-- The tokens of indented lines, line by line. -/
def blockTokens (p : Position) : List (List Piece) → List (List Token)
  | [] => []
  | ps :: pss => tokensAt (p.advanceBy [' ', ' ']) ps :: blockTokens (p.advanceBy (lineChars ps)) pss

/-- Pieces that are cut off at the end of every line, with a token among them. -/
structure IsLine (ps : List Piece) : Prop where
  cuts : ∀ after, ends after = true → Cuts false ps false after
  nonempty : ∀ p, tokensAt p ps ≠ []

/-- The scanner gives the tokens of the lines and the end of the document. -/
lemma scanFrom_block {pss : List (List Piece)} (h : ∀ ps ∈ pss, IsLine ps) (p : Position) :
    ∃ final : Token, final.kind = .eof ∧
      scanFrom false p (pss.flatMap lineChars) = ⟨(blockTokens p pss).flatten ++ [final], []⟩ := by
  induction pss generalizing p with
  | nil => exact ⟨_, rfl, by rw [List.flatMap_nil, scanFrom]; rfl⟩
  | cons ps pss ih =>
    obtain ⟨first, others⟩ := List.forall_mem_cons.1 h
    obtain ⟨final, kind, eq⟩ := ih others (p.advanceBy (lineChars ps))
    refine ⟨final, kind, ?_⟩
    have text : (ps :: pss).flatMap lineChars =
        ' ' :: ' ' :: (chars ps ++ '\n' :: pss.flatMap lineChars) := by
      simp [lineChars]
    have place : ((p.advanceBy [' ', ' ']).advanceBy (chars ps)).advance '\n' =
        p.advanceBy (lineChars ps) := by
      rw [lineChars, Position.advanceBy_append, Position.advanceBy_append]
      rfl
    have feed : ends ('\n' :: pss.flatMap lineChars) = true := rfl
    rw [text, scanFrom_space (by decide), scanFrom_space (by decide)]
    change scanFrom false (p.advanceBy [' ', ' ']) _ = _
    rw [(first.cuts _ feed).scanFrom_eq, scanFrom_space (by decide), place, eq, prepend, blockTokens,
      List.flatten_cons, List.append_assoc]

/-- The end of the document is no token of a block. -/
lemma kind_of_mem_blockTokens {pss : List (List Piece)} (h : ∀ ps ∈ pss, IsLine ps) {p : Position} {t : Token}
    (ht : t ∈ (blockTokens p pss).flatten) : t.kind ≠ .eof := by
  induction pss generalizing p with
  | nil => cases ht
  | cons ps pss ih =>
    obtain ⟨first, others⟩ := List.forall_mem_cons.1 h
    rw [blockTokens, List.flatten_cons, List.mem_append] at ht
    rcases ht with ht | ht
    · exact ((first.cuts [] rfl).kind_of_mem ht).2
    · exact ih others ht

/-- The first token of some pieces stands on the line where they start. -/
lemma line_of_tokensAt {opens opens' ps after} (h : Cuts opens ps opens' after) {p : Position} {t : Token}
    {ts : List Token} (e : tokensAt p ps = t :: ts) : t.line = p.line ∧ p.line ≤ t.endLine := by
  induction h generalizing p with
  | nil => cases e
  | gap _ feed _ ih =>
    have := ih e
    rwa [Position.line_advance feed] at this
  | token _ _ _ _ _ =>
    obtain ⟨rfl, -⟩ := List.cons.inj e
    exact ⟨rfl, Position.line_le_advanceBy _ _⟩

end Scan

namespace Document

open Scan

/-- All tokens of a line go with the ones before them. -/
lemma lineGroups_tokensAt {opens opens' ps after} (h : Cuts opens ps opens' after) (p : Position)
    (line rest : List Token) : lineGroups.go p.line line (tokensAt p ps ++ rest) =
      lineGroups.go (p.advanceBy (chars ps)).line ((tokensAt p ps).reverse ++ line) rest := by
  induction h generalizing p line with
  | nil => rfl
  | @gap _ _ c _ _ _ feed _ ih =>
    have next := ih (p.advance c) line
    rw [Position.line_advance feed] at next
    exact next
  | @token _ _ kind spelling c cs ps _ _ _ _ _ ih =>
    have later : p.line ≤ (p.advanceBy (c :: cs)).line := Position.line_le_advanceBy _ _
    rw [tokensAt, List.cons_append, lineGroups.go, if_neg (by simp [tokenAt])]
    have ends : max p.line (tokenAt p kind spelling (c :: cs)).endLine = (p.advanceBy (c :: cs)).line :=
      max_eq_right later
    rw [ends, ih, chars_cons, Position.advanceBy_append]
    simp [Piece.chars]

/-- A line of tokens starts where the text goes on below. -/
lemma lineGroups_block {pss : List (List Piece)} (h : ∀ ps ∈ pss, IsLine ps) {last : Nat} {p : Position}
    (below : last < p.line) (line : List Token) :
    lineGroups.go last line (blockTokens p pss).flatten = line.reverse :: blockTokens p pss := by
  induction pss generalizing last p line with
  | nil => rfl
  | cons ps pss ih =>
    obtain ⟨first, others⟩ := List.forall_mem_cons.1 h
    have cuts := first.cuts [] rfl
    let q := p.advanceBy [' ', ' ']
    have same : q.line = p.line := rfl
    obtain ⟨t, ts, e⟩ := List.exists_cons_of_ne_nil (first.nonempty q)
    obtain ⟨start, finish⟩ := line_of_tokensAt cuts e
    have next := lineGroups_tokensAt cuts q [] (blockTokens (p.advanceBy (lineChars ps)) pss).flatten
    have further : (q.advanceBy (chars ps)).line < (p.advanceBy (lineChars ps)).line := by
      rw [lineChars, Position.advanceBy_append, Position.advanceBy_append]
      exact Nat.lt_succ_self _
    rw [ih others further, e, List.cons_append, lineGroups.go, if_neg (by omega), max_eq_right finish,
      List.append_nil, List.reverse_reverse] at next
    change lineGroups.go last line (tokensAt q ps ++ _) = _ :: tokensAt q ps :: _
    rw [e, List.cons_append, lineGroups.go, if_pos (by omega), next]

/-- The first token of a block stands on its first line. -/
lemma line_of_blockTokens {pss : List (List Piece)} (h : ∀ ps ∈ pss, IsLine ps) {p : Position} {t : Token}
    {ts : List Token} (e : (blockTokens p pss).flatten = t :: ts) : t.line = p.line := by
  cases pss with
  | nil => cases e
  | cons ps pss =>
    have first := h ps List.mem_cons_self
    obtain ⟨u, us, e'⟩ := List.exists_cons_of_ne_nil (first.nonempty (p.advanceBy [' ', ' ']))
    rw [blockTokens, List.flatten_cons, e', List.cons_append] at e
    obtain ⟨rfl, -⟩ := List.cons.inj e
    exact (line_of_tokensAt (first.cuts [] rfl) e').1

lemma lineGroups_flatten {pss : List (List Piece)} (h : ∀ ps ∈ pss, IsLine ps) {last : Nat} {p : Position}
    (below : last < p.line) : lineGroups (blockTokens p pss).flatten = blockTokens p pss := by
  have groups := lineGroups_block h below []
  cases e : (blockTokens p pss).flatten with
  | nil =>
    rw [e] at groups
    exact (List.cons.inj groups).2
  | cons t ts =>
    have line := line_of_blockTokens h e
    rw [e, lineGroups.go, if_pos (by omega)] at groups
    exact (List.cons.inj groups).2

/-- No token of a line opens a statement. -/
lemma statementGroups_tokensAt {opens opens' ps after} (h : Cuts opens ps opens' after) (head : Token)
    {previous : Token} {p : Position} (inside : previous.endLine = p.line ∨ 1 < p.column)
    (collected rest : List Token) : ∃ previous',
      statementGroups.go head previous collected (tokensAt p ps ++ rest) =
        statementGroups.go head previous' ((tokensAt p ps).reverse ++ collected) rest := by
  induction h generalizing p previous collected with
  | nil => exact ⟨previous, rfl⟩
  | @gap _ _ c _ _ _ feed _ ih =>
    apply ih
    rw [Position.line_advance feed, Position.column_advance feed]
    omega
  | @token _ _ kind spelling c cs ps _ _ block _ _ ih =>
    have goesOn : opensStatement previous (tokenAt p kind spelling (c :: cs)) = false := by
      rw [opensStatement]
      rcases inside with same | indented
      · simp [tokenAt, same]
      · have column : (p.column == 1) = false := beq_false_of_ne (by omega)
        simp [tokenAt, column, block]
    obtain ⟨previous', next⟩ : ∃ previous', statementGroups.go head (tokenAt p kind spelling (c :: cs))
        (tokenAt p kind spelling (c :: cs) :: collected) (tokensAt (p.advanceBy (c :: cs)) ps ++ rest) =
          statementGroups.go head previous' _ rest := ih (.inl rfl) _
    refine ⟨previous', ?_⟩
    rw [tokensAt, List.cons_append, statementGroups.go, if_neg (by simp [goesOn]), next]
    simp

/-- The lines of a block belong to one statement. -/
lemma statementGroups_block {pss : List (List Piece)} (h : ∀ ps ∈ pss, IsLine ps) (head previous : Token)
    (p : Position) (collected : List Token) :
    statementGroups.go head previous collected (blockTokens p pss).flatten =
      [(head, collected.reverse ++ (blockTokens p pss).flatten)] := by
  induction pss generalizing previous p collected with
  | nil => simp [blockTokens, statementGroups.go]
  | cons ps pss ih =>
    obtain ⟨first, others⟩ := List.forall_mem_cons.1 h
    have indented : 1 < (p.advanceBy [' ', ' ']).column := Nat.lt_add_left p.column (Nat.lt_succ_self 1)
    obtain ⟨previous', next⟩ := statementGroups_tokensAt (first.cuts [] rfl) head (.inr indented) collected
      (blockTokens (p.advanceBy (lineChars ps)) pss).flatten
    rw [blockTokens, List.flatten_cons, next, ih others]
    simp

/-! ### Reading the lines -/

/-- The outcome of a line gives it back. -/
def Gives (item : LineItem) (r : LineResult) : Prop :=
  r.fault = none ∧ ∃ item', r.item = some item' ∧ item'.unplaced = item.unplaced

/-- The lines of a block are read one by one. -/
lemma gives_entityLines {lines : List LineItem} {pss : List (List Piece)}
    (h : List.Forall₂ Restores lines pss) {src : List Char} {p : Position}
    (stands : Stands src p (pss.flatMap lineChars)) (atEnd : Bool) (previous : Token) :
    List.Forall₂ Gives lines (entityLines (Text.slice src) atEnd previous (blockTokens p pss)) := by
  induction h generalizing p previous with
  | nil => exact .nil
  | @cons line ps lines pss first _ ih =>
    have whole : Stands src p ([' ', ' '] ++ (chars ps ++ (['\n'] ++ pss.flatMap lineChars))) := by
      simpa [lineChars] using stands
    have below : Stands src (p.advanceBy (lineChars ps)) (pss.flatMap lineChars) := by
      rw [List.flatMap_cons] at stands
      exact stands.right
    obtain ⟨item, last, eq, same⟩ := first.2 src _ whole.right.left previous _
    refine .cons ?_ (ih below _)
    rw [eq]
    exact ⟨rfl, item, rfl, same⟩

/-- The items that lines give back, without faults. -/
lemma exists_items {lines : List LineItem} {rs : List LineResult} (h : List.Forall₂ Gives lines rs) :
    ∃ items : List LineItem, rs.map (·.item) = items.map some ∧
      items.map (·.unplaced) = lines.map (·.unplaced) ∧ rs.filterMap (·.fault) = [] := by
  induction h with
  | nil => exact ⟨[], rfl, rfl, rfl⟩
  | @cons line r lines rs first _ ih =>
    obtain ⟨noFault, item, given, same⟩ := first
    obtain ⟨items, eq, unplaced, faults⟩ := ih
    refine ⟨item :: items, ?_, ?_, ?_⟩
    · rw [List.map_cons, List.map_cons, given, eq]
    · rw [List.map_cons, List.map_cons, same, unplaced]
    · rw [List.filterMap_cons_none noFault, faults]

lemma parts_eq (r : LineResult) : r.field? = r.item.bind (·.field?) ∧ r.key? = r.item.bind (·.key?) ∧
    r.directive? = r.item.bind (·.directive?) := by
  obtain ⟨_ | (f | k | d), fault, last⟩ := r <;> exact ⟨rfl, rfl, rfl⟩

/-- The parts of an entity are those of the items that its lines gave. -/
lemma filterMap_of_items {α : Type} {rs : List LineResult} {items : List LineItem}
    (h : rs.map (·.item) = items.map some) {part : LineItem → Option α} {part' : LineResult → Option α}
    (same : ∀ r, part' r = r.item.bind part) : rs.filterMap part' = items.filterMap part := by
  have parts : rs.filterMap part' = (rs.map (·.item)).filterMap (·.bind part) := by
    rw [List.filterMap_map]
    exact List.filterMap_congr fun r _ => same r
  rw [parts, h, List.filterMap_map]
  rfl

namespace Entity

/-- An entity without places is determined by its name and its lines without places. -/
lemma unplaced_of_listedBy {e : Entity} {lines : List LineItem} (h : e.ListedBy lines) :
    e.unplaced = ⟨e.name, .zero, (lines.map (·.unplaced)).filterMap (·.field?),
      (lines.map (·.unplaced)).filterMap (·.key?), (lines.map (·.unplaced)).filterMap (·.directive?),
      .zero⟩ := by
  rw [unplaced, ← h.fields, ← h.keys, ← h.directives]
  simp only [List.map_filterMap, List.filterMap_map, Entity.mk.injEq, true_and, and_true]
  refine ⟨?_, ?_, ?_⟩
  · exact List.filterMap_congr fun item _ => by cases item <;> rfl
  · exact List.filterMap_congr fun item _ => by cases item <;> rfl
  · exact List.filterMap_congr fun item _ => by cases item <;> rfl

/-- The lines of an entity that can be written can be written. -/
lemma ListedBy.wellFormed {e : Entity} {lines : List LineItem} (h : e.ListedBy lines) (well : e.WellFormed) :
    ∀ item ∈ lines, item.WellFormed := by
  intro item hi
  cases item with
  | field f => exact well.fields f (h.fields ▸ List.mem_filterMap.2 ⟨_, hi, rfl⟩)
  | key k => exact well.keys k (h.keys ▸ List.mem_filterMap.2 ⟨_, hi, rfl⟩)
  | directive d => exact well.directives d (h.directives ▸ List.mem_filterMap.2 ⟨_, hi, rfl⟩)

/-- What the lines of a block are cut into. -/
lemma exists_lines {lines : List LineItem} (h : ∀ item ∈ lines, item.WellFormed) :
    ∃ pss : List (List Piece), (printLines lines).toList = pss.flatMap lineChars ∧
      (∀ ps ∈ pss, IsLine ps) ∧ List.Forall₂ Restores lines pss := by
  induction lines with
  | nil => exact ⟨[], rfl, nofun, .nil⟩
  | cons line lines ih =>
    obtain ⟨first, others⟩ := List.forall_mem_cons.1 h
    obtain ⟨ps, spelled, restores⟩ := exists_line first
    obtain ⟨pss, text, cut, reads⟩ := ih others
    refine ⟨ps :: pss, ?_, List.forall_mem_cons.2 ⟨⟨spelled.cuts, restores.1⟩, cut⟩, .cons restores reads⟩
    simp [printLines, lineChars, spelled.text, text]

/-- The scanner cuts a printed block into its marker and the tokens of its lines, which start below. -/
lemma exists_tokens {name : String} (h : isName name = true) {pss : List (List Piece)}
    (lines : ∀ ps ∈ pss, IsLine ps) : ∃ head final : Token, head.kind = .entity ∧ head.spelling = name ∧
      head.endLine < (Position.start.advanceBy (':' :: name.toList ++ ['\n'])).line ∧ final.kind = .eof ∧
      Scan.ofChars (':' :: name.toList ++ ['\n'] ++ pss.flatMap lineChars) =
        ⟨head :: (blockTokens (Position.start.advanceBy (':' :: name.toList ++ ['\n'])) pss).flatten ++
          [final], []⟩ := by
  have place : (Position.start.advanceBy (':' :: name.toList)).advance '\n' =
      Position.start.advanceBy (':' :: name.toList ++ ['\n']) := by
    rw [Position.advanceBy_append]
    rfl
  obtain ⟨final, kind, eq⟩ := scanFrom_block lines (Position.start.advanceBy (':' :: name.toList ++ ['\n']))
  refine ⟨tokenAt .start .entity name (':' :: name.toList), final, rfl, rfl, ?_, kind, ?_⟩
  · rw [← place]
    exact Nat.lt_succ_self _
  · have marker : step false ':' (name.toList ++ '\n' :: pss.flatMap lineChars) =
        .token .entity name name.toList.length := step_entity h rfl false
    have text : ':' :: name.toList ++ ['\n'] ++ pss.flatMap lineChars =
        ':' :: (name.toList ++ '\n' :: pss.flatMap lineChars) := by
      simp
    have behind : opensExpr .entity name = false := rfl
    rw [Scan.ofChars, text, scanFrom_token marker, behind, scanFrom_space (by decide), place, eq]
    rfl

/-- The entity that a marker and the outcomes of its lines make up. -/
def ofLines (head : Token) (rs : List LineResult) : Entity where
  name := head.spelling
  nameSpan := head.span
  fields := rs.filterMap (·.field?)
  keys := rs.filterMap (·.key?)
  directives := rs.filterMap (·.directive?)
  span := rs.foldl (fun s r => s.extend r.last) head.span

/-- Where nothing stands behind its marker, an entity is read line by line. -/
lemma entity_of_below {src : Source} {head : Token} {tokens : List Token} {atEnd : Bool}
    (below : ∀ t ∈ tokens.head?, head.endLine < t.line) : entity src head tokens atEnd =
      (ofLines head (entityLines src atEnd head (lineGroups tokens)),
        (entityLines src atEnd head (lineGroups tokens)).filterMap (·.fault)) := by
  cases tokens with
  | nil => rfl
  | cons t ts =>
    have apart : decide (t.line ≤ head.endLine) = false := decide_eq_false (Nat.not_le.2 (below t rfl))
    unfold entity
    dsimp only
    rw [apart]
    rfl

/-- A block whose lines are read back is read back. -/
lemma exists_entity {name : String} {lines : List LineItem} {pss : List (List Piece)} {src : List Char}
    {p : Position} (cut : ∀ ps ∈ pss, IsLine ps) (restores : List.Forall₂ Restores lines pss)
    (stands : Stands src p (pss.flatMap lineChars)) {head : Token} (spelling : head.spelling = name)
    (below : head.endLine < p.line) : ∃ e items,
      entity (Text.slice src) head (blockTokens p pss).flatten true = (e, []) ∧
      e.name = name ∧ e.ListedBy items ∧ items.map (·.unplaced) = lines.map (·.unplaced) := by
  obtain ⟨items, given, same, faults⟩ := exists_items (gives_entityLines restores stands true head)
  refine ⟨ofLines head (entityLines (Text.slice src) true head (blockTokens p pss)), items, ?_, spelling,
    ⟨?_, ?_, ?_⟩, same⟩
  · rw [entity_of_below fun t ht => ?_, lineGroups_flatten cut below, faults]
    obtain ⟨ts, e⟩ := List.head?_eq_some_iff.1 ht
    rw [line_of_blockTokens cut e]
    exact below
  · exact (filterMap_of_items given fun r => (parts_eq r).1).symm
  · exact (filterMap_of_items given fun r => (parts_eq r).2.1).symm
  · exact (filterMap_of_items given fun r => (parts_eq r).2.2).symm

lemma readStatements_entity {src : Source} {head : Token} {tokens : List Token} {e : Entity}
    (kind : head.kind = .entity) (read : entity src head tokens true = (e, []))
    (plugins : Plugin.Registry) :
    readStatements src plugins false [(head, tokens)] = ([.entity e], []) := by
  have one : readStatement src plugins false head tokens true = ⟨some (.entity e), []⟩ := by
    rw [readStatement, kind]
    dsimp only
    rw [read]
  rw [readStatements, List.isEmpty_nil, one]
  rfl

/-- An entity that can be written is read back from its block, with its lines in any order. -/
theorem read_print {e : Entity} (h : e.WellFormed) {lines : List LineItem} (listed : e.ListedBy lines)
    (path : String) (plugins : Plugin.Registry) :
    ∃ e', Compilation.read path (Text.bytes (e.print lines)) plugins = (⟨path, [.entity e']⟩, [], []) ∧
      e'.unplaced = e.unplaced := by
  obtain ⟨pss, text, cut, restores⟩ := exists_lines (listed.wellFormed h)
  obtain ⟨head, final, kind, spelling, below, last, scan⟩ := exists_tokens h.name cut
  have block : (e.print lines).toList = ':' :: e.name.toList ++ ['\n'] ++ pss.flatMap lineChars := by
    simp [print, text]
  have stands : Stands (e.print lines).toList (Position.start.advanceBy (':' :: e.name.toList ++ ['\n']))
      (pss.flatMap lineChars) := ⟨_, [], by rw [block, List.append_nil], rfl⟩
  obtain ⟨e', items, read, name, gathered, same⟩ := exists_entity cut restores stands spelling below
  -- the end of the document is the only token that is left out
  have kept : (head :: (blockTokens (Position.start.advanceBy (':' :: e.name.toList ++ ['\n'])) pss).flatten ++
      [final]).takeWhile (fun t => t.kind != .eof) =
        head :: (blockTokens (Position.start.advanceBy (':' :: e.name.toList ++ ['\n'])) pss).flatten := by
    rw [List.takeWhile_append_of_pos, List.takeWhile_cons_of_neg (by simp [last]), List.append_nil]
    intro t ht
    rcases List.mem_cons.1 ht with rfl | ht
    · simp [kind]
    · simpa using kind_of_mem_blockTokens cut ht
  refine ⟨e', ?_, ?_⟩
  · rw [Compilation.read_bytes]
    dsimp only
    rw [block, scan, ← block, ofTokens, kept, statementGroups, statementGroups_block cut, List.reverse_nil,
      List.nil_append, readStatements_entity kind read]
  · rw [unplaced_of_listedBy gathered, unplaced_of_listedBy listed, name, same]

/-- A field of a keyword type with arguments, a default call and an expression over two lines. -/
def total : Field :=
  ⟨true, ⟨"INDEX", [⟨.number, "-2", .zero⟩, ⟨.string, "'it''s'", .zero⟩], .zero⟩, .set, "total",
    [⟨.default ⟨.call, "next(1, [])", .zero⟩, .zero⟩, ⟨.check "total > 0\n  AND f(')')", .zero⟩,
      ⟨.foreignKey (some "Bill"), .zero⟩], .zero⟩

/-- A policy without role and without the last clause. -/
def own : Policy := ⟨"own", "SELECT", "", "owner = 'me'", ""⟩

/-- The lines of an entity: a feature, a field, two keys and another feature. -/
def orderLines : List LineItem :=
  [.directive ⟨.policy own, .zero⟩, .field total, .key ⟨.primary ["a", "b"], .zero⟩,
    .key ⟨.check "a[1] <> b", .zero⟩, .directive ⟨.partition "RANGE" ["at"], .zero⟩]

/-- The entity of these lines. -/
def order : Entity :=
  ⟨"Order", .zero, orderLines.filterMap (·.field?), orderLines.filterMap (·.key?),
    orderLines.filterMap (·.directive?), .zero⟩

/-- The entity is read back from a block of its lines. -/
theorem read_print_of_order : ∃ e', Compilation.read "order.erd" (Text.bytes (order.print orderLines))
      Plugin.Registry.empty = (⟨"order.erd", [.entity e']⟩, [], []) ∧
    e'.unplaced = order.unplaced := by
  have names : ∀ s ∈ ["own", "Bill", "a", "b", "at", "next"], isIdentifier s = true := by decide
  have upper : ∀ s ∈ ["SELECT", "RANGE"], isUpperWord s = true := by decide
  have bodies : ∀ s ∈ ["total > 0\n  AND f(')')", "owner = 'me'", "a[1] <> b", ""], isBody s = true := by
    decide
  have negative : LiteralText (some .number) ("-" ++ "2") := .negative (by decide)
  have string : LiteralText (some .string) "'it''s'" := .string (by decide +kernel)
  have call : LiteralText (some .call) ("next" ++ "" ++ "(" ++ ("" ++ "1" ++ "" ++ "," ++ (" " ++ "[]" ++ "")) ++
      ")") := by
    refine .call (names _ (by simp)) (by simp [IsGap]) (.more ?_ ?_)
    · exact .argument (by simp [IsGap]) (.number (by decide)) (by simp [IsGap])
    · exact .argument (by simp [IsGap]; decide) (.list (by decide)) (by simp [IsGap])
  have field : total.WellFormed := by
    refine ⟨⟨by decide, ?_, ?_⟩, by decide, ?_⟩
    · simp only [total, List.forall_mem_cons]
      exact ⟨⟨negative, nofun⟩, ⟨string, nofun⟩, List.forall_mem_nil _⟩
    · exact fun check => absurd check (by decide)
    · simp only [total, List.forall_mem_cons]
      exact ⟨⟨call, nofun⟩, bodies _ (by simp), names _ (by simp), List.forall_mem_nil _⟩
  have policy : own.WellFormed :=
    ⟨names _ (by simp [own]), .inr (upper _ (by simp [own])), .inl rfl, bodies _ (by simp [own]),
      bodies _ (by simp [own])⟩
  have well : order.WellFormed := by
    refine ⟨by decide, List.forall_mem_singleton.2 field, ?_, ?_⟩
    · refine List.forall_mem_cons.2 ⟨?_, List.forall_mem_singleton.2 (bodies _ (by simp))⟩
      exact List.forall_mem_cons.2 ⟨names _ (by simp), List.forall_mem_singleton.2 (names _ (by simp))⟩
    · refine List.forall_mem_cons.2 ⟨policy, List.forall_mem_singleton.2 ⟨upper _ (by simp), ?_⟩⟩
      exact List.forall_mem_singleton.2 (names _ (by simp))
  exact read_print well ⟨rfl, rfl, rfl⟩ _ _

end Entity

end Document

end ErdSql
