import ErdSql.Proofs.Faultless
import ErdSql.Proofs.Uncommenting

/-!
# Comments say nothing

A document without its comments has the same statements, at the same places, but for the texts that are
copied from the source: these lose the comments that stand inside them. No comment stands inside a line of
an entity, and an extension with a comment inside its name is refused with it and without it.

* `Document.Untouched`: a statement that copies no comment.
* `Document.statements_uncommented`: the statements of a document without its comments.
* `Document.statementOf_uncommented`: a statement that copies no comment is the same.
* `Compilation.read_uncommented`: so is the script, if no statement copies a comment.
-/

namespace ErdSql

open Scan Scan.Glyph

/-- What corresponds to a member of a list. -/
lemma exists_mem_of_forall₂ {α β : Type} {R : α → β → Prop} {as : List α} {bs : List β}
    (h : List.Forall₂ R as bs) {a : α} (ha : a ∈ as) : ∃ b ∈ bs, R a b := by
  induction h with
  | nil => cases ha
  | cons first _ ih =>
    rcases List.mem_cons.1 ha with rfl | later
    · exact ⟨_, List.mem_cons_self, first⟩
    · obtain ⟨b, hb, pair⟩ := ih later
      exact ⟨b, List.mem_cons_of_mem _ hb, pair⟩

namespace Scan

variable {cs : List Char}

/-! ### Comments and tokens -/

/-- A token starts and ends at a place that the text without comments has too. -/
lemma exists_uncommented {t : Token} (ht : t ∈ (ofChars cs).body) : ∃ t', Uncommented (glyphs cs) t t' := by
  obtain ⟨t', -, pair⟩ := exists_mem_of_forall₂ (pairs_body cs) ht
  exact ⟨t', pair⟩

/-- Where a character between two places stands. -/
lemma exists_split_of_mem {n n' m m' : Nat} {g : Glyph} (h : Place (glyphs cs) n n')
    (h' : Place (glyphs cs) m m') (hg : g ∈ glyphsBetween cs n m) :
    ∃ front back, glyphs cs = front ++ g :: back ∧ n ≤ Text.byteSize (text front) ∧
      Text.byteSize (text front) < m := by
  obtain ⟨front, gap, back, split, rfl, rfl, -, -⟩ | ⟨le, -⟩ := h.exists_gap h'
  · rw [glyphsBetween_eq split] at hg
    obtain ⟨before, after, rfl⟩ := List.append_of_mem hg
    have pos := g.char.utf8Size_pos
    refine ⟨front ++ before, after ++ back, by rw [split]; simp, ?_, ?_⟩
    · rw [text_append, byteSize_append]
      exact Nat.le_add_right _ _
    · have here : text (g :: after) = g.char :: text after := rfl
      rw [← List.append_assoc, text_append (front ++ before), byteSize_append, here, Document.byteSize_cons]
      omega
  · rw [glyphsBetween, slice_of_le _ le, List.length_nil, List.take_zero] at hg
    cases hg

/-- A comment between two tokens parts the tokens of a text into those above it and those below. -/
lemma exists_apart {t u : Token} (ht : t ∈ (ofChars cs).body) (hu : u ∈ (ofChars cs).body) {g : Glyph}
    (hg : g ∈ glyphsBetween cs t.offset u.stop) (comment : g.inComment = true) :
    ∃ line, t.endLine ≤ line ∧ line < u.line ∧
      ∀ w ∈ (ofChars cs).body, w.endLine ≤ line ∨ line < w.line := by
  obtain ⟨t', first⟩ := exists_uncommented ht
  obtain ⟨u', last⟩ := exists_uncommented hu
  obtain ⟨front, back, split, behind, inside⟩ := exists_split_of_mem first.start last.stop hg
  have apart := apart_of_inComment (p := .start) (by decide) (by decide) split comment
  have offset : (Position.start.advanceBy (text front)).offset = Text.byteSize (text front) := by
    rw [Document.offset_advanceBy]
    exact Nat.zero_add _
  rw [offset] at apart
  refine ⟨(Position.start.advanceBy (text front)).line, ?_, ?_, fun w hw => ?_⟩
  · obtain ⟨-, above⟩ | ⟨below, -⟩ := apart t ht
    · exact above
    · omega
  · obtain ⟨above, -⟩ | ⟨-, below⟩ := apart u hu
    · omega
    · exact below
  · exact (apart w hw).imp And.right And.right

end Scan

namespace Document

open ErdSql.Document.Parser

variable {cs : List Char}

/-! ### Lines of an entity -/

/-- Tokens of one line that starts above a place all end above it, if each stands above it or below. -/
lemma endLine_le_of_isChain {line : Nat} {t : Token} {ts : List Token}
    (chain : List.IsChain (fun v w => sameLine v w = true) (t :: ts))
    (apart : ∀ w ∈ ts, w.endLine ≤ line ∨ line < w.line) (above : t.endLine ≤ line) :
    ∀ w ∈ t :: ts, w.endLine ≤ line := by
  induction ts generalizing t with
  | nil => exact List.forall_mem_singleton.2 above
  | cons u us ih =>
    obtain ⟨together, behind⟩ := List.isChain_cons_cons.1 chain
    obtain ⟨first, others⟩ := List.forall_mem_cons.1 apart
    rw [sameLine, decide_eq_true_eq] at together
    have next : u.endLine ≤ line := first.resolve_right (by omega)
    exact List.forall_mem_cons.2 ⟨above, ih behind others next⟩

/-- No comment stands between two tokens of a line. -/
lemma clean_of_mem_lineGroups {ts line : List Token} (sub : ts.Sublist (Scan.ofChars cs).body)
    (hline : line ∈ lineGroups ts) {t u : Token} {us : List Token} (inner : (t :: us).Sublist line)
    (hu : u ∈ t :: us) : ∀ g ∈ glyphsBetween cs t.offset u.stop, g.inComment = false := by
  have standing := (standing_ofChars cs).sublist (List.dropLast_sublist _)
  have inside : line.Sublist (Scan.ofChars cs).body := (sublist_of_mem_lineGroups hline).trans sub
  have mem {w : Token} (hw : w ∈ line) : w ∈ (Scan.ofChars cs).body := inside.subset hw
  rw [lineGroups_eq_splitBy (standing.sublist sub)] at hline
  have chain := List.isChain_of_mem_splitBy hline
  intro g hg
  by_contra comment
  rw [Bool.not_eq_false] at comment
  have hu' := mem (inner.subset hu)
  obtain ⟨low, above, below, apart⟩ := exists_apart (mem (inner.subset List.mem_cons_self)) hu' hg comment
  -- the tokens from the first one on are all above the comment
  obtain ⟨front, back, rfl, here, later⟩ := List.cons_sublist_iff.1 inner
  obtain ⟨before, after, rfl⟩ := List.append_of_mem here
  rw [List.append_assoc, List.cons_append] at chain mem
  have inText : ∀ w ∈ after ++ back, w ∈ (Scan.ofChars cs).body := fun w hw =>
    mem (List.mem_append_right _ (List.mem_cons_of_mem _ hw))
  have all := endLine_le_of_isChain chain.right_of_append (fun w hw => apart w (inText w hw)) above
  have inLine : u ∈ t :: (after ++ back) := by
    rcases List.mem_cons.1 hu with rfl | hu
    · exact List.mem_cons_self
    · exact List.mem_cons_of_mem _ (List.mem_append_right _ (later.subset hu))
  have bottom := all u inLine
  have stands := (standing.line u hu').2
  omega

/-- The text of a line has no comment to lose. -/
lemma alike_of_mem_lineGroups {ts line : List Token} (sub : ts.Sublist (Scan.ofChars cs).body)
    (hline : line ∈ lineGroups ts) : Source.Alike (Source.uncommented cs) (Text.slice cs) line := by
  intro t us inner u hu
  have inside : line.Sublist (Scan.ofChars cs).body := (sublist_of_mem_lineGroups hline).trans sub
  obtain ⟨t', first⟩ := exists_uncommented (inside.subset (inner.subset List.mem_cons_self))
  obtain ⟨u', last⟩ := exists_uncommented (inside.subset (inner.subset hu))
  exact uncommented_eq_slice first.start last.stop (clean_of_mem_lineGroups sub hline inner hu)

/-! ### Copied texts -/

/-- No comment stands between the first token of a run and the last one. -/
def CommentFree (cs : List Char) (run : List Token) : Prop :=
  ∀ first ∈ run.head?, ∀ last ∈ run.getLast?,
    ∀ g ∈ glyphsBetween cs first.offset last.stop, g.inComment = false

instance (run : List Token) : Decidable (CommentFree cs run) :=
  inferInstanceAs (Decidable (∀ first ∈ run.head?, ∀ last ∈ run.getLast?,
    ∀ g ∈ glyphsBetween cs first.offset last.stop, g.inComment = false))

/-- A statement that copies no comment. The name of an extension is one word, so none matters there. -/
def Untouched (cs : List Char) (g : Token × List Token) : Prop :=
  g.1.kind = .keyword .extension ∨ ∀ run ∈ copiedRuns g.1 g.2, CommentFree cs run

instance (g : Token × List Token) : Decidable (Untouched cs g) :=
  inferInstanceAs (Decidable (_ ∨ _))

lemma verbatim_of_commentFree {run : List Token} (sub : run.Sublist (Scan.ofChars cs).body)
    (free : CommentFree cs run) : verbatim (Source.uncommented cs) run = verbatim (Text.slice cs) run := by
  cases run with
  | nil => rfl
  | cons first others =>
    have isLast : (first :: others).getLast? = some (others.getLast?.getD first) := List.getLast?_cons
    obtain ⟨_, start⟩ := exists_uncommented (sub.subset List.mem_cons_self)
    obtain ⟨_, stop⟩ := exists_uncommented (sub.subset (List.mem_of_getLast? isLast))
    rw [verbatim_cons, verbatim_cons,
      uncommented_eq_slice start.start stop.stop (free first rfl _ isLast)]

/-! ### Extensions -/

/-- A name that is copied from several lines has the end of a line in it. -/
lemma feed_mem_verbatim {ts : List Token} (sub : ts.Sublist (Scan.ofChars cs).body) {t u : Token}
    (ht : t ∈ ts) (hu : u ∈ ts) (lower : t.line < u.line) :
    '\n' ∈ (verbatim (Text.slice cs) ts).toList := by
  have copied := copied_verbatim sub
  generalize verbatim (Text.slice cs) ts = name at copied ⊢
  cases copied with
  | nil => cases ht
  | @cons before text _ _ _ _ inside =>
    obtain ⟨front, range, back, rfl, place⟩ := inside t ht
    obtain ⟨front', range', back', same, place'⟩ := inside u hu
    have lines : 0 < front'.count '\n' := by
      have here := place.line
      have there := place'.line
      rw [List.count_append] at here there
      omega
    rw [String.toList_ofList, same, List.append_assoc]
    exact List.mem_append_left _ (List.count_pos_iff.1 lines)

/-- Such an extension is refused. -/
lemma not_returns_extension {s : Source} {head t u : Token} {ts : List Token} {atEnd : Bool} {e : Extension}
    {after : Cursor} (ht : t ∈ ts) (hu : u ∈ ts) (ne : t ≠ u) (feed : '\n' ∈ (verbatim s ts).toList) :
    ¬ Returns (extensionStatement s head) ⟨head, ts, atEnd⟩ e after := by
  intro h
  obtain ⟨left, d, seen, h⟩ := exists_of_bind h
  cases seen
  obtain ⟨-, h⟩ | ⟨-, h⟩ := of_ite h
  · cases h
  obtain ⟨-, h⟩ | ⟨word, -⟩ := of_ite h
  · cases h
  rw [List.any_eq_false] at word
  rcases ts with _ | ⟨first, _ | ⟨second, others⟩⟩
  · cases ht
  · exact ne ((List.mem_singleton.1 ht).trans (List.mem_singleton.1 hu).symm)
  · exact word '\n' feed (by decide)

/-! ### Statements -/

/-- The statement that a group of tokens makes on its own. -/
def statementOf (s : Source) (plugins : Plugin.Registry) (g : Token × List Token) : Option Statement :=
  (readStatement s plugins false g.1 g.2 true).statement

/-- The statements of a text are what its groups of tokens make, each on its own. -/
lemma statements_eq_filterMap {s : Source} {plugins : Plugin.Registry} {groups : List (Token × List Token)}
    (columns : ∀ g ∈ groups, g.1.column ≠ 0 ∧ ∀ t ∈ g.2, t.column ≠ 0) (recovering : Bool) :
    (readStatements s plugins recovering groups).1 = groups.filterMap (statementOf s plugins) := by
  have source : s.Paired (.shift 0 0) s := Source.Moved.paired (fun _ _ => rfl) 0
  induction groups generalizing recovering with
  | nil => rfl
  | cons g rest ih =>
    obtain ⟨⟨column, inside⟩, others⟩ := List.forall_mem_cons.1 columns
    have steady : ∀ keyword handler, plugins.lookup keyword = some handler → Steady 0 handler :=
      fun _ handler _ => steady_zero handler
    have same : (readStatement s plugins recovering g.1 g.2 rest.isEmpty).statement =
        statementOf s plugins g := by
      have marker : (Token.Pairing.shift 0 0).Pairs g.1 g.1 := rfl
      have moved := statement_moved source steady marker (List.forall₂_same.2 fun _ _ => rfl) column inside
        false recovering true rest.isEmpty
      simpa [statementOf] using moved
    rw [readStatements, List.filterMap_cons]
    dsimp only
    rw [ih others, same]
    cases statementOf s plugins g <;> rfl

/-- The statements of a document without its comments are those of the document, without the comments in
the texts that they copy. -/
lemma statements_uncommented (cs : List Char) (plugins : Plugin.Registry) :
    (readStatements (Text.slice (Scan.uncommented cs)) plugins false
        (statementGroups (Scan.ofChars (Scan.uncommented cs)).body)).1 =
      (statementGroups (Scan.ofChars cs).body).filterMap (statementOf (Source.uncommented cs) plugins) := by
  have groups := statementGroups_moved (pairs_body cs)
  have steady : ∀ keyword handler, plugins.lookup keyword = some handler → Steady 0 handler :=
    fun _ handler _ => steady_zero handler
  have moved := statements_moved (paired_slice cs) steady groups (columns_statementGroups cs) false false []
  rw [← statements_eq_filterMap (columns_statementGroups cs) false]
  simpa [readStatements] using moved

section Groups
variable {plugins : Plugin.Registry} {g : Token × List Token}

/-- With a comment inside its name an extension is refused, in the text and in the text without comments. -/
lemma statementOf_extension (hg : g ∈ statementGroups (Scan.ofChars cs).body)
    (kind : g.1.kind = .keyword .extension) (commented : ¬CommentFree cs g.2) :
    statementOf (Source.uncommented cs) plugins g = none ∧ statementOf (Text.slice cs) plugins g = none := by
  have sub := (List.sublist_cons_self _ _).trans (sublist_of_mem_statementGroups hg)
  obtain ⟨g', hg', -, same⟩ := exists_mem_of_forall₂ (statementGroups_moved (pairs_body cs)) hg
  have sub' := (List.sublist_cons_self _ _).trans (sublist_of_mem_statementGroups hg')
  simp only [CommentFree, not_forall] at commented
  obtain ⟨t, ht, u, hu, c, hc, comment⟩ := commented
  have first : t ∈ g.2 := List.mem_of_mem_head? ht
  have last : u ∈ g.2 := List.mem_of_getLast? hu
  rw [Bool.not_eq_false] at comment
  obtain ⟨line, above, below, -⟩ := exists_apart (sub.subset first) (sub.subset last) hc comment
  have standing := (standing_ofChars cs).sublist (List.dropLast_sublist _)
  have lower : t.line < u.line := (standing.line t (sub.subset first)).2.trans_lt (above.trans_lt below)
  have ne : t ≠ u := by
    rintro rfl
    exact lt_irrefl _ lower
  -- the same tokens of the text without comments stand on the same lines
  obtain ⟨t', first', pair⟩ := exists_mem_of_forall₂ same first
  obtain ⟨u', last', pair'⟩ := exists_mem_of_forall₂ same last
  have lower' : t'.line < u'.line := by
    rw [pair.like.line, pair'.like.line]
    exact Nat.add_lt_add_right lower 0
  have feed' := feed_mem_verbatim sub' first' last' lower'
  rw [verbatim_moved (paired_slice cs) same] at feed'
  have refused (s : Source) (feed : '\n' ∈ (verbatim s g.2).toList) : statementOf s plugins g = none := by
    rw [statementOf, readStatement, kind]
    dsimp only
    by_contra some
    obtain ⟨st, found⟩ := Option.ne_none_iff_exists'.1 some
    obtain ⟨e, after, read, -⟩ := StatementResult.of_ofParsed found
    exact not_returns_extension first last ne feed read
  exact ⟨refused _ feed', refused _ (feed_mem_verbatim sub first last lower)⟩

/-- A statement that copies no comment is the same. -/
lemma statementOf_uncommented (hg : g ∈ statementGroups (Scan.ofChars cs).body) (untouched : Untouched cs g) :
    statementOf (Source.uncommented cs) plugins g = statementOf (Text.slice cs) plugins g := by
  have sub := (List.sublist_cons_self _ _).trans (sublist_of_mem_statementGroups hg)
  by_cases free : ∀ run ∈ copiedRuns g.1 g.2, CommentFree cs run
  · have alike : Source.AlikeFor (Source.uncommented cs) (Text.slice cs) g.1 g.2 := {
      lines := fun _ line hline => alike_of_mem_lineGroups sub hline
      runs := fun run hrun =>
        verbatim_of_commentFree ((sublist_of_mem_copiedRuns hrun).trans sub) (free run hrun) }
    rw [statementOf, statementOf, readStatement_congr alike]
  · have kind := untouched.resolve_right free
    have commented : ¬CommentFree cs g.2 := by
      intro clean
      refine free fun run hrun => ?_
      rw [copiedRuns, kind, List.mem_singleton] at hrun
      rwa [hrun]
    obtain ⟨here, there⟩ := @statementOf_extension cs plugins g hg kind commented
    rw [here, there]

end Groups

end Document

namespace Compilation

open Document

/-- A document is its path and its statements. -/
lemma read_fst (path s : String) (plugins : Plugin.Registry) :
    (read path (Text.bytes s) plugins).1 = ⟨path, (read path (Text.bytes s) plugins).1.statements⟩ := by
  rw [read_bytes]
  rfl

/-- The script depends on the statements of a document only. -/
lemma run_output_congr {path : String} {src src' : List UInt8} {o : CompileOptions}
    (same : (read path src' o.plugins).1 = (read path src o.plugins).1) :
    (run path src' o).output = (run path src o).output := by
  have schema : (analyse path src' o).1 = (analyse path src o).1 :=
    congrArg (fun document => (Schema.ofDocument document).1) same
  rw [run_eq, run_eq, schema]
  split <;> rfl

/-- **Comments say nothing, unless they are copied.** The statements of a document without the comments
that the scanner skips are those of the document, at the same places, read with the text without comments:
so a statement is the same if no comment stands inside a text that it copies, and if this is so for all of
them, the script is the same. -/
theorem read_uncommented (path s : String) (o : CompileOptions) :
    let cs := s.toList
    let groups := statementGroups (Scan.ofBytes (Text.bytes s)).body
    let bare := String.ofList (Scan.uncommented cs)
    (read path (Text.bytes s) o.plugins).1.statements =
        groups.filterMap (statementOf (Text.slice cs) o.plugins) ∧
      (read path (Text.bytes bare) o.plugins).1.statements =
        groups.filterMap (statementOf (Source.uncommented cs) o.plugins) ∧
      (∀ g ∈ groups, Untouched cs g →
        statementOf (Source.uncommented cs) o.plugins g = statementOf (Text.slice cs) o.plugins g) ∧
      ((∀ g ∈ groups, Untouched cs g) →
        (run path (Text.bytes bare) o).output = (run path (Text.bytes s) o).output) := by
  intro cs groups bare
  have scanned : groups = statementGroups (Scan.ofChars cs).body := by rw [← Scan.ofBytes_bytes]
  have whole : (read path (Text.bytes s) o.plugins).1.statements =
      groups.filterMap (statementOf (Text.slice cs) o.plugins) := by
    rw [statements_read, scanned]
    exact statements_eq_filterMap (columns_statementGroups cs) false
  have without : (read path (Text.bytes bare) o.plugins).1.statements =
      groups.filterMap (statementOf (Source.uncommented cs) o.plugins) := by
    rw [statements_read, String.toList_ofList, scanned]
    exact statements_uncommented cs o.plugins
  have each : ∀ g ∈ groups, Untouched cs g →
      statementOf (Source.uncommented cs) o.plugins g = statementOf (Text.slice cs) o.plugins g := by
    intro g hg untouched
    rw [scanned] at hg
    exact statementOf_uncommented hg untouched
  refine ⟨whole, without, each, fun untouched => run_output_congr ?_⟩
  have statements : (read path (Text.bytes bare) o.plugins).1.statements =
      (read path (Text.bytes s) o.plugins).1.statements := by
    rw [whole, without]
    exact List.filterMap_congr fun g hg => each g hg (untouched g hg)
  rw [read_fst path bare, read_fst path s, statements]

/-- A document with comments at the ends of its lines and on lines of their own, also inside statements. -/
def remarks : String :=
  ":Person ;; one each\n  INT $.id PK # key\n  CHECK (id # 1)\nINDEX people ON Person ( # by\n  id\n) # all" ++
    "\nMATERIALIZED VIEW # seen\n  v AS SELECT 1 # end"

theorem run_remarks :
    (run "remarks.erd" (Text.bytes (String.ofList (Scan.uncommented remarks.toList))) {}).output =
      (run "remarks.erd" (Text.bytes remarks) {}).output := by
  refine (read_uncommented "remarks.erd" remarks {}).2.2.2 ?_
  rw [Scan.ofBytes_bytes]
  decide +kernel

/-- A view whose body has a comment inside. -/
def remarkable : String :=
  "MATERIALIZED VIEW v AS SELECT 1 # one\n  , 2\n"

/-- The body of a view keeps its comment, and so does the script. -/
theorem run_remarkable :
    let bare := String.ofList (Scan.uncommented remarkable.toList)
    (read "" (Text.bytes remarkable) Plugin.Registry.empty).1.statements =
        [.view ⟨"v", "SELECT 1 # one\n  , 2", ⟨1, 1, 2, 6⟩⟩] ∧
      (read "" (Text.bytes bare) Plugin.Registry.empty).1.statements =
        [.view ⟨"v", "SELECT 1 \n  , 2", ⟨1, 1, 2, 6⟩⟩] ∧
      (run "" (Text.bytes bare) {}).sql ≠ (run "" (Text.bytes remarkable) {}).sql := by
  intro bare
  refine ⟨?_, ?_, ?_⟩
  · rw [statements_read]
    decide +kernel
  · rw [statements_read]
    decide +kernel
  · simp only [run, analyse, read_bytes]
    decide +kernel

end Compilation

end ErdSql
