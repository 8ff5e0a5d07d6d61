import ErdSql.Proofs.Locality
import ErdSql.Proofs.Lookahead

/-!
# Texts without their comments

The comments of a text are what the scanner skips as such. A text that has lost them has the same tokens,
on the same lines and in the same columns, because a comment goes on up to the end of its line. Only
their offsets differ, by the comments in front of them.

* `Scan.uncommented`: a text without its comments.
* `Scan.pairs_body`: the tokens of such a text are those of the text.
* `Scan.paired_slice`: what stands between two of them is what stood there, without comments.
-/

namespace ErdSql

namespace Scan

/-! ### Comments -/

/-- A character of a document and whether it belongs to a comment. -/
structure Glyph where
  char : Char
  inComment : Bool

namespace Glyph

/-- All the characters. -/
def text (gs : List Glyph) : List Char :=
  gs.map (·.char)

/-- The characters that belong to no comment. -/
def kept (gs : List Glyph) : List Char :=
  text (gs.filter (!·.inComment))

/-- Characters that all belong to a comment, or none of them. -/
def run (inComment : Bool) (cs : List Char) : List Glyph :=
  cs.map (⟨·, inComment⟩)

variable (gs hs : List Glyph) (cs : List Char)

@[simp]
lemma text_append : text (gs ++ hs) = text gs ++ text hs :=
  List.map_append

@[simp]
lemma kept_append : kept (gs ++ hs) = kept gs ++ kept hs := by
  rw [kept, List.filter_append, text_append]
  rfl

@[simp]
lemma text_run (inComment : Bool) : text (run inComment cs) = cs := by
  rw [text, run, List.map_map]
  exact List.map_id cs

@[simp]
lemma kept_run_false : kept (run false cs) = cs := by
  rw [kept, List.filter_eq_self.2 (by simp [run]), text_run]

@[simp]
lemma kept_run_true : kept (run true cs) = [] := by
  rw [kept, List.filter_eq_nil_iff.2 (by simp [run])]
  rfl

end Glyph

open Glyph

/-- The characters of a text, each with whether it belongs to a comment; `opens` says whether a
parenthesis at the front opens an expression. -/
def glyphsFrom (opens : Bool) : List Char → List Glyph
  | [] => []
  | c :: cs =>
    match step opens c cs with
    | .skip more => run (!Text.isSpace c) (c :: cs.take more) ++ glyphsFrom opens (cs.drop more)
    | .token kind spelling more =>
      run false (c :: cs.take more) ++ glyphsFrom (opensExpr kind spelling) (cs.drop more)
    | .fault _ _ more => run false (c :: cs.take more) ++ glyphsFrom opens (cs.drop more)
termination_by cs => cs.length
decreasing_by all_goals simp only [List.length_cons, List.length_drop]; omega

/-- The characters of a document, each with whether it belongs to a comment that the scanner skips. -/
def glyphs (cs : List Char) : List Glyph :=
  glyphsFrom false cs

/-- A document without its comments. -/
def uncommented (cs : List Char) : List Char :=
  kept (glyphs cs)

lemma text_glyphsFrom (opens : Bool) (cs : List Char) : text (glyphsFrom opens cs) = cs := by
  fun_induction glyphsFrom opens cs with
  | case1 => rfl
  | case2 opens c cs more _ ih => simp [ih]
  | case3 opens c cs kind spelling more _ ih => simp [ih]
  | case4 opens c cs fault before more _ ih => simp [ih]

/-! ### What stands in place of a text with comments -/

/-- What a step skips is one character of white space, or a comment up to the end of its line. -/
lemma cases_of_skip {opens : Bool} {c : Char} {cs : List Char} {more : Nat}
    (h : step opens c cs = .skip more) :
    Text.isSpace c = true ∧ more = 0 ∨
      Text.isSpace c = false ∧ startsComment (c :: cs) = true ∧ '\n' ∉ c :: cs.take more ∧
        ∀ d ∈ (cs.drop more).head?, d = '\n' := by
  by_cases space : Text.isSpace c = true
  · rw [step, if_pos space] at h
    cases h
    exact .inl ⟨space, rfl⟩
  · cases takes_of_step h with
    | space here => exact absurd here space
    | comment mark =>
      obtain ⟨body, rest, rfl, length, noFeed, feed⟩ := exists_line cs
      rw [length, List.take_left' rfl, List.drop_left' rfl]
      refine .inr ⟨by simpa using space, by simpa [startsComment] using mark, ?_, feed⟩
      rw [List.mem_cons, not_or]
      refine ⟨?_, noFeed⟩
      rintro rfl
      exact space (by decide)

/-- Without comments a text starts as it does, or with the end of the line of a comment. -/
lemma startsAlike_kept (opens : Bool) (cs : List Char) : StartsAlike cs (kept (glyphsFrom opens cs)) := by
  cases cs with
  | nil =>
    rw [glyphsFrom]
    exact .inl rfl
  | cons c cs =>
    rw [glyphsFrom]
    split
    · next more found =>
      obtain ⟨space, rfl⟩ | ⟨space, comment, -, feed⟩ := cases_of_skip found
      · rw [space, kept_append, Bool.not_true, kept_run_false]
        exact .inl rfl
      · rw [space, kept_append, Bool.not_false, kept_run_true, List.nil_append]
        refine .inr ⟨comment, ?_⟩
        generalize cs.drop more = rest at feed ⊢
        cases rest with
        | nil =>
          rw [glyphsFrom]
          exact nofun
        | cons d ds =>
          obtain rfl := feed d rfl
          have space : step opens '\n' ds = .skip 0 := by rw [step, if_pos (by decide)]
          rw [glyphsFrom, space]
          dsimp only
          rw [kept_append, show (!Text.isSpace '\n') = false by decide, kept_run_false]
          rintro x ⟨⟩
          rfl
    · rw [kept_append, kept_run_false]
      exact .inl rfl
    · rw [kept_append, kept_run_false]
      exact .inl rfl

/-- Without comments a text can stand in its place behind a token. -/
lemma standsFor_kept (opens : Bool) (cs : List Char) : StandsFor cs (kept (glyphsFrom opens cs)) := by
  refine ⟨startsAlike_kept opens cs, ?_⟩
  rintro d ds rfl mark
  have single : step opens d ds = .token .symbol (String.singleton d) 0 := by
    have table : ∀ e : Char, e = '.' ∨ e = '/' → Text.isSpace e = false ∧ isNameStart e = false := by
      rintro _ (rfl | rfl) <;> decide
    obtain ⟨space, name⟩ := table d mark
    rcases mark with rfl | rfl <;> simp [step, space, name, Cardinality.ofSigil?]
  rw [glyphsFrom, single]
  dsimp only
  rw [kept_append, kept_run_false]
  exact ⟨_, rfl, startsAlike_kept _ _⟩

/-! ### Places -/

/-- A place of a text in bytes, and the same place of the text without comments. -/
def Place (gs : List Glyph) (n n' : Nat) : Prop :=
  ∃ front back, gs = front ++ back ∧ n = Text.byteSize (text front) ∧ n' = Text.byteSize (kept front)

/-- A token of a text and the same token of the text without comments. -/
structure Uncommented (gs : List Glyph) (t t' : Token) : Prop where
  like : t.Like 0 t'
  start : Place gs t.offset t'.offset
  stop : Place gs t.stop t'.stop

/-- The tokens of a text correspond to those of the text without comments. -/
def uncommenting (gs : List Glyph) : Token.Pairing 0 where
  Pairs := Uncommented gs
  like h := h.like
  behind h := ⟨h.like.behind, h.stop, h.stop⟩

lemma byteSize_append (cs ds : List Char) :
    Text.byteSize (cs ++ ds) = Text.byteSize cs + Text.byteSize ds := by
  rw [← length_encode, Text.encode_append, List.length_append, length_encode, length_encode]

lemma column_advanceBy_congr {p p' : Position} (h : p'.column = p.column) (cs : List Char) :
    (p'.advanceBy cs).column = (p.advanceBy cs).column := by
  induction cs generalizing p p' with
  | nil => exact h
  | cons c cs ih =>
    refine ih ?_
    unfold Position.advance
    split
    · rfl
    · exact congrArg (· + 1) h

/-- A place of the scanner in a text, behind some characters, and in the text without comments. The columns
may differ at the end of the line of a comment. -/
structure Behind (front : List Glyph) (cs : List Char) (p p' : Position) : Prop where
  offset : p.offset = Text.byteSize (text front)
  offset' : p'.offset = Text.byteSize (kept front)
  line : p'.line = p.line
  column : p'.column = p.column ∨ ∀ c ∈ cs.head?, c = '\n'

namespace Behind

variable {front : List Glyph} {c : Char} {cs : List Char} {p p' : Position}

/-- Behind some more characters that belong to no comment. -/
lemma advance (h : Behind front (c :: cs) p p') (taken rest : List Char)
    (feed : c = '\n' → taken = []) :
    Behind (front ++ run false (c :: taken)) rest (p.advanceBy (c :: taken)) (p'.advanceBy (c :: taken)) where
  offset := by rw [Document.offset_advanceBy, h.offset, text_append, text_run, byteSize_append]
  offset' := by rw [Document.offset_advanceBy, h.offset', kept_append, kept_run_false, byteSize_append]
  line := by rw [Position.line_advanceBy, Position.line_advanceBy, h.line]
  column := by
    refine .inl ?_
    obtain same | line := h.column
    · exact column_advanceBy_congr same _
    · obtain rfl := line c rfl
      rw [feed rfl]
      rfl

/-- Behind a comment. -/
lemma skip (h : Behind front (c :: cs) p p') {taken rest : List Char} (noFeed : '\n' ∉ c :: taken)
    (feed : ∀ d ∈ rest.head?, d = '\n') :
    Behind (front ++ run true (c :: taken)) rest (p.advanceBy (c :: taken)) p' where
  offset := by rw [Document.offset_advanceBy, h.offset, text_append, text_run, byteSize_append]
  offset' := by rw [h.offset', kept_append, kept_run_true, List.append_nil]
  line := by rw [Position.line_advanceBy, List.count_eq_zero.2 noFeed, h.line, Nat.add_zero]
  column := .inr feed

/-- A character that does not end a line is in the same column. -/
lemma column_eq (h : Behind front (c :: cs) p p') (ne : c ≠ '\n') : p'.column = p.column :=
  h.column.resolve_right fun line => ne (line c rfl)

/-- The tokens of some characters that start at the two places. -/
lemma like (h : Behind front (c :: cs) p p') (ne : c ≠ '\n') (kind : Token.Kind) (spelling : String)
    (taken : List Char) :
    Token.Like 0
      ⟨kind, spelling, p.line, p.column, p.offset, (p.advanceBy (c :: taken)).offset,
        (p.advanceBy (c :: taken)).line⟩
      ⟨kind, spelling, p'.line, p'.column, p'.offset, (p'.advanceBy (c :: taken)).offset,
        (p'.advanceBy (c :: taken)).line⟩ where
  kind := rfl
  spelling := rfl
  line := h.line
  column := h.column_eq ne
  endLine := by simp only [Position.line_advanceBy, h.line, Nat.add_zero]
  width := by
    simp only [Document.offset_advanceBy]
    omega

end Behind

lemma body_cons {t : Token} {scan : Scan} (ne : scan.tokens ≠ []) :
    body ⟨t :: scan.tokens, scan.errors⟩ = t :: scan.body :=
  List.dropLast_cons_of_ne_nil ne

/-- Without comments a text has the same tokens. -/
lemma pairs_scanFrom {opens : Bool} {front : List Glyph} {cs : List Char} {p p' : Position}
    (h : Behind front cs p p') :
    List.Forall₂ (uncommenting (front ++ glyphsFrom opens cs)).Pairs (scanFrom opens p cs).body
      (scanFrom opens p' (kept (glyphsFrom opens cs))).body := by
  fun_induction scanFrom opens p cs generalizing front p' with
  | case1 opens p =>
    rw [glyphsFrom, show kept [] = [] from rfl, scanFrom]
    exact .nil
  | case2 opens p c cs more found ih =>
    rw [glyphsFrom, found]
    dsimp only
    obtain ⟨space, rfl⟩ | ⟨space, -, noFeed, feed⟩ := cases_of_skip found
    · rw [space, Bool.not_true, kept_append, kept_run_false, ← List.append_assoc]
      have behind := ih (h.advance (cs.take 0) (cs.drop 0) fun _ => rfl)
      rw [List.take_zero, List.singleton_append, scanFrom_space space]
      exact behind
    · rw [space, Bool.not_false, kept_append, kept_run_true, List.nil_append, ← List.append_assoc]
      exact ih (h.skip noFeed feed)
  | case3 opens p c cs kind spelling more found next token =>
    rename_i rest ih
    have ne : c ≠ '\n' := by
      rintro rfl
      rw [step, if_pos (by decide)] at found
      cases found
    have taken : (cs.take more).length = more := by
      rw [List.length_take, Nat.min_eq_left (inside_of_step found).1]
    have same := step_token_congr found (standsFor_kept (opensExpr kind spelling) (cs.drop more))
    have past := h.advance (cs.take more) (cs.drop more) fun feed => absurd feed ne
    rw [glyphsFrom, found]
    dsimp only
    rw [kept_append, kept_run_false, ← List.append_assoc, List.cons_append, scanFrom, same]
    dsimp only
    rw [List.take_left' taken, List.drop_left' taken, body_cons (tokens_scanFrom_ne_nil _ _ _),
      body_cons (tokens_scanFrom_ne_nil _ _ _)]
    refine .cons ?_ (ih past)
    exact {
      like := h.like ne kind spelling (cs.take more)
      start := ⟨front, _, List.append_assoc _ _ _, h.offset, h.offset'⟩
      stop := ⟨_, _, rfl, past.offset, past.offset'⟩ }
  | case4 opens p c cs fault before more found place =>
    rename_i rest ih
    have ne : c ≠ '\n' := by
      rintro rfl
      rw [step, if_pos (by decide)] at found
      cases found
    have short := inside_step opens c cs
    rw [found] at short
    have taken : (cs.take more).length = more := by
      rw [List.length_take, Nat.min_eq_left short.2]
    have same := step_fault_congr found (startsAlike_kept opens (cs.drop more))
    have past := h.advance (cs.take more) (cs.drop more) fun feed => absurd feed ne
    rw [glyphsFrom, found]
    dsimp only
    rw [kept_append, kept_run_false, ← List.append_assoc, List.cons_append]
    conv => enter [3, 1]; rw [scanFrom, same]
    dsimp only
    rw [List.take_left' taken, List.drop_left' taken]
    exact ih past

/-- The tokens of a document correspond to those of the document without comments. -/
lemma pairs_body (cs : List Char) :
    List.Forall₂ (uncommenting (glyphs cs)).Pairs (ofChars cs).body (ofChars (uncommented cs)).body := by
  have start : Behind [] cs .start .start := ⟨rfl, rfl, rfl, .inl rfl⟩
  exact pairs_scanFrom start

/-! ### What stands between two tokens -/

/-- The characters of a document between two places in bytes, each with whether it belongs to a comment. -/
def glyphsBetween (cs : List Char) (start stop : Nat) : List Glyph :=
  ((glyphs cs).drop (Text.takeBytes start cs).length).take (Text.slice cs start stop).length

lemma slice_text (front gap back : List Char) :
    Text.slice (front ++ gap ++ back) (Text.byteSize front) (Text.byteSize (front ++ gap)) = gap := by
  have between := (Text.slice_between front gap back).1
  rwa [length_encode, length_encode] at between

lemma glyphsBetween_eq {cs : List Char} {front gap back : List Glyph}
    (split : glyphs cs = front ++ gap ++ back) :
    glyphsBetween cs (Text.byteSize (text front)) (Text.byteSize (text (front ++ gap))) = gap := by
  have whole : cs = text front ++ text gap ++ text back := by
    rw [← text_append, ← text_append, ← split, glyphs, text_glyphsFrom]
  have start : (Text.takeBytes (Text.byteSize (text front)) cs).length = front.length := by
    rw [whole, List.append_assoc, Document.takeBytes_append, text, List.length_map]
  have between : (Text.slice cs (Text.byteSize (text front)) (Text.byteSize (text (front ++ gap)))).length =
      gap.length := by
    rw [whole, text_append, slice_text, text, List.length_map]
  rw [glyphsBetween, start, between, split, List.append_assoc, List.drop_left' rfl, List.take_left' rfl]

/-- Two places of a text have characters between them, unless the second one is not behind the first. -/
lemma Place.exists_gap {gs : List Glyph} {n n' m m' : Nat} (h : Place gs n n') (h' : Place gs m m') :
    (∃ front gap back, gs = front ++ gap ++ back ∧ n = Text.byteSize (text front) ∧
      m = Text.byteSize (text (front ++ gap)) ∧ n' = Text.byteSize (kept front) ∧
      m' = Text.byteSize (kept (front ++ gap))) ∨ m ≤ n ∧ m' ≤ n' := by
  obtain ⟨front, back, split, rfl, rfl⟩ := h
  obtain ⟨front', back', split', rfl, rfl⟩ := h'
  rw [split] at split'
  obtain ⟨gap, rfl, rfl⟩ | ⟨gap, rfl, rfl⟩ := List.append_eq_append_iff.1 split'
  · exact .inl ⟨front, gap, back', by rw [split, List.append_assoc], rfl, rfl, rfl, rfl⟩
  · refine .inr ⟨?_, ?_⟩
    · rw [text_append, byteSize_append]
      exact Nat.le_add_right _ _
    · rw [kept_append, byteSize_append]
      exact Nat.le_add_right _ _

lemma slice_of_le (cs : List Char) {start stop : Nat} (h : stop ≤ start) : Text.slice cs start stop = [] := by
  rw [Text.slice, Nat.sub_eq_zero_of_le h, Text.takeBytes]

end Scan

open Scan Scan.Glyph

/-- The text of a document between two places, without the comments that stand there. -/
def Document.Source.uncommented (cs : List Char) : Document.Source := fun start stop =>
  kept (glyphsBetween cs start stop)

namespace Scan

/-- What stands between two tokens of a document without comments is what stands between them in the
document, without comments. -/
lemma paired_slice (cs : List Char) :
    (Document.Source.uncommented cs).Paired (uncommenting (glyphs cs)) (Text.slice (uncommented cs)) := by
  intro t t' u u' first last
  obtain ⟨front, gap, back, split, start, stop, start', stop'⟩ | ⟨le, le'⟩ :=
    first.start.exists_gap last.stop
  · rw [Document.Source.uncommented, start, stop, start', stop', glyphsBetween_eq split, uncommented, split,
      kept_append, kept_append, slice_text]
  · rw [slice_of_le _ le', Document.Source.uncommented, glyphsBetween, slice_of_le _ le, List.length_nil,
      List.take_zero]
    rfl

/-- Where no comment stands between two places, nothing is lost. -/
lemma uncommented_eq_slice {cs : List Char} {n n' m m' : Nat} (h : Place (glyphs cs) n n')
    (h' : Place (glyphs cs) m m') (clean : ∀ g ∈ glyphsBetween cs n m, g.inComment = false) :
    Document.Source.uncommented cs n m = Text.slice cs n m := by
  obtain ⟨front, gap, back, split, rfl, rfl, -, -⟩ | ⟨le, -⟩ := h.exists_gap h'
  · have whole : cs = text front ++ text gap ++ text back := by
      rw [← text_append, ← text_append, ← split, glyphs, text_glyphsFrom]
    rw [glyphsBetween_eq split] at clean
    rw [Document.Source.uncommented, glyphsBetween_eq split, kept, List.filter_eq_self.2 (by simpa using clean),
      text_append]
    conv_rhs => rw [whole]
    rw [slice_text]
  · rw [slice_of_le _ le, Document.Source.uncommented, glyphsBetween, slice_of_le _ le, List.length_nil,
      List.take_zero]
    rfl

/-! ### Comments and lines -/

lemma run_append_eq {inComment : Bool} {cs : List Char} {rest front back : List Glyph} {g : Glyph}
    (h : run inComment cs ++ rest = front ++ g :: back) :
    (∃ front', front = run inComment cs ++ front' ∧ rest = front' ++ g :: back) ∨
      g.inComment = inComment ∧ ∃ before after, cs = before ++ after ∧ front = run inComment before ∧
        after ≠ [] := by
  obtain ⟨front', rfl, rfl⟩ | ⟨behind, eq, rest_eq⟩ := List.append_eq_append_iff.1 h
  · exact .inl ⟨front', rfl, rfl⟩
  · cases behind with
    | nil =>
      rw [List.append_nil] at eq
      exact .inl ⟨[], by rw [eq, List.append_nil], rest_eq.symm⟩
    | cons d ds =>
      obtain ⟨rfl, -⟩ := List.cons.inj rest_eq
      obtain ⟨before, after, rfl, rfl, eq'⟩ := List.map_eq_append_iff.1 eq
      refine .inr ⟨?_, before, after, rfl, rfl, ?_⟩
      · obtain ⟨c, -, rfl⟩ := List.mem_map.1 (eq' ▸ List.mem_cons_self : g ∈ after.map (⟨·, inComment⟩))
        rfl
      · rintro rfl
        cases eq'

/-- Where a line ends, the tokens stand on the lines below. -/
lemma below_of_feed {opens : Bool} {p : Position} {cs : List Char} (line : 0 < p.line) (column : p.column ≠ 0)
    (feed : ∀ c ∈ cs.head?, c = '\n') :
    ∀ t ∈ (scanFrom opens p cs).body, p.offset ≤ t.offset ∧ p.line < t.line := by
  intro t ht
  have inside := List.mem_of_mem_dropLast ht
  refine ⟨?_, ?_⟩
  · obtain ⟨before, -, -, offset⟩ := exists_offset_eq inside
    rw [offset]
    exact Nat.le_add_right _ _
  · cases cs with
    | nil =>
      rw [scanFrom] at ht
      cases ht
    | cons c cs =>
      obtain rfl := feed c rfl
      rw [scanFrom_space (by decide)] at inside
      have down := Position.line_lt_advanceBy (List.mem_singleton_self '\n') p
      have right := Position.column_advanceBy_ne_zero column ['\n']
      exact down.trans_le ((standing_scanFrom opens cs (line.trans down) right).2 t inside)

/-- A comment stands behind all that ends on its line or above, and no token stands behind it on its
line. -/
lemma apart_of_inComment {opens : Bool} {p : Position} {cs : List Char} {front back : List Glyph} {g : Glyph}
    (line : 0 < p.line) (column : p.column ≠ 0) (split : glyphsFrom opens cs = front ++ g :: back)
    (comment : g.inComment = true) : ∀ t ∈ (scanFrom opens p cs).body,
      t.stop ≤ (p.advanceBy (text front)).offset ∧ t.endLine ≤ (p.advanceBy (text front)).line ∨
        (p.advanceBy (text front)).offset < t.offset ∧ (p.advanceBy (text front)).line < t.line := by
  fun_induction scanFrom opens p cs generalizing front with
  | case1 => exact List.forall_mem_nil _
  | case2 opens p c cs more found ih =>
    have below := line.trans_le (Position.line_le_advanceBy p (c :: cs.take more))
    have right := Position.column_advanceBy_ne_zero column (c :: cs.take more)
    rw [glyphsFrom, found] at split
    dsimp only at split
    obtain ⟨front', rfl, rest⟩ | ⟨mark, before, after, cut, rfl, ne⟩ := run_append_eq split
    · rw [text_append, text_run, Position.advanceBy_append]
      exact ih below right rest
    · obtain ⟨space, -⟩ | ⟨-, -, noFeed, feed⟩ := cases_of_skip found
      · rw [comment, space] at mark
        cases mark
      intro t ht
      obtain ⟨behind, lower⟩ := below_of_feed below right feed t ht
      have inside : 0 < Text.byteSize after := by
        obtain ⟨d, ds, rfl⟩ := List.exists_cons_of_ne_nil ne
        rw [Document.byteSize_cons]
        exact Nat.add_pos_left d.utf8Size_pos _
      rw [text_run]
      simp only [cut, Document.offset_advanceBy, Position.line_advanceBy, byteSize_append] at behind lower ⊢
      rw [cut] at noFeed
      have flat : before.count '\n' = 0 :=
        List.count_eq_zero.2 fun mem => noFeed (List.mem_append_left _ mem)
      refine .inr ⟨by omega, ?_⟩
      rw [List.count_append] at lower
      omega
  | case3 opens p c cs kind spelling more found next token =>
    rename_i rest ih
    have below := line.trans_le (Position.line_le_advanceBy p (c :: cs.take more))
    have right := Position.column_advanceBy_ne_zero column (c :: cs.take more)
    rw [glyphsFrom, found] at split
    dsimp only at split
    obtain ⟨front', rfl, behind⟩ | ⟨mark, -⟩ := run_append_eq split
    · rw [text_append, text_run, Position.advanceBy_append, body_cons (tokens_scanFrom_ne_nil _ _ _),
        List.forall_mem_cons]
      refine ⟨.inl ⟨?_, Position.line_le_advanceBy next _⟩, ih below right behind⟩
      rw [Document.offset_advanceBy]
      exact Nat.le_add_right _ _
    · rw [comment] at mark
      cases mark
  | case4 opens p c cs fault before more found place =>
    rename_i rest ih
    have below := line.trans_le (Position.line_le_advanceBy p (c :: cs.take more))
    have right := Position.column_advanceBy_ne_zero column (c :: cs.take more)
    rw [glyphsFrom, found] at split
    dsimp only at split
    obtain ⟨front', rfl, behind⟩ | ⟨mark, -⟩ := run_append_eq split
    · rw [text_append, text_run, Position.advanceBy_append]
      exact ih below right behind
    · rw [comment] at mark
      cases mark

end Scan

end ErdSql
