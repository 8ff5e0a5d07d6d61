import ErdSql.Proofs.Coordinates

/-!
# Scanning behind a fault

Behind a fault scanning goes on where the line of the fault ends, but an expression that is never closed
takes all the rest of the text with it.

* `Text.splitLines`: the first lines of a text and what stands below them.
* `Scan.resume_of_step`: where a step with a fault stops.
* `Scan.exists_resume`: where scanning goes on behind the last fault.
* `Scan.resumes_iff`: the tokens below the last fault are those of the text below it, unless an
  expression is never closed.
-/

namespace ErdSql

/-! ### Lines of a text -/

namespace Text

/-- The first lines of a text with their line feeds, and what stands below them. -/
def splitLines : Nat → List Char → List Char × List Char
  | 0, cs => ([], cs)
  | _ + 1, [] => ([], [])
  | n + 1, c :: cs =>
    let (above, below) := splitLines (if c == '\n' then n else n + 1) cs
    (c :: above, below)

/-- Lines that end are the first lines of a text. -/
lemma splitLines_append {above : List Char} (line : Scan.EndsLine above) (below : List Char) :
    splitLines (above.count '\n') (above ++ below) = (above, below) := by
  induction above with
  | nil => rw [List.count_nil, List.nil_append, splitLines]
  | cons c cs ih =>
    obtain ⟨n, hn⟩ := Nat.exists_eq_add_one_of_ne_zero
      (List.count_pos_iff.2 (line.feed_mem_of_ne_nil (List.cons_ne_nil c cs))).ne'
    have behind : (if c == '\n' then n else n + 1) = cs.count '\n' := by
      rw [List.count_cons] at hn
      split <;> simp_all
    rw [hn, List.cons_append, splitLines, behind, ih line.tail]

lemma exists_lines {n : Nat} {cs : List Char} (h : n ≤ cs.count '\n') :
    ∃ above below, cs = above ++ below ∧ Scan.EndsLine above ∧ above.count '\n' = n := by
  induction cs generalizing n with
  | nil => exact ⟨[], [], rfl, nofun, (Nat.le_zero.1 h).symm⟩
  | cons c cs ih =>
    cases n with
    | zero => exact ⟨[], c :: cs, rfl, nofun, rfl⟩
    | succ n =>
      obtain ⟨above, below, rfl, line, count⟩ :=
        ih (n := if c == '\n' then n else n + 1) (by rw [List.count_cons] at h; split <;> simp_all)
      refine ⟨c :: above, below, rfl, fun d hd => ?_, ?_⟩
      · cases above with
        | nil =>
          obtain rfl : c = d := by simpa using hd
          by_contra other
          simp [other] at count
        | cons b above => exact line d (by rwa [List.getLast?_cons_cons] at hd)
      · rw [List.count_cons, count]
        split <;> rfl

/-- The first lines of a text that has as many end, and the rest stands below them. -/
lemma of_splitLines {n : Nat} {cs above below : List Char} (le : n ≤ cs.count '\n')
    (split : splitLines n cs = (above, below)) :
    cs = above ++ below ∧ Scan.EndsLine above ∧ above.count '\n' = n := by
  obtain ⟨xs, ys, rfl, line, rfl⟩ := exists_lines le
  rw [splitLines_append line] at split
  cases split
  exact ⟨rfl, line, rfl⟩

/-- A text with fewer lines has nothing below them. -/
lemma splitLines_of_count_lt {n : Nat} {cs : List Char} (h : cs.count '\n' < n) :
    splitLines n cs = (cs, []) := by
  induction cs generalizing n with
  | nil =>
    obtain ⟨n, rfl⟩ := Nat.exists_eq_add_one_of_ne_zero (Nat.ne_of_gt h)
    rfl
  | cons c cs ih =>
    obtain ⟨n, rfl⟩ := Nat.exists_eq_add_one_of_ne_zero (Nat.ne_of_gt (Nat.zero_lt_of_lt h))
    rw [List.count_cons] at h
    rw [splitLines, ih]
    split <;> simp_all

end Text

/-- The token that marks the end of a text. -/
def Token.final (p : Position) : Token :=
  ⟨.eof, "", p.line, p.column, p.offset, p.offset, p.line⟩

namespace Scan

/-! ### Where a fault stops -/

/-- A fault of a line ends with the line. -/
lemma faultAt_stops {c d : Char} {cs : List Char} {before : Nat} (at_ : (c :: cs)[before]? = some d)
    (ne : d ≠ '\n') : '\n' ∉ (c :: cs.take (before + lineLength (cs.drop before))).drop before ∧
      ∀ e ∈ (cs.drop (before + lineLength (cs.drop before))).head?, e = '\n' := by
  obtain ⟨line, rest, split, length, noFeed, feed⟩ := exists_line (cs.drop before)
  have front : (c :: cs).drop before = d :: (line ++ rest) := by
    obtain ⟨lt, eq⟩ := List.getElem?_eq_some_iff.1 at_
    rw [List.drop_eq_getElem_cons lt, eq, List.drop_succ_cons, split]
  rw [length]
  constructor
  · rw [← List.take_succ_cons, List.drop_take, front, Nat.add_assoc, Nat.add_sub_cancel_left,
      List.take_succ_cons, List.take_left' rfl, List.mem_cons]
    rintro (same | inside)
    · exact ne same.symm
    · exact noFeed inside
  · rwa [← List.drop_drop, split, List.drop_left' rfl]

/-- A step with a fault stops at the end of the line of the fault. Only an expression that is never closed
takes all the rest. -/
lemma resume_of_step {opens : Bool} {c : Char} {cs : List Char} {fault : ScanFault} {before more : Nat}
    (h : step opens c cs = .fault fault before more) :
    fault = .openExpression ∧ before = 0 ∧ more = cs.length ∨
      fault ≠ .openExpression ∧ before ≤ more ∧ '\n' ∉ (c :: cs.take more).drop before ∧
        ∀ d ∈ (cs.drop more).head?, d = '\n' := by
  -- the fault stands at the first character
  have first {f : ScanFault} (other : f ≠ .openExpression) (ne : c ≠ '\n')
      (h : faultAt f 0 cs = .fault fault before more) :
      fault = .openExpression ∧ before = 0 ∧ more = cs.length ∨
        fault ≠ .openExpression ∧ before ≤ more ∧ '\n' ∉ (c :: cs.take more).drop before ∧
          ∀ d ∈ (cs.drop more).head?, d = '\n' := by
    cases h
    have here : (c :: cs)[0]? = some c := rfl
    exact .inr ⟨other, Nat.zero_le _, faultAt_stops here ne⟩
  generalize found : Step.fault fault before more = s at h
  cases takes_of_step h with
  | openString quote =>
    refine first (by decide) ?_ found.symm
    rintro rfl
    exact absurd quote (by decide)
  | openList opening kind =>
    refine first (by rintro rfl; simp at kind) ?_ found.symm
    rw [opening]
    decide
  | openExpr opening _ inside =>
    cases found
    -- a fault inside the expression
    have later {f : ScanFault} {place : Nat} (other : f ≠ .openExpression)
        (fault' : (exprEnd 0 ['('] none cs).place? = some place)
        (h : faultAt f (place + 1) cs = .fault fault before more) :
        fault ≠ .openExpression ∧ before ≤ more ∧ '\n' ∉ (c :: cs.take more).drop before ∧
          ∀ d ∈ (cs.drop more).head?, d = '\n' := by
      cases h
      obtain ⟨d, -, at_, ne⟩ := (place_exprEnd fault').resolve_left (by simp)
      exact ⟨other, Nat.le_add_right _ _, faultAt_stops (by rwa [List.getElem?_cons_succ]) ne⟩
    unfold exprStep at inside
    split at inside
    · cases inside
    · cases inside
      exact .inl ⟨rfl, rfl, rfl⟩
    · next place open_ => exact .inr (later (by decide) (by rw [open_]; rfl) inside)
    · next place bracket unexpected => exact .inr (later (by simp) (by rw [unexpected]; rfl) inside)
  | _ => cases found

/-! ### Where scanning goes on -/

/-- Where a text has no fault and its first character outside white space and comments is no parenthesis, it
does not matter whether one opens an expression. -/
lemma scanFrom_of_front {opens : Bool} {p : Position} {cs : List Char}
    (faultless : (scanFrom opens p cs).errors = [])
    (front : ∀ gap after, cs = gap ++ after → Gap gap after → after.head? ≠ some '(') :
    scanFrom opens p cs = scanFrom false p cs := by
  have first {c : Char} {cs : List Char}
      (front : ∀ gap after, c :: cs = gap ++ after → Gap gap after → after.head? ≠ some '(') : c ≠ '(' :=
    fun h => front [] (c :: cs) rfl .nil (congrArg some h)
  fun_induction scanFrom opens p cs with
  | case1 => rw [scanFrom]
  | case2 opens p c cs more found ih =>
    have found' := found
    rw [step_of_ne (first front)] at found'
    rw [ih faultless fun gap after split behind => ?_]
    · conv_rhs => rw [scanFrom, found']
    · refine front (c :: cs.take more ++ gap) after ?_ (gap_of_step found split behind)
      rw [List.append_assoc, ← split, List.cons_append, List.take_append_drop]
  | case3 opens p c cs kind spelling more found next token rest ih =>
    rw [step_of_ne (first front)] at found
    conv_rhs => rw [scanFrom, found]
  | case4 => cases faultless

/-- The last token of a text marks its end. -/
lemma tokens_eq_concat (opens : Bool) (p : Position) (cs : List Char) :
    (scanFrom opens p cs).tokens = (scanFrom opens p cs).body ++ [.final (p.advanceBy cs)] := by
  fun_induction scanFrom opens p cs with
  | case1 => rfl
  | case2 opens p c cs more _ ih =>
    rw [advanceBy_take_drop] at ih
    exact ih
  | case3 opens p c cs kind spelling more _ next token rest ih =>
    rw [advanceBy_take_drop] at ih
    rw [body, List.dropLast_cons_of_ne_nil (tokens_scanFrom_ne_nil _ _ _), List.cons_append]
    exact congrArg (token :: ·) ih
  | case4 opens p c cs fault before more _ place rest ih =>
    rw [advanceBy_take_drop] at ih
    exact ih

/-- Behind the last fault scanning goes on at the end of its line, or at the end of the text if an expression
is never closed. The tokens before stand no lower than that line. -/
lemma exists_resume {opens : Bool} {p : Position} {cs : List Char}
    (faulty : (scanFrom opens p cs).errors ≠ []) :
    ∃ line ts opens' front rest, cs = front ++ rest ∧
      (scanFrom opens p cs).tokens = ts ++ (scanFrom opens' (p.advanceBy front) rest).tokens ∧
      (scanFrom opens' (p.advanceBy front) rest).errors = [] ∧
      (∀ t ∈ ts, t.line ≤ line) ∧ p.line ≤ line ∧ (∀ e ∈ (scanFrom opens p cs).errors, e.line ≤ line) ∧
      (∃ e ∈ (scanFrom opens p cs).errors, e.line = line) ∧
      ((∀ e ∈ (scanFrom opens p cs).errors, e.fault ≠ .openExpression) ∧
          line = (p.advanceBy front).line ∧ (∀ c ∈ rest.head?, c = '\n') ∨
        (∃ e ∈ (scanFrom opens p cs).errors, e.fault = .openExpression) ∧ rest = []) := by
  fun_induction scanFrom opens p cs with
  | case1 => exact absurd rfl faulty
  | case2 opens p c cs more _ ih =>
    obtain ⟨line, ts, opens', front, rest, split, tokens, clean, above, down, faults⟩ := ih faulty
    refine ⟨line, ts, opens', c :: cs.take more ++ front, rest, ?_, ?_⟩
    · rw [List.append_assoc, ← split, List.cons_append, List.take_append_drop]
    · rw [Position.advanceBy_append]
      exact ⟨tokens, clean, above, (Position.line_le_advanceBy _ _).trans down, faults⟩
  | case3 opens p c cs kind spelling more _ next token scan ih =>
    obtain ⟨line, ts, opens', front, rest, split, tokens, clean, above, down, faults⟩ := ih faulty
    have start : p.line ≤ line := (Position.line_le_advanceBy _ _).trans down
    refine ⟨line, token :: ts, opens', c :: cs.take more ++ front, rest, ?_, ?_⟩
    · rw [List.append_assoc, ← split, List.cons_append, List.take_append_drop]
    · rw [Position.advanceBy_append]
      exact ⟨congrArg (token :: ·) tokens, clean, List.forall_mem_cons.2 ⟨start, above⟩, start, faults⟩
  | case4 opens p c cs fault before more found place scan ih =>
    obtain ⟨rfl, rfl, rfl⟩ | ⟨other, le, noFeed, stop⟩ := resume_of_step found
    · -- nothing is left behind an expression that is never closed
      refine ⟨place.line, [], opens, c :: cs.take cs.length, cs.drop cs.length, by simp, rfl, ?_,
        List.forall_mem_nil _, Position.line_le_advanceBy _ _, ?_, ⟨_, List.mem_cons_self, rfl⟩,
        .inr ⟨⟨_, List.mem_cons_self, rfl⟩, List.drop_length⟩⟩
      · rw [List.drop_length, scanFrom]
      · have none : scan.errors = [] := by
          unfold scan
          rw [List.drop_length, scanFrom]
        simp [none]
    · -- the scanner stops on the line of the fault
      have same : place.line = (p.advanceBy (c :: cs.take more)).line := by
        have front : (c :: cs.take more).take before = (c :: cs).take before := by
          rw [← List.take_succ_cons, List.take_take, Nat.min_eq_left (by omega)]
        rw [← List.take_append_drop before (c :: cs.take more), front, Position.advanceBy_append,
          Position.line_advanceBy (Position.advanceBy _ _), List.count_eq_zero.2 noFeed]
        rfl
      by_cases last : scan.errors = []
      · refine ⟨place.line, [], opens, c :: cs.take more, cs.drop more, ?_, rfl, last,
          List.forall_mem_nil _, Position.line_le_advanceBy _ _, ?_, ⟨_, List.mem_cons_self, rfl⟩, .inl ⟨?_, same, stop⟩⟩
        · rw [List.cons_append, List.take_append_drop]
        · rw [last]
          simp
        · rw [last]
          simpa using other
      · obtain ⟨line, ts, opens', front, rest, split, tokens, clean, above, down, below, at_, stops⟩ := ih last
        refine ⟨line, ts, opens', c :: cs.take more ++ front, rest, ?_, ?_⟩
        · rw [List.append_assoc, ← split, List.cons_append, List.take_append_drop]
        · rw [Position.advanceBy_append]
          refine ⟨tokens, clean, above, (Position.line_le_advanceBy _ _).trans down,
            List.forall_mem_cons.2 ⟨same.trans_le down, below⟩, ?_, ?_⟩
          · obtain ⟨e, mem, eq⟩ := at_
            exact ⟨e, List.mem_cons_of_mem _ mem, eq⟩
          · refine stops.imp (fun stop => ⟨List.forall_mem_cons.2 ⟨other, stop.1⟩, stop.2⟩) ?_
            rintro ⟨⟨e, mem, eq⟩, none⟩
            exact ⟨⟨e, List.mem_cons_of_mem _ mem, eq⟩, none⟩

/-! ### Tokens below the last fault -/

lemma start_advanceBy_of_endsLine {above : List Char} (line : EndsLine above) :
    Position.start.advanceBy above =
      Position.start.shift (Text.encode above).length (above.count '\n') := by
  by_cases ne : above = []
  · rw [ne]
    rfl
  · rw [Position.advanceBy_of_endsLine _ line ne, length_encode]
    rfl

/-- Below a line stand the tokens that are moved there. -/
lemma filter_below {ts us : List Token} {line : Nat} (above : ∀ t ∈ ts, t.line ≤ line)
    (lines : ∀ t ∈ us, 0 < t.line) (bytes : Nat) :
    (ts ++ us.map (·.shift bytes line)).filter (line < ·.line) = us.map (·.shift bytes line) := by
  have none : ts.filter (line < ·.line) = [] :=
    List.filter_eq_nil_iff.2 fun t ht => by simpa using above t ht
  rw [List.filter_append, none, List.nil_append, List.filter_eq_self]
  intro t ht
  obtain ⟨u, hu, rfl⟩ := List.mem_map.1 ht
  exact decide_eq_true (Nat.lt_add_of_pos_left (lines u hu))

/-- Where scanning goes on at the end of a line, it goes on with the line below as with a document. -/
lemma scanFrom_of_feed {opens : Bool} {upper below : List Char}
    (clean : (scanFrom opens (Position.start.advanceBy upper) ('\n' :: below)).errors = [])
    (front : ∀ gap after, below = gap ++ after → Gap gap after → after.head? ≠ some '(') :
    scanFrom opens (Position.start.advanceBy upper) ('\n' :: below) =
      (ofChars below).shift (Text.encode (upper ++ ['\n'])).length ((upper ++ ['\n']).count '\n') := by
  have feed : step opens '\n' below = .skip 0 := by
    rw [step, if_pos (by decide)]
  rw [scanFrom, feed] at clean ⊢
  dsimp only at clean ⊢
  rw [List.take_zero, List.drop_zero, ← Position.advanceBy_append] at clean ⊢
  rw [scanFrom_of_front clean front, start_advanceBy_of_endsLine (.of_getLast? List.getLast?_concat),
    scanFrom_shift]
  rfl

/-- The token at the end of the text below a line is the one at the end of the whole text. -/
lemma final_of_splitLines {line : Nat} {cs above below : List Char} (le : line ≤ cs.count '\n')
    (split : Text.splitLines line cs = (above, below)) :
    (Token.final (Position.start.advanceBy below)).shift (Text.encode above).length line =
      .final (Position.start.advanceBy cs) := by
  obtain ⟨rfl, ends, rfl⟩ := Text.of_splitLines le split
  rw [Position.advanceBy_append, start_advanceBy_of_endsLine ends, Position.shift_advanceBy]
  rfl

lemma lt_line_final {line : Nat} {cs : List Char} (le : line ≤ cs.count '\n') :
    line < (Token.final (Position.start.advanceBy cs)).line := by
  change line < (Position.start.advanceBy cs).line
  rw [Position.line_advanceBy, Nat.add_comm]
  exact Nat.lt_succ_of_le le

/-- **Scanning goes on below a fault.** Let the last fault of a document in UTF-8 stand on a line. If
the first character below that is not white space or comment is no opening parenthesis, then the tokens below
the line are those of the text below the line, moved down, if and only if no expression is left open or there are
none in that text. The one that marks the end is one of them if there is a line below. -/
theorem resumes_iff {src : List UInt8} {cs : List Char} (valid : Text.decode? src = some cs) {line : Nat}
    (reported : ∃ e ∈ (ofBytes src).errors, e.line = line)
    (last : ∀ e ∈ (ofBytes src).errors, e.line ≤ line) {above below : List Char}
    (split : Text.splitLines line cs = (above, below))
    (front : ∀ gap after, below = gap ++ after → Gap gap after → after.head? ≠ some '(') :
    ((ofBytes src).body.filter (line < ·.line) =
        (ofChars below).body.map (·.shift (Text.encode above).length line) ↔
      (∀ e ∈ (ofBytes src).errors, e.fault ≠ .openExpression) ∨ (ofChars below).body = []) ∧
    (line ≤ cs.count '\n' →
      ((ofBytes src).tokens.filter (line < ·.line) =
          (ofChars below).tokens.map (·.shift (Text.encode above).length line) ↔
        (∀ e ∈ (ofBytes src).errors, e.fault ≠ .openExpression) ∨ (ofChars below).body = [])) := by
  have scan : ofBytes src = ofChars cs := by rw [ofBytes, valid]
  rw [scan] at reported last ⊢
  rw [ofChars] at reported last ⊢
  obtain ⟨e, mem, here⟩ := reported
  obtain ⟨line', ts, opens, upper, rest, rfl, tokens, clean, earlier, -, greatest, ⟨e', mem', here'⟩, stops⟩ :=
    exists_resume (List.ne_nil_of_mem mem)
  obtain rfl : line' = line :=
    Nat.le_antisymm (here' ▸ last e' mem') (here ▸ greatest e mem)
  have lines : ∀ t ∈ (ofChars below).tokens, 0 < t.line := fun t ht =>
    ((standing_ofChars below).line t ht).1
  have bodies := congrArg List.dropLast tokens
  rw [List.dropLast_append_of_ne_nil (tokens_scanFrom_ne_nil _ _ _)] at bodies
  have nothing : ts.filter (line' < ·.line) = [] :=
    List.filter_eq_nil_iff.2 fun t ht => by simpa using earlier t ht
  have ended : (scanFrom opens (Position.start.advanceBy upper) []).tokens.dropLast = [] := by
    rw [scanFrom]
    rfl
  rcases stops with ⟨closed, at_, feed⟩ | ⟨⟨e, mem, opened⟩, rfl⟩
  · rw [Position.line_advanceBy] at at_
    cases rest with
    | nil =>
      -- the last line does not end, so there is nothing below it
      have short : (upper ++ []).count '\n' < line' := by
        rw [List.append_nil, at_]
        exact Nat.lt_add_of_pos_left Nat.one_pos
      rw [Text.splitLines_of_count_lt short] at split
      cases split
      refine ⟨iff_of_true ?_ (.inl closed), fun le => absurd short (Nat.not_lt.2 le)⟩
      rw [body, bodies, ended, List.append_nil ts, nothing, ofChars, scanFrom]
      rfl
    | cons c rest =>
      obtain rfl : c = '\n' := feed c rfl
      have count : line' = (upper ++ ['\n']).count '\n' := by
        rw [at_, List.count_append, Nat.add_comm]
        rfl
      rw [List.append_cons, count, Text.splitLines_append (.of_getLast? List.getLast?_concat)] at split
      cases split
      rw [scanFrom_of_feed clean front, ← count] at tokens bodies
      refine ⟨iff_of_true ?_ (.inl closed), fun _ => iff_of_true ?_ (.inl closed)⟩
      · rw [body, bodies, Scan.shift, ← List.map_dropLast]
        exact filter_below earlier (fun t ht => lines t (List.dropLast_subset _ ht)) _
      · rw [tokens]
        exact filter_below earlier lines _
  · -- the expression takes all that stands below it, but for the end of the text
    rw [or_iff_right fun closed => closed e mem opened]
    refine ⟨?_, fun le => ?_⟩
    · rw [body, bodies, ended, List.append_nil ts, nothing, eq_comm, List.map_eq_nil_iff]
    · have one : (scanFrom false .start (upper ++ [])).tokens.filter (line' < ·.line) =
          [.final (Position.start.advanceBy (upper ++ []))] := by
        rw [tokens_eq_concat, body, bodies, ended, List.append_nil ts, List.filter_append, nothing,
          List.nil_append, List.filter_eq_self]
        exact fun t ht => List.mem_singleton.1 ht ▸ decide_eq_true (lt_line_final le)
      rw [one, ofChars, tokens_eq_concat, List.map_append, ← final_of_splitLines le split]
      exact List.self_eq_append_left.trans List.map_eq_nil_iff

/-- A string that is not closed spoils only its line. -/
theorem resumes_of_openString :
    (ofBytes (Text.bytes ":A\n  TEXT $.x DEFAULT 'oops\n  INT $.age\n")).errors = [⟨.openString, 2, 20⟩] ∧
      Text.splitLines 2 ":A\n  TEXT $.x DEFAULT 'oops\n  INT $.age\n".toList =
        (":A\n  TEXT $.x DEFAULT 'oops\n".toList, "  INT $.age\n".toList) ∧
      (ofBytes (Text.bytes ":A\n  TEXT $.x DEFAULT 'oops\n  INT $.age\n")).tokens.filter (2 < ·.line) =
        (ofChars "  INT $.age\n".toList).tokens.map
          (·.shift (Text.encode ":A\n  TEXT $.x DEFAULT 'oops\n".toList).length 2) := by
  have errors : (ofBytes (Text.bytes ":A\n  TEXT $.x DEFAULT 'oops\n  INT $.age\n")).errors =
      [⟨.openString, 2, 20⟩] := by
    rw [ofBytes_bytes]
    decide +kernel
  have split : Text.splitLines 2 ":A\n  TEXT $.x DEFAULT 'oops\n  INT $.age\n".toList =
      (":A\n  TEXT $.x DEFAULT 'oops\n".toList, "  INT $.age\n".toList) := by decide
  have front : ∀ gap after, "  INT $.age\n".toList = gap ++ after → Gap gap after →
      after.head? ≠ some '(' := by
    intro gap after split _ head
    have inside : '(' ∈ "  INT $.age\n".toList := by
      rw [split]
      exact List.mem_append_right _ (List.mem_of_mem_head? head)
    revert inside
    decide
  refine ⟨errors, split, ((resumes_iff (Text.decode?_bytes _) ?_ ?_ split front).2 (by decide)).2 (.inl ?_)⟩
  · exact ⟨_, by rw [errors]; exact List.mem_singleton_self _, rfl⟩
  · rw [errors]
    decide
  · rw [errors]
    decide

/-- An expression that is not closed spoils the lines below it. -/
theorem not_resumes_of_openExpression :
    (ofBytes (Text.bytes "CHECK (\nfoo\n")).errors = [⟨.openExpression, 1, 7⟩] ∧
      Text.splitLines 1 "CHECK (\nfoo\n".toList = ("CHECK (\n".toList, "foo\n".toList) ∧
      (ofBytes (Text.bytes "CHECK (\nfoo\n")).tokens.filter (1 < ·.line) ≠
        (ofChars "foo\n".toList).tokens.map (·.shift (Text.encode "CHECK (\n".toList).length 1) := by
  rw [ofBytes_bytes]
  decide +kernel

end Scan

end ErdSql
