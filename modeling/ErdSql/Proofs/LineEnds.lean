import ErdSql.Proofs.Encoding
import ErdSql.Proofs.LexemeEnds

/-!
# Scanning line by line

What the scanner does with a line depends on the lines above it only through the question whether a
parenthesis opens an expression. So the tokens of two texts, of which the first ends with a line, are
the tokens of the one and the tokens of the other, moved down.

* `Scan.step_append`: a step inside the first text does not see the second one.
* `Scan.scanFrom_append`: the scan of both is the scan of the first, and then that of the second.
* `Scan.scanFrom_shift`: a scan that starts elsewhere gives the same, moved.
* `Scan.ofBytes_append`: the whole outcome.
-/

namespace ErdSql

namespace Scan

/-! ### Steps -/

section Steps
variable {opens : Bool} {c : Char} {cs : List Char}

lemma faultAt_append {before : Nat} (feed : '\n' ∈ cs.drop before) (fault : ScanFault)
    (after : List Char) : faultAt fault before (cs ++ after) = faultAt fault before cs := by
  have short : before ≤ cs.length := by
    by_contra long
    rw [List.drop_eq_nil_of_le (by omega)] at feed
    cases feed
  rw [faultAt, faultAt, List.drop_append_of_le_length short, lineLength_append feed]

lemma listStep_append (feed : '\n' ∈ cs) (after : List Char) :
    listStep (cs ++ after) = listStep cs := by
  have feed' : '\n' ∈ cs.drop 0 := feed
  rw [listStep, listStep, listEnd_append_of_feed feed]
  split
  · next closed => rw [List.take_append_of_le_length (by simpa using (listEnd_le closed).2)]
  · exact faultAt_append feed' _ after
  · exact faultAt_append feed' _ after

lemma exprStep_append (line : EndsLine cs) (closed : exprEnd 0 ['('] none cs ≠ .unclosed)
    (after : List Char) : exprStep (cs ++ after) = exprStep cs := by
  have behind {before : Nat} (h : (exprEnd 0 ['('] none cs).place? = some before) :=
    feed_mem_drop_exprEnd line (by simp) h
  rw [exprStep, exprStep, exprEnd_append line (by simp) closed]
  split
  · next n found =>
    have inside := (exprEnd_le found).2
    rw [List.take_append_of_le_length (by omega)]
  · next found => exact absurd found closed
  · next before found => exact faultAt_append (behind (by rw [found]; rfl)) _ after
  · next before bracket found => exact faultAt_append (behind (by rw [found]; rfl)) _ after

lemma step_of_opens (cs : List Char) : step true '(' cs = exprStep cs := by
  have space : Text.isSpace '(' = false := by decide
  simp [step, space, Cardinality.ofSigil?]

/-- A field name behind a sigil ends on its line. -/
lemma fieldName_append (feed : '\n' ∈ cs) (after : List Char) (dot : cs.head? = some '.') :
    startsName ((cs ++ after).drop 1) = startsName (cs.drop 1) ∧
      nameLength ((cs ++ after).drop 1) = nameLength (cs.drop 1) ∧
      ((cs ++ after).drop 1).take (nameLength (cs.drop 1)) = (cs.drop 1).take (nameLength (cs.drop 1)) := by
  obtain ⟨rest, rfl⟩ := List.head?_eq_some_iff.1 dot
  have behind : '\n' ∈ rest := (List.mem_cons.1 feed).resolve_left (by decide)
  exact ⟨startsName_append_of_feed behind after, nameLength_append_of_feed behind after,
    List.take_append_of_le_length (nameLength_le rest)⟩

/-- A step inside a text that ends with a line does not see what stands behind the text, unless it
looks for the end of an expression in vain. -/
lemma step_append (line : EndsLine (c :: cs))
    (closed : ∀ before more, step opens c cs ≠ .fault .openExpression before more)
    (after : List Char) : step opens c (cs ++ after) = step opens c cs := by
  by_cases space : Text.isSpace c = true
  · rw [step, step, if_pos space, if_pos space]
  have feed : '\n' ∈ cs := line.feed_mem fun h => space (by rw [h]; decide)
  have first : (cs ++ after).head? = cs.head? := List.head?_append_of_ne_nil _ (List.ne_nil_of_mem feed)
  have taken {n : Nat} (h : n ≤ cs.length) : (cs ++ after).take n = cs.take n :=
    List.take_append_of_le_length h
  have feed' : '\n' ∈ cs.drop 0 := feed
  have field : (cs.head? == some '.' && startsName ((cs ++ after).drop 1)) =
      (cs.head? == some '.' && startsName (cs.drop 1)) := by
    by_cases dot : cs.head? = some '.'
    · rw [(fieldName_append feed after dot).1]
    · rw [beq_eq_false_iff_ne.2 dot, Bool.false_and, Bool.false_and]
  unfold step
  rw [if_neg space, if_neg space, first, startsName_append_of_feed feed, Bool.and_assoc, field,
    ← Bool.and_assoc, lineLength_append feed, nameLength_append_of_feed feed]
  dsimp only
  refine ite_congr rfl (fun _ => rfl) fun _ => ?_
  refine ite_congr rfl (fun _ => by rw [taken (nameLength_le cs)]) fun _ => ?_
  refine ite_congr rfl (fun sigil => ?_) fun _ => ?_
  · have dot : cs.head? = some '.' := by simp_all
    rw [(fieldName_append feed after dot).2.1, (fieldName_append feed after dot).2.2]
  refine ite_congr rfl (fun _ => ?_) fun _ => ?_
  · rw [stringLength?_append_of_feed feed]
    split
    · next n found => rw [taken (stringLength?_le found)]
    · exact faultAt_append feed' _ after
  refine ite_congr rfl (fun _ => listStep_append feed after) fun _ => ?_
  refine ite_congr rfl (fun opening => ?_) fun _ => ?_
  · obtain ⟨rfl, rfl⟩ : c = '(' ∧ opens = true := by simpa using opening
    refine exprStep_append line.tail (fun unclosed => closed 0 cs.length ?_) after
    rw [step_of_opens, exprStep, unclosed]
  refine ite_congr rfl (fun _ => by rw [taken (nameLength_le cs)]) fun _ => ?_
  refine ite_congr rfl (fun _ => ?_) fun _ => rfl
  have number := numberLength_le (c :: cs)
  rw [← List.cons_append, numberLength_append_of_feed (List.mem_cons_of_mem c feed), taken]
  rw [List.length_cons] at number
  omega

/-- A step stays inside a text, and so does its fault. -/
def Step.Inside (cs : List Char) : Step → Prop
  | skip more | token _ _ more => more ≤ cs.length
  | fault _ before more => before ≤ more ∧ more ≤ cs.length

lemma lineLength_le (cs : List Char) : lineLength cs ≤ cs.length :=
  (List.takeWhile_sublist _).length_le

lemma inside_faultAt {before : Nat} (h : before ≤ cs.length) (fault : ScanFault) :
    (faultAt fault before cs).Inside cs := by
  have rest := lineLength_le (cs.drop before)
  rw [List.length_drop] at rest
  exact ⟨Nat.le_add_right _ _, by omega⟩

lemma inside_exprStep (cs : List Char) : (exprStep cs).Inside cs := by
  have short {before : Nat} (h : (exprEnd 0 ['('] none cs).place? = some before) :
      before + 1 ≤ cs.length := by
    obtain ⟨c, -, at_, -⟩ := (place_exprEnd h).resolve_left (by simp)
    exact (List.getElem?_eq_some_iff.1 at_).1
  unfold exprStep
  split
  · next found => exact le_of_le_of_eq (exprEnd_le found).2 (Nat.zero_add _)
  · exact ⟨Nat.zero_le _, le_rfl⟩
  · next found => exact inside_faultAt (short (by rw [found]; rfl)) _
  · next found => exact inside_faultAt (short (by rw [found]; rfl)) _

/-- What a step can do: it skips something, makes a token, gives up the line, or reads an expression. -/
lemma step_cases {opens : Bool} {s : Step} (h : step opens c cs = s) :
    (∃ more ≤ cs.length, s = .skip more) ∨ (∃ kind spelling more, s = .token kind spelling more) ∨
      (∃ fault, s = faultAt fault 0 cs) ∨ s = exprStep cs := by
  cases takes_of_step h with
  | space => exact .inl ⟨0, Nat.zero_le _, rfl⟩
  | comment => exact .inl ⟨_, lineLength_le cs, rfl⟩
  | openString => exact .inr (.inr (.inl ⟨_, rfl⟩))
  | openList => exact .inr (.inr (.inl ⟨_, rfl⟩))
  | openExpr _ _ fault => exact .inr (.inr (.inr fault.symm))
  | _ => exact .inr (.inl ⟨_, _, _, rfl⟩)

/-- Behind a token its line ends. -/
lemma feed_mem_of_step {kind : Token.Kind} {spelling : String} {more : Nat} (line : EndsLine (c :: cs))
    (h : step opens c cs = .token kind spelling more) : '\n' ∈ cs.drop more := by
  have noFeed : c ≠ '\n' := by
    rintro rfl
    have space : step opens '\n' cs = .skip 0 := by rw [step, if_pos (by decide)]
    rw [space] at h
    cases h
  have feed : '\n' ∈ cs := line.feed_mem noFeed
  cases takes_of_step h with
  | entity => exact feed_mem_drop_nameLength feed
  | field _ behind =>
    rw [behind] at feed ⊢
    exact feed_mem_drop_nameLength ((List.mem_cons.1 feed).resolve_left (by decide))
  | string _ found => exact feed_mem_drop_stringLength? feed found
  | list _ closed => exact feed_mem_drop_listEnd feed closed
  | expr _ _ closed =>
    have closes := (exprEnd_le closed).1
    have place : (exprEnd 0 ['('] none cs).place? = some (more - 1) := by
      rw [closed]
      rfl
    have behind := feed_mem_drop_exprEnd line.tail (by simp) place
    rwa [show more - 1 + 1 - 0 = more by omega] at behind
  | keyword => exact feed_mem_drop_nameLength feed
  | identifier => exact feed_mem_drop_nameLength feed
  | number =>
    have behind := feed_mem_drop_numberLength (List.mem_cons_of_mem c feed)
    cases length : numberLength (c :: cs) with
    | zero => exact feed
    | succ n => rwa [length] at behind
  | symbol => exact feed

lemma inside_step (opens : Bool) (c : Char) (cs : List Char) : (step opens c cs).Inside cs := by
  generalize found : step opens c cs = s
  rcases step_cases found with ⟨more, short, rfl⟩ | ⟨kind, spelling, more, rfl⟩ | ⟨fault, rfl⟩ | rfl
  · exact short
  · exact (inside_of_step found).1
  · exact inside_faultAt (Nat.zero_le _) fault
  · exact inside_exprStep cs

end Steps

/-! ### Scans -/

/-- A text ends where its rest ends. -/
lemma advanceBy_take_drop (p : Position) (c : Char) (cs : List Char) (more : Nat) :
    (p.advanceBy (c :: cs.take more)).advanceBy (cs.drop more) = p.advanceBy (c :: cs) := by
  rw [← Position.advanceBy_append, List.cons_append, List.take_append_drop]

/-- Whether a parenthesis behind some tokens opens an expression; `opens` says it for no tokens. -/
def opensAfter (opens : Bool) (ts : List Token) : Bool :=
  (ts.getLast?.map fun t => opensExpr t.kind t.spelling).getD opens

/-- The tokens of a scan but the one that marks the end. -/
def body (scan : Scan) : List Token :=
  scan.tokens.dropLast

/-- One scan and then another one, which goes on where the first one ends. -/
def followedBy (first last : Scan) : Scan :=
  ⟨first.body ++ last.tokens, first.errors ++ last.errors⟩

lemma tokens_scanFrom_ne_nil (opens : Bool) (p : Position) (cs : List Char) :
    (scanFrom opens p cs).tokens ≠ [] := by
  fun_induction scanFrom opens p cs with
  | case1 => simp
  | case2 opens p c cs more _ ih => exact ih
  | case3 => simp
  | case4 opens p c cs fault before more _ place rest ih => exact ih

lemma opensAfter_cons (opens : Bool) (t : Token) (ts : List Token) :
    opensAfter opens (t :: ts) = opensAfter (opensExpr t.kind t.spelling) ts := by
  cases ts with
  | nil => rfl
  | cons u us =>
    rw [opensAfter, opensAfter, List.getLast?_cons_cons, List.getLast?_eq_some_getLast (by simp)]
    rfl

/-- Behind a text that ends with a line, and that leaves no expression open, scanning goes on as at the
start of a text. -/
lemma scanFrom_append {opens : Bool} {p : Position} {cs : List Char} (line : EndsLine cs)
    (closed : ∀ e ∈ (scanFrom opens p cs).errors, e.fault ≠ .openExpression) (after : List Char) :
    scanFrom opens p (cs ++ after) = (scanFrom opens p cs).followedBy
      (scanFrom (opensAfter opens (scanFrom opens p cs).body) (p.advanceBy cs) after) := by
  fun_induction scanFrom opens p cs with
  | case1 opens p => rfl
  | case2 opens p c cs more found ih =>
    have short : more ≤ cs.length := by
      have := inside_step opens c cs
      rwa [found] at this
    have same : step opens c (cs ++ after) = .skip more := by
      rw [step_append line (by simp [found]), found]
    rw [List.cons_append, scanFrom, same]
    dsimp only
    rw [List.take_append_of_le_length short, List.drop_append_of_le_length short,
      ih (line.drop (more + 1)) closed, advanceBy_take_drop]
  | case3 opens p c cs kind spelling more found next token rest ih =>
    have short : more ≤ cs.length := (inside_of_step found).1
    have same : step opens c (cs ++ after) = .token kind spelling more := by
      rw [step_append line (by simp [found]), found]
    rw [List.cons_append, scanFrom, same]
    dsimp only
    rw [List.take_append_of_le_length short, List.drop_append_of_le_length short,
      ih (line.drop (more + 1)) closed, advanceBy_take_drop, followedBy, followedBy, body, body,
      List.dropLast_cons_of_ne_nil (tokens_scanFrom_ne_nil _ _ _), opensAfter_cons]
    rfl
  | case4 opens p c cs fault before more found place rest ih =>
    have short := inside_step opens c cs
    rw [found] at short
    have same : step opens c (cs ++ after) = .fault fault before more := by
      rw [step_append line, found]
      intro b m unclosed
      rw [found] at unclosed
      cases unclosed
      exact closed _ List.mem_cons_self rfl
    have ih := ih (line.drop (more + 1)) fun e he => closed e (List.mem_cons_of_mem _ he)
    rw [List.cons_append, scanFrom, same]
    dsimp only
    rw [List.take_append_of_le_length short.2, List.drop_append_of_le_length short.2, ih,
      advanceBy_take_drop, ← List.cons_append,
      List.take_append_of_le_length (Nat.le_succ_of_le (short.1.trans short.2))]
    rfl

end Scan

/-! ### Texts further down -/

/-- A place so many bytes and lines further down. -/
def Position.shift (bytes lines : Nat) (p : Position) : Position :=
  ⟨p.offset + bytes, p.line + lines, p.column⟩

/-- A token so many bytes and lines further down. -/
def Token.shift (bytes lines : Nat) (t : Token) : Token :=
  { t with
    line := t.line + lines
    offset := t.offset + bytes
    stop := t.stop + bytes
    endLine := t.endLine + lines }

/-- A fault so many lines further down. -/
def ScanError.shift (lines : Nat) (e : ScanError) : ScanError :=
  { e with line := e.line + lines }

/-- A scan so many bytes and lines further down. -/
def Scan.shift (bytes lines : Nat) (scan : Scan) : Scan :=
  ⟨scan.tokens.map (·.shift bytes lines), scan.errors.map (·.shift lines)⟩

namespace Position

variable (bytes lines : Nat) (p : Position)

lemma shift_advance (c : Char) : (p.shift bytes lines).advance c = (p.advance c).shift bytes lines := by
  unfold advance
  split
  · simp only [shift, mk.injEq, and_true]
    omega
  · simp only [shift, mk.injEq, and_true]
    omega

lemma shift_advanceBy (cs : List Char) :
    (p.shift bytes lines).advanceBy cs = (p.advanceBy cs).shift bytes lines := by
  induction cs generalizing p with
  | nil => rfl
  | cons c cs ih =>
    change ((p.shift bytes lines).advance c).advanceBy cs = ((p.advance c).advanceBy cs).shift bytes lines
    rw [shift_advance, ih]

/-- Where a text that ends with a line starts, the next one starts with a new line. -/
lemma advanceBy_of_endsLine {cs : List Char} (line : Scan.EndsLine cs) (ne : cs ≠ []) :
    p.advanceBy cs = ⟨p.offset + Text.byteSize cs, p.line + cs.count '\n', 1⟩ := by
  obtain ⟨above, c, rfl⟩ : ∃ above c, cs = above ++ [c] :=
    ⟨_, _, (List.dropLast_append_getLast ne).symm⟩
  obtain rfl : c = '\n' := line c List.getLast?_concat
  have column : (p.advanceBy (above ++ ['\n'])).column = 1 := by
    rw [advanceBy_append]
    rfl
  rw [← Document.offset_advanceBy, ← line_advanceBy, ← column]

end Position

namespace Scan

lemma scanFrom_shift (bytes lines : Nat) (opens : Bool) (p : Position) (cs : List Char) :
    scanFrom opens (p.shift bytes lines) cs = (scanFrom opens p cs).shift bytes lines := by
  fun_induction scanFrom opens p cs with
  | case1 opens p =>
    rw [scanFrom]
    rfl
  | case2 opens p c cs more found ih =>
    rw [scanFrom, found]
    dsimp only
    rw [Position.shift_advanceBy, ih]
  | case3 opens p c cs kind spelling more found next token rest ih =>
    rw [scanFrom, found]
    dsimp only
    rw [Position.shift_advanceBy, ih]
    rfl
  | case4 opens p c cs fault before more found place rest ih =>
    rw [scanFrom, found]
    dsimp only
    rw [Position.shift_advanceBy, Position.shift_advanceBy, ih]
    rfl

/-- Only in front of a parenthesis it matters whether one opens an expression. -/
lemma step_of_ne {c : Char} {cs : List Char} (ne : c ≠ '(') (opens : Bool) :
    step opens c cs = step false c cs := by
  simp [step, ne]

lemma step_parenthesis (cs : List Char) : step false '(' cs = .token .symbol "(" 0 :=
  step_mark (by decide) cs

/-- Where the first token is no parenthesis, it does not matter whether one opens an expression. -/
lemma scanFrom_of_head {p : Position} {cs : List Char}
    (h : ∀ t ∈ (scanFrom false p cs).tokens.head?, t.isSymbol '(' = false) (opens : Bool) :
    scanFrom opens p cs = scanFrom false p cs := by
  generalize e : false = closed at h ⊢
  fun_induction scanFrom closed p cs with
  | case1 => rw [scanFrom]
  | case2 closed p c cs more found ih =>
    subst e
    have other : c ≠ '(' := by
      rintro rfl
      rw [step_parenthesis] at found
      cases found
    rw [scanFrom, step_of_ne other, found]
    exact ih rfl h
  | case3 closed p c cs kind spelling more found next token rest ih =>
    subst e
    have other : c ≠ '(' := by
      rintro rfl
      rw [step_parenthesis] at found
      cases found
      exact absurd (h _ rfl) (by simp [token, Token.isSymbol])
    rw [scanFrom, step_of_ne other, found]
  | case4 closed p c cs fault before more found place rest ih =>
    subst e
    have other : c ≠ '(' := by
      rintro rfl
      rw [step_parenthesis] at found
      cases found
    rw [scanFrom, step_of_ne other, found]
    dsimp only
    rw [ih rfl h]

lemma ofBytes_bytes (s : String) : ofBytes (Text.bytes s) = ofChars s.toList := by
  rw [ofBytes, Text.decode?_bytes]

lemma length_encode (cs : List Char) : (Text.encode cs).length = Text.byteSize cs := by
  induction cs with
  | nil => rfl
  | cons c cs ih =>
    rw [Document.byteSize_cons, ← ih, Text.encode, List.flatMap_cons, List.length_append,
      String.length_utf8EncodeChar]
    rfl

lemma opensExpr_eq_false {t : Token} (check : t.kind ≠ .keyword .check)
    (word : t.isWord "USING" = false) : opensExpr t.kind t.spelling = false := by
  unfold opensExpr
  split
  · next kind => exact absurd kind check
  · next kind => simpa [Token.isWord, kind] using word
  · rfl

lemma opensAfter_eq_false {ts : List Token}
    (h : ∀ t ∈ ts.getLast?, t.kind ≠ .keyword .check ∧ t.isWord "USING" = false) :
    opensAfter false ts = false := by
  rw [opensAfter]
  cases last : ts.getLast? with
  | none => rfl
  | some t =>
    obtain ⟨check, word⟩ := h t last
    exact opensExpr_eq_false check word

/-- The scan of a text that ends with a line and of another one behind it. -/
lemma ofChars_append {cs ds : List Char} (line : cs.getLast? = some '\n')
    (closed : ∀ e ∈ (ofChars cs).errors, e.fault ≠ .openExpression)
    (apart : (∀ t ∈ (ofChars cs).body.getLast?, t.kind ≠ .keyword .check ∧ t.isWord "USING" = false) ∨
      ∀ t ∈ (ofChars ds).tokens.head?, t.isSymbol '(' = false) :
    ofChars (cs ++ ds) =
      (ofChars cs).followedBy ((ofChars ds).shift (Text.byteSize cs) (cs.count '\n')) := by
  have ends := EndsLine.of_getLast? line
  have ne : cs ≠ [] := by
    rintro rfl
    cases line
  -- the second text starts where a document starts, only further down
  have moved : Position.start.advanceBy cs = Position.start.shift (Text.byteSize cs) (cs.count '\n') := by
    rw [Position.advanceBy_of_endsLine _ ends ne]
    rfl
  rw [ofChars, scanFrom_append ends closed, moved, scanFrom_shift]
  congr 2
  obtain last | first := apart
  · exact congrArg (scanFrom · .start ds) (opensAfter_eq_false last)
  · exact scanFrom_of_head first _

/-- **Scanning composes at line ends.** If a text ends with a line and leaves no expression open, then
the text with another one behind it is scanned as the two of them on their own, unless the first one
ends with a word in front of an expression and the first token of the other one is a parenthesis. -/
theorem ofBytes_append {a b : String} (line : a.toList.getLast? = some '\n')
    (closed : ∀ e ∈ (ofBytes (Text.bytes a)).errors, e.fault ≠ .openExpression)
    (apart : (∀ t ∈ (ofBytes (Text.bytes a)).body.getLast?,
        t.kind ≠ .keyword .check ∧ t.isWord "USING" = false) ∨
      ∀ t ∈ (ofBytes (Text.bytes b)).tokens.head?, t.isSymbol '(' = false) :
    ofBytes (Text.bytes (a ++ b)) = (ofBytes (Text.bytes a)).followedBy
      ((ofBytes (Text.bytes b)).shift (Text.bytes a).length (a.toList.count '\n')) := by
  rw [ofBytes_bytes] at closed
  rw [ofBytes_bytes, ofBytes_bytes] at apart
  rw [ofBytes_bytes, ofBytes_bytes, ofBytes_bytes, String.toList_append, Text.bytes, length_encode]
  exact ofChars_append line closed apart

theorem ofBytes_append_using :
    ofBytes (Text.bytes ("INDEX i ON t 'é\n  USING -- [\n" ++ "btree (\n[1, 2\nCHECK (\n)")) =
      (ofBytes (Text.bytes "INDEX i ON t 'é\n  USING -- [\n")).followedBy
        ((ofBytes (Text.bytes "btree (\n[1, 2\nCHECK (\n)")).shift 30 2) :=
  ofBytes_append (by decide +kernel) (by rw [ofBytes_bytes]; decide +kernel)
    (.inr (by rw [ofBytes_bytes]; decide +kernel))

/-- A string that is not closed is skipped with its line, so the word in front of it can still reach a
parenthesis on the line below. -/
theorem ofBytes_append_skipped :
    "CHECK\n".toList.getLast? = some '\n' ∧ (ofBytes (Text.bytes "CHECK\n")).errors = [] ∧
      "'x\n(y)\n".toList.head? = some '\'' ∧
      ofBytes (Text.bytes ("CHECK\n" ++ "'x\n(y)\n")) ≠ (ofBytes (Text.bytes "CHECK\n")).followedBy
        ((ofBytes (Text.bytes "'x\n(y)\n")).shift (Text.bytes "CHECK\n").length
          ("CHECK\n".toList.count '\n')) := by
  rw [ofBytes_bytes, ofBytes_bytes, ofBytes_bytes, String.toList_append]
  decide +kernel

end Scan

end ErdSql
