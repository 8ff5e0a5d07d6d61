import ErdSql.Proofs.Faultless
import ErdSql.Proofs.Snippets
import ErdSql.Proofs.SourceOrder

/-!
# Places within a text

Whatever is read from a text, and whatever is wrong with it, has a line of the text. This goes for the
empty token behind the last one of a line, which stands where no character is, and for spans, which keep
the place of their first token.

* `Scan.within_ofBytes`: the tokens and faults of a document.
* `Document.Keeps`: from a place within a text a reader goes on within it, whether it gives a value or an
  error.
* `Document.within_readStatement`: the statement that a group of tokens gives, and its errors.
* `Compilation.within_read`: the statements of a document, and its errors.
-/

namespace ErdSql

/-- A line of a text of `n` lines and a column, which may be behind the end of the line. -/
structure InText (n : Nat) (line column : Int) : Prop where
  first : 1 ≤ line
  last : line ≤ n
  column : 1 ≤ column

def Token.Within (n : Nat) (t : Token) : Prop := InText n t.line t.column

def ScanError.Within (n : Nat) (e : ScanError) : Prop := InText n e.line e.column

def Document.ParseError.Within (n : Nat) (e : ParseError) : Prop := InText n e.line e.column

def Span.Within (n : Nat) (s : Span) : Prop := InText n s.startLine s.startColumn

variable {n : Nat}

namespace Token.Within

variable {t : Token} (h : t.Within n)
include h

/-- The token behind another one is on the line that the other one starts on. -/
lemma behind : t.behind.Within n :=
  ⟨h.first, h.last, h.column.trans (Int.ofNat_le.2 (Nat.le_add_right _ _))⟩

lemma span : t.span.Within n := h

lemma between (u : Token) : (Span.between t u).Within n := by
  obtain ⟨line, column⟩ := Span.opensAt_between t u
  rw [Span.Within, line, column]
  exact h

end Token.Within

/-- A span within a text stays there however far it is stretched. -/
lemma Span.Within.extend {s : Span} (h : s.Within n) (t : Token) : (s.extend t).Within n := by
  have somewhere : ¬(s.startLine == 0 && s.startColumn == 0) = true := by
    have first := h.first
    simp only [Bool.and_eq_true, beq_iff_eq]
    omega
  rw [Span.extend, cover, if_neg somewhere]
  split
  · exact h
  · exact h

/-! ### Tokens and faults -/

namespace Scan

/-- The places of a text are on the lines that its line feeds make. -/
lemma within_scanFrom (opens : Bool) {p : Position} {cs : List Char} (first : 1 ≤ p.line)
    (column : p.column ≠ 0) (last : p.line + cs.count '\n' ≤ n) :
    (∀ t ∈ (scanFrom opens p cs).tokens, t.Within n) ∧ ∀ e ∈ (scanFrom opens p cs).errors, e.Within n := by
  have here {p : Position} (first : 1 ≤ p.line) (column : p.column ≠ 0) (last : p.line ≤ n) :
      InText n p.line p.column := ⟨by omega, by omega, by omega⟩
  -- a step takes the line feeds of what it passes over to the place
  have passed (p : Position) (c : Char) (cs : List Char) (more : Nat) :
      (p.advanceBy (c :: cs.take more)).line + (cs.drop more).count '\n' = p.line + (c :: cs).count '\n' := by
    rw [Position.line_advanceBy, Nat.add_assoc, ← List.count_append, List.cons_append,
      List.take_append_drop]
  fun_induction scanFrom opens p cs with
  | case1 opens p =>
    exact ⟨List.forall_mem_singleton.2 (here first column (by simpa using last)), List.forall_mem_nil _⟩
  | case2 opens p c cs more _ ih =>
    exact ih (first.trans (Position.line_le_advanceBy p _)) (Position.column_advanceBy_ne_zero column _)
      ((passed p c cs more).trans_le last)
  | case3 opens p c cs kind spelling more _ next token rest ih =>
    obtain ⟨tokens, errors⟩ := ih (first.trans (Position.line_le_advanceBy p _))
      (Position.column_advanceBy_ne_zero column _) ((passed p c cs more).trans_le last)
    exact ⟨List.forall_mem_cons.2 ⟨here first column (by omega), tokens⟩, errors⟩
  | case4 opens p c cs fault before more _ place rest ih =>
    obtain ⟨tokens, errors⟩ := ih (first.trans (Position.line_le_advanceBy p _))
      (Position.column_advanceBy_ne_zero column _) ((passed p c cs more).trans_le last)
    have found : place.line ≤ n := by
      have part := ((c :: cs).take_sublist before).count_le '\n'
      have line : place.line = _ := Position.line_advanceBy p ((c :: cs).take before)
      omega
    exact ⟨tokens, List.forall_mem_cons.2 ⟨here (first.trans (Position.line_le_advanceBy p _))
      (Position.column_advanceBy_ne_zero column _) found, errors⟩⟩

/-- **Tokens and faults are within the document**: on a line that its line feeds make, at a column from
one on. -/
lemma within_ofBytes (src : List UInt8) :
    (∀ t ∈ (ofBytes src).tokens, t.Within (1 + src.count (Text.ascii '\n'))) ∧
      ∀ e ∈ (ofBytes src).errors, e.Within (1 + src.count (Text.ascii '\n')) := by
  unfold ofBytes
  cases valid : Text.decode? src with
  | none =>
    refine ⟨List.forall_mem_nil _, List.forall_mem_singleton.2 ⟨le_rfl, ?_, le_rfl⟩⟩
    exact Int.ofNat_le.2 (Nat.le_add_right _ _)
  | some cs =>
    rw [← Text.encode_of_decode? valid, Text.count_feed_encode]
    exact within_scanFrom false le_rfl (by decide) le_rfl

end Scan

namespace Document

/-! ### Readers -/

/-- A place among tokens of a text. -/
structure Cursor.Within (n : Nat) (c : Cursor) : Prop where
  previous : c.previous.Within n
  rest : ∀ t ∈ c.rest, t.Within n

lemma getLast?_getD_within {t : Token} {ts : List Token} (first : t.Within n) (rest : ∀ u ∈ ts, u.Within n) :
    (ts.getLast?.getD t).Within n := by
  cases last : ts.getLast? with
  | none => exact first
  | some u => exact rest u (List.mem_of_getLast? last)

namespace Cursor.Within

variable {c : Cursor} (h : c.Within n)
include h

lemma current : c.current.Within n := by
  obtain ⟨previous, rest, atEnd⟩ := c
  cases rest with
  | nil => exact h.previous.behind
  | cons t ts => exact h.rest t List.mem_cons_self

lemma skip : c.skip.Within n := by
  obtain ⟨previous, rest, atEnd⟩ := c
  cases rest with
  | nil => exact h
  | cons t ts =>
    obtain ⟨here, others⟩ := List.forall_mem_cons.1 h.rest
    exact ⟨here, others⟩

lemma skipAll : c.skipAll.Within n :=
  ⟨getLast?_getD_within h.previous h.rest, List.forall_mem_nil _⟩

lemma error (expected : Expected) : (c.error expected).Within n := h.current

end Cursor.Within

section Outcomes
variable {α : Type} {Q : α → Prop}

/-- An outcome within a text: a value with a property at a place of the text, or an error that is one. -/
def Parsed.Within (n : Nat) (Q : α → Prop) : Parsed α → Prop
  | .ok a after => Q a ∧ after.Within n
  | .error e _ => e.Within n

/-- From a place within a text a reader goes on within it. -/
def Keeps (n : Nat) (Q : α → Prop) (p : Parser α) : Prop :=
  ∀ c : Cursor, c.Within n → (p c).Within n Q

end Outcomes

namespace Keeps

open ErdSql.Document.Parser (commaList repeatToEnd)

variable {α β : Type} {Q : α → Prop} {R : β → Prop} {p q : Parser α}

section
variable {c after stopped : Cursor} {a : α} {e : ParseError} (h : Keeps n Q p) (place : c.Within n)
include h place

lemma of_ok (read : p c = .ok a after) : Q a ∧ after.Within n := by
  have outcome := h c place
  rwa [read] at outcome

lemma of_error (read : p c = .error e stopped) : e.Within n := by
  have outcome := h c place
  rwa [read] at outcome

end

lemma pure {a : α} (h : Q a) : Keeps n Q (Pure.pure a) :=
  fun _ place => ⟨h, place⟩

lemma bind {f : α → Parser β} (first : Keeps n Q p) (last : ∀ a, Q a → Keeps n R (f a)) :
    Keeps n R (p >>= f) := by
  intro c place
  change (Parser.bind p f c).Within n R
  rw [Parser.bind]
  cases read : p c with
  | ok a after =>
    obtain ⟨value, behind⟩ := first.of_ok place read
    exact last a value after behind
  | error e stopped => exact first.of_error place read

lemma ite {b : Bool} (yes : Keeps n Q p) (no : Keeps n Q q) : Keeps n Q (if b then p else q) := by
  cases b
  · exact no
  · exact yes

lemma peek : Keeps n (·.Within n) Parser.peek :=
  fun _ place => ⟨place.current, place⟩

lemma next : Keeps n (·.Within n) Parser.next :=
  fun _ place => ⟨place.current, place.skip⟩

lemma previous : Keeps n (·.Within n) Parser.previous :=
  fun _ place => ⟨place.previous, place⟩

lemma remaining : Keeps n (fun _ => True) Parser.remaining :=
  fun _ place => ⟨trivial, place⟩

lemma skipAll : Keeps n (fun _ => True) Parser.skipAll :=
  fun _ place => ⟨trivial, place.skipAll⟩

lemma sees (test : Token → Bool) : Keeps n (fun _ => True) (Parser.sees test) :=
  fun _ place => ⟨trivial, place⟩

lemma done : Keeps n (fun _ => True) Parser.done :=
  fun _ place => ⟨trivial, place⟩

lemma fail (expected : Expected) : Keeps n Q (Parser.fail expected) :=
  fun _ place => place.error expected

lemma failAt {t : Token} (h : t.Within n) (expected : Expected) (found : Found) :
    Keeps n Q (Parser.failAt t expected found) :=
  fun _ _ => h

lemma satisfy (test : Token → Bool) (expected : Expected) :
    Keeps n (·.Within n) (Parser.satisfy test expected) := by
  intro c place
  unfold Parser.satisfy
  split
  · exact ⟨place.current, place.skip⟩
  · exact place.error expected

lemma finish (expected : Expected) : Keeps n (fun _ => True) (Parser.finish expected) := by
  intro c place
  unfold Parser.finish
  split
  · exact ⟨trivial, place⟩
  · exact place.error expected

/-- Readers that go on as a test tells them. -/
lemma branch (test : Token → Bool) (yes : Keeps n Q p) (no : Keeps n Q q) :
    Keeps n Q (Parser.sees test >>= fun b => if b then p else q) :=
  .bind (.sees test) fun _ _ => .ite yes no

/-- A token may be passed over. -/
lemma skipIf {b : Bool} (h : Keeps n Q p) : Keeps n Q (if b then Parser.next >>= fun _ => p else p) :=
  .ite (.bind next fun _ _ => h) h

/-- A value that goes from a token of the text to the last one that is read. -/
lemma spanned {head : Token} (marker : head.Within n) {view : α → Span} {make : Span → α}
    (spans : ∀ s, view (make s) = s) :
    Keeps n (fun a => (view a).Within n)
      (Parser.previous >>= fun last => Pure.pure (make (Span.between head last))) :=
  .bind previous fun last _ => .pure (by rw [spans]; exact marker.between last)

/-- The parenthesis that closes a list is of the text as well. -/
lemma commaList (item : Keeps n Q p) (unfinished : Expected) :
    Keeps n (fun r => r.2.Within n) (commaList p unfinished) := by
  intro c place
  fun_induction Parser.commaList p unfinished c with
  | case1 c e stopped read => exact item.of_error place read
  | case2 c a after read _ _ as close stop others ih =>
    have more := ih (item.of_ok place read).2.skip
    rwa [others] at more
  | case3 c a after read _ _ e stopped others ih =>
    have more := ih (item.of_ok place read).2.skip
    rwa [others] at more
  | case4 c a after read => exact (item.of_ok place read).2.error unfinished
  | case5 c a after read =>
    obtain ⟨-, behind⟩ := item.of_ok place read
    exact ⟨behind.current, behind.skip⟩
  | case6 c a after read => exact (item.of_ok place read).2.error unfinished

lemma repeatToEnd {step : α → Parser α} (turn : ∀ a, Q a → Keeps n Q (step a)) {a : α} (start : Q a) :
    Keeps n Q (repeatToEnd step a) := by
  intro c place
  fun_induction Parser.repeatToEnd step a c with
  | case1 => exact ⟨start, place⟩
  | case2 a c _ b after read _ ih =>
    obtain ⟨value, behind⟩ := (turn a start).of_ok place read
    exact ih value behind
  | case3 a c _ b after read => exact (turn a start).of_ok place read
  | case4 a c _ e stopped read => exact (turn a start).of_error place read

end Keeps

section Readers
variable {src : Source}

lemma keeps_balanced : Keeps n (·.Within n) balanced := by
  intro c place
  unfold balanced
  cases found : balancedEnd 0 c.rest with
  | none => exact place.skipAll.error _
  | some r =>
    have sub := (balancedEnd_suffix found).subset
    obtain ⟨close, behind⟩ :=
      List.forall_mem_cons.1 fun t (ht : t ∈ r.1 :: r.2) => place.rest t (sub ht)
    exact ⟨close, close, behind⟩

lemma keeps_literal : Keeps n (fun _ => True) (literal src) := by
  refine .bind .peek fun t _ => ?_
  split
  iterate 4 exact .bind .next fun _ _ => .pure trivial
  · refine .bind .next fun _ _ => .branch _ ?_ ?_
    · exact .bind keeps_balanced fun _ _ => .pure trivial
    · exact .pure trivial
  · refine .bind .remaining fun ts _ => ?_
    split
    · exact .ite (.bind .next fun _ _ => .bind .next fun _ _ => .pure trivial) (.fail _)
    · exact .fail _

lemma keeps_typeArguments : Keeps n (fun r => r.2.Within n) (typeArguments src) :=
  .bind .next fun _ _ => .branch _ (.bind .next fun _ close => .pure close)
    (.commaList keeps_literal _)

lemma keeps_nameList (item : ListItem) : Keeps n (fun _ => True) (nameList item) :=
  .bind (.satisfy _ _) fun _ _ => .branch _ (.bind .next fun _ _ => .pure trivial)
    (.bind (.commaList (.satisfy _ _) _) fun _ _ => .pure trivial)

lemma keeps_constraint : Keeps n (·.span.Within n) (constraint src) := by
  refine .bind .peek fun t _ => ?_
  split
  · exact .bind .next fun _ first => .pure first.span
  · exact .bind .next fun _ first => .pure first.span
  · exact .bind .next fun _ first => .bind (.satisfy _ _) fun null _ => .pure (first.between null)
  · exact .bind .next fun _ first => .bind keeps_literal fun _ _ =>
      .bind .previous fun last _ => .pure (first.between last)
  · refine .bind .next fun _ first => .branch _ ?_ (.pure first.span)
    exact .bind .next fun _ _ => .bind (.satisfy _ _) fun _ _ => .bind (.satisfy _ _) fun close _ =>
      .pure (first.between close)
  · exact .bind .next fun _ first => .bind (.satisfy _ _) fun e _ => .pure (first.between e)
  · exact .fail _
  · exact .fail _

/-- The constraints of a field, the span that covers them, and the fault that ends them. -/
lemma within_constraints (src : Source) {c : Cursor} (place : c.Within n) {span : Span} (start : span.Within n) :
    (∀ k ∈ (constraints src span c).1, k.span.Within n) ∧ (constraints src span c).2.1.Within n ∧
      ∀ e ∈ (constraints src span c).2.2.1, e.Within n := by
  fun_induction constraints src span c with
  | case1 => exact ⟨List.forall_mem_nil _, start, by rintro _ ⟨⟩⟩
  | case2 span c _ e stopped read =>
    refine ⟨List.forall_mem_nil _, start, ?_⟩
    rintro _ ⟨⟩
    exact keeps_constraint.of_error place read
  | case3 span c _ k after read _ ks all fault stopped more ih =>
    obtain ⟨here, behind⟩ := keeps_constraint.of_ok place read
    have others := ih behind (start.extend after.previous)
    rw [more] at others
    exact ⟨List.forall_mem_cons.2 ⟨here, others.1⟩, others.2⟩
  | case4 span c _ k after read =>
    obtain ⟨here, behind⟩ := keeps_constraint.of_ok place read
    exact ⟨List.forall_mem_singleton.2 here, start.extend _, by rintro _ ⟨⟩⟩

lemma keeps_fieldName : Keeps n (fun x => x.1.Within n) fieldName := by
  refine .bind .peek fun t first => ?_
  split
  · exact .bind .next fun _ named => .pure named
  · exact .ite (.bind .next fun _ _ _ _ => first) (.fail _)

/-- A field within a text: it starts there, and so do its type and its constraints. -/
structure Field.Within (n : Nat) (f : Field) : Prop where
  span : f.span.Within n
  type : f.type.span.Within n
  constraints : ∀ k ∈ f.constraints, k.span.Within n

lemma keeps_fieldHead : Keeps n (·.Within n) (fieldHead src) := by
  refine .bind .peek fun start first => .bind (.sees _) fun _ _ => .skipIf ?_
  refine .bind (.satisfy _ _) fun type typed => .branch _ ?_ ?_
  · exact .bind keeps_typeArguments fun args _ => .bind keeps_fieldName fun named _ =>
      .pure ⟨first.between named.1, typed.between args.2, List.forall_mem_nil _⟩
  · exact .bind keeps_fieldName fun named _ =>
      .pure ⟨first.between named.1, typed.span, List.forall_mem_nil _⟩

/-! ### Lines of an entity -/

/-- What a line of a text contributes. -/
def LineItem.Within (n : Nat) : LineItem → Prop
  | field f => f.Within n
  | key k => k.span.Within n
  | directive d => d.span.Within n

/-- What is read of a line of a text, and what is wrong with it. -/
structure LineResult.Within (n : Nat) (r : LineResult) : Prop where
  item : ∀ i ∈ r.item, i.Within n
  fault : ∀ e ∈ r.fault, e.Within n

namespace LineResult.Within

variable {r : LineResult} (h : r.Within n)
include h

lemma field? : ∀ f ∈ r.field?, f.Within n := by
  unfold LineResult.field?
  split
  · next f item =>
    rintro _ ⟨⟩
    exact h.item _ item
  · rintro _ ⟨⟩

lemma key? : ∀ k ∈ r.key?, k.span.Within n := by
  unfold LineResult.key?
  split
  · next k item =>
    rintro _ ⟨⟩
    exact h.item _ item
  · rintro _ ⟨⟩

lemma directive? : ∀ d ∈ r.directive?, d.span.Within n := by
  unfold LineResult.directive?
  split
  · next d item =>
    rintro _ ⟨⟩
    exact h.item _ item
  · rintro _ ⟨⟩

end LineResult.Within

lemma LineResult.within_ofParsed {α : Type} {Q : α → Prop} {p : Parser α} {c : Cursor} {wrap : α → LineItem}
    (read : Keeps n Q p) (wraps : ∀ a, Q a → (wrap a).Within n) (place : c.Within n) :
    (ofParsed wrap (p c)).Within n := by
  cases result : p c with
  | ok a after =>
    refine ⟨?_, by rintro _ ⟨⟩⟩
    rintro _ ⟨⟩
    exact wraps a (read.of_ok place result).1
  | error e stopped =>
    refine ⟨by rintro _ ⟨⟩, ?_⟩
    rintro _ ⟨⟩
    exact read.of_error place result

lemma within_fieldLine {c : Cursor} (place : c.Within n) : (fieldLine src c).Within n := by
  unfold fieldLine
  cases read : fieldHead src c with
  | error e stopped =>
    refine ⟨by rintro _ ⟨⟩, ?_⟩
    rintro _ ⟨⟩
    exact keeps_fieldHead.of_error place read
  | ok f after =>
    obtain ⟨head, behind⟩ := keeps_fieldHead.of_ok place read
    obtain ⟨all, span, fault⟩ := within_constraints src behind head.span
    refine ⟨?_, fault⟩
    rintro _ ⟨⟩
    exact ⟨span, head.type, all⟩

lemma keeps_keyLine (key : List String → Key) : Keeps n (·.span.Within n) (keyLine key) := by
  refine .bind .next fun t first => .branch _ ?_ (.fail _)
  exact .bind (keeps_nameList _) fun _ _ => .bind (.finish _) fun _ _ => .spanned first fun _ => rfl

lemma keeps_checkLine : Keeps n (·.span.Within n) checkLine :=
  .bind .next fun _ first => .bind (.satisfy _ _) fun e _ => .bind (.finish _) fun _ _ =>
    .pure (first.between e)

lemma keeps_policyClause (p : Policy) : Keeps n (fun _ => True) (policyClause p) := by
  refine .branch _ ?_ (.branch _ ?_ (.branch _ ?_ (.branch _ ?_ (.fail _))))
  · exact .bind .next fun _ _ => .bind (.satisfy _ _) fun _ _ => .pure trivial
  · exact .bind .next fun _ _ => .bind (.satisfy _ _) fun _ _ => .pure trivial
  · exact .bind .next fun _ _ => .bind (.satisfy _ _) fun _ _ => .pure trivial
  · exact .bind .next fun _ _ => .bind (.satisfy _ _) fun _ _ => .bind (.satisfy _ _) fun _ _ =>
      .pure trivial

lemma keeps_feature (keyword : Keyword) : Keeps n (fun _ => True) (feature src keyword) := by
  unfold feature
  split
  · exact .bind (.satisfy _ _) fun _ _ => .bind (.satisfy _ _) fun _ _ => .bind (keeps_nameList _) fun _ _ =>
      .pure trivial
  · exact .bind (.satisfy _ _) fun _ _ => .bind (.satisfy _ _) fun _ _ => .bind (.satisfy _ _) fun _ _ =>
      .bind keeps_literal fun _ _ => .bind (.satisfy _ _) fun _ _ => .pure trivial
  · refine .bind (keeps_nameList _) fun _ _ => .branch _ ?_ (.pure trivial)
    exact .bind .next fun _ _ => .bind (.satisfy _ _) fun _ _ => .pure trivial
  · refine .bind .done fun _ _ => .ite (.pure trivial) (.bind .peek fun t _ => ?_)
    split
    · exact .bind .next fun _ _ => .pure trivial
    · exact .fail _
  · exact .bind (.satisfy _ _) fun _ _ =>
      .bind (.repeatToEnd (Q := fun _ => True) (fun p _ => keeps_policyClause p) trivial) fun _ _ =>
        .pure trivial
  · refine .bind (keeps_nameList _) fun columns _ => ?_
    split
    · exact .pure trivial
    · exact .bind .previous fun _ last => .failAt last _ _
  · exact .pure trivial

lemma keeps_directiveLine (keyword : Keyword) : Keeps n (·.span.Within n) (directiveLine src keyword) :=
  .bind .next fun _ first => .bind (keeps_feature keyword) fun _ _ => .bind (.finish _) fun _ _ =>
    .spanned first fun _ => rfl

/-- A line of an entity. -/
lemma within_entityLine {c : Cursor} (place : c.Within n) : (entityLine src c).Within n := by
  unfold entityLine
  split
  · exact within_fieldLine place
  · split
    · exact within_fieldLine place
    · split
      · exact LineResult.within_ofParsed (keeps_keyLine _) (fun _ h => h) place
      · exact LineResult.within_ofParsed (keeps_keyLine _) (fun _ h => h) place
      · exact LineResult.within_ofParsed keeps_checkLine (fun _ h => h) place
      iterate 7 exact LineResult.within_ofParsed (keeps_directiveLine _) (fun _ h => h) place
      · exact within_fieldLine place
  · refine ⟨by rintro _ ⟨⟩, ?_⟩
    rintro _ ⟨⟩
    exact place.error _

lemma within_entityLines (src : Source) (atEnd : Bool) {previous : Token} {groups : List (List Token)}
    (before : previous.Within n) (inside : ∀ line ∈ groups, ∀ t ∈ line, t.Within n) :
    ∀ r ∈ entityLines src atEnd previous groups, r.Within n := by
  induction groups generalizing previous with
  | nil => exact List.forall_mem_nil _
  | cons line rest ih =>
    obtain ⟨here, others⟩ := List.forall_mem_cons.1 inside
    exact List.forall_mem_cons.2 ⟨within_entityLine ⟨before, here⟩, ih (getLast?_getD_within before here) others⟩

/-! ### Statements -/

/-- An entity within a text, with all that it declares. -/
structure Entity.Within (n : Nat) (e : Entity) : Prop where
  name : e.nameSpan.Within n
  span : e.span.Within n
  fields : ∀ f ∈ e.fields, f.Within n
  keys : ∀ k ∈ e.keys, k.span.Within n
  directives : ∀ d ∈ e.directives, d.span.Within n

/-- An enumeration within a text, with its labels. -/
structure Enum.Within (n : Nat) (e : Enum) : Prop where
  span : e.span.Within n
  variants : ∀ v ∈ e.variants, v.span.Within n

/-- A statement within a text. -/
def Statement.Within (n : Nat) : Statement → Prop
  | entity e => e.Within n
  | enum e => e.Within n
  | st => st.span.Within n

variable {head : Token} (marker : head.Within n)

include marker in
/-- An entity and the errors of its lines. -/
lemma within_entity (src : Source) {tokens : List Token} (inside : ∀ t ∈ tokens, t.Within n) (atEnd : Bool) :
    (entity src head tokens atEnd).1.Within n ∧ ∀ e ∈ (entity src head tokens atEnd).2, e.Within n := by
  have before : (lastBeforeBody head tokens).Within n := by
    refine getLast?_getD_within marker ?_
    split
    · cases groups : lineGroups tokens with
      | nil => exact List.forall_mem_nil _
      | cons first rest =>
        have sub := sublist_of_mem_lineGroups (groups ▸ List.mem_cons_self : first ∈ lineGroups tokens)
        exact fun t ht => inside t (sub.subset ht)
    · exact List.forall_mem_nil _
  have lines : ∀ line ∈ bodyLines head tokens, ∀ t ∈ line, t.Within n :=
    fun line hline t ht => inside t ((sublist_of_mem_bodyLines hline).1.subset ht)
  have results := within_entityLines src atEnd before lines
  rw [entity_fst, entity_snd]
  generalize entityLines src atEnd (lastBeforeBody head tokens) (bodyLines head tokens) = rs at results
  have stretched {s : Span} (start : s.Within n) : (rs.foldl (fun s r => s.extend r.last) s).Within n := by
    clear results
    induction rs generalizing s with
    | nil => exact start
    | cons r rs ih => exact ih (start.extend r.last)
  refine ⟨⟨marker.span, stretched marker.span, fun f hf => ?_, fun k hk => ?_, fun d hd => ?_⟩, fun e he => ?_⟩
  · obtain ⟨r, hr, found⟩ := List.mem_filterMap.1 hf
    exact (results r hr).field? f found
  · obtain ⟨r, hr, found⟩ := List.mem_filterMap.1 hk
    exact (results r hr).key? k found
  · obtain ⟨r, hr, found⟩ := List.mem_filterMap.1 hd
    exact (results r hr).directive? d found
  · rcases List.mem_append.1 he with stray | fault
    · split at stray
      · rw [List.mem_singleton.1 stray]
        exact Cursor.Within.error ⟨marker, inside⟩ _
      · cases stray
    · obtain ⟨r, hr, found⟩ := List.mem_filterMap.1 fault
      exact (results r hr).fault e found

lemma keeps_enumLabels : Keeps n (fun vs => ∀ v ∈ vs, v.span.Within n) enumLabels := by
  have behind {c : Cursor} (place : c.Within n) :
      (if c.skip.current.isSymbol ',' then c.skip.skip else c.skip).Within n := by
    split
    · exact place.skip.skip
    · exact place.skip
  intro c place
  fun_induction enumLabels c with
  | case1 => exact ⟨List.forall_mem_nil _, place.skip⟩
  | case2 => exact place.error _
  | case3 c _ label _ _ labels stop read ih =>
    have more := ih (behind place)
    rw [read] at more
    exact ⟨List.forall_mem_cons.2 ⟨place.current.span, more.1⟩, more.2⟩
  | case4 c _ label _ _ e stopped read ih =>
    have more := ih (behind place)
    rw [read] at more
    exact more
  | case5 => exact place.skip.error _

lemma keeps_variants : Keeps n (fun vs => ∀ v ∈ vs, v.span.Within n) variants := by
  refine .bind .peek fun t _ => ?_
  split
  · exact .bind .next fun _ list => .pure (List.forall_mem_map.2 fun _ _ => list.span)
  · exact .ite (.bind .next fun _ _ => keeps_enumLabels) (.fail _)

include marker

lemma keeps_enumStatement : Keeps n (·.Within n) (enumStatement head) :=
  .bind (.satisfy _ _) fun _ _ => .bind keeps_variants fun _ labels => .bind (.finish _) fun _ _ =>
    .bind .previous fun last _ => .pure ⟨marker.between last, labels⟩

lemma keeps_indexStatement : Keeps n (·.span.Within n) (indexStatement src head) := by
  refine .bind (.sees _) fun _ _ => .skipIf ?_
  exact .bind (.satisfy _ _) fun _ _ => .bind (.satisfy _ _) fun _ _ => .bind (.satisfy _ _) fun _ _ =>
    .bind (keeps_nameList _) fun _ _ => .bind .remaining fun _ _ => .bind .skipAll fun _ _ =>
      .spanned marker fun _ => rfl

lemma keeps_viewStatement : Keeps n (·.span.Within n) (viewStatement src head) :=
  .bind (.satisfy _ _) fun _ _ => .bind (.satisfy _ _) fun _ _ => .bind (.satisfy _ _) fun _ _ =>
    .bind .remaining fun _ _ => .ite (.fail _) (.bind .skipAll fun _ _ => .spanned marker fun _ => rfl)

lemma keeps_triggerStatement : Keeps n (·.span.Within n) (triggerStatement src head) := by
  refine .bind (.satisfy _ _) fun _ _ => .bind .remaining fun _ _ => ?_
  split
  · exact .bind .skipAll fun _ _ => .bind .peek fun _ here => .failAt here _ _
  · exact .fail _
  · exact .bind .skipAll fun _ _ => .fail _
  · exact .bind .skipAll fun _ _ => .spanned marker fun _ => rfl

lemma keeps_extensionStatement : Keeps n (·.span.Within n) (extensionStatement src head) :=
  .bind .remaining fun _ _ => .ite (.fail _) (.ite (.fail _) (.bind .skipAll fun _ _ =>
    .spanned marker fun _ => rfl))

lemma keeps_blockStatement (handler : Plugin.Handler) :
    Keeps n (·.block.span.Within n) (blockStatement src handler head) := by
  refine .bind .remaining fun _ _ => .bind .skipAll fun _ _ => .bind .previous fun last _ => ?_
  unfold handledBlock
  split
  · exact .pure (marker.between last)
  · exact .failAt marker _ _

omit marker

/-- What is read of a group of tokens, and what is wrong with it. -/
structure StatementResult.Within (n : Nat) (r : StatementResult) : Prop where
  statement : ∀ st ∈ r.statement, st.Within n
  errors : ∀ e ∈ r.errors, e.Within n

lemma StatementResult.within_ofParsed {α : Type} {Q : α → Prop} {p : Parser α} {c : Cursor}
    {wrap : α → Statement} (read : Keeps n Q p) (wraps : ∀ a, Q a → (wrap a).Within n) (place : c.Within n) :
    (ofParsed wrap (p c)).Within n := by
  cases result : p c with
  | ok a after =>
    refine ⟨?_, List.forall_mem_nil _⟩
    rintro _ ⟨⟩
    exact wraps a (read.of_ok place result).1
  | error e stopped => exact ⟨by rintro _ ⟨⟩, List.forall_mem_singleton.2 (read.of_error place result)⟩

include marker

/-- The statement of a group of tokens. -/
lemma within_readStatement (src : Source) {tokens : List Token} (inside : ∀ t ∈ tokens, t.Within n)
    (plugins : Plugin.Registry) (recovering atEnd : Bool) :
    (readStatement src plugins recovering head tokens atEnd).Within n := by
  have place : Cursor.Within n ⟨head, tokens, atEnd⟩ := ⟨marker, inside⟩
  have unknown : StatementResult.Within n
      ⟨none, if recovering then [] else [⟨head.line, head.column, .statement, .token head⟩]⟩ := by
    refine ⟨by rintro _ ⟨⟩, ?_⟩
    cases recovering
    · exact List.forall_mem_singleton.2 marker
    · exact List.forall_mem_nil _
  unfold readStatement
  dsimp only
  split
  · obtain ⟨entity, errors⟩ := within_entity marker src inside atEnd
    refine ⟨?_, errors⟩
    rintro _ ⟨⟩
    exact entity
  · exact StatementResult.within_ofParsed (keeps_enumStatement marker) (fun _ h => h) place
  · exact StatementResult.within_ofParsed (keeps_indexStatement marker) (fun _ h => h) place
  · exact StatementResult.within_ofParsed (keeps_viewStatement marker) (fun _ h => h) place
  · exact StatementResult.within_ofParsed (keeps_triggerStatement marker) (fun _ h => h) place
  · exact StatementResult.within_ofParsed (keeps_extensionStatement marker) (fun _ h => h) place
  · split
    · split
      · exact StatementResult.within_ofParsed (keeps_blockStatement marker _) (fun _ h => h) place
      · exact unknown
    · exact unknown
  · exact unknown

omit marker

lemma within_readStatements {groups : List (Token × List Token)} (plugins : Plugin.Registry)
    (inside : ∀ g ∈ groups, g.1.Within n ∧ ∀ t ∈ g.2, t.Within n) (recovering : Bool) :
    (∀ st ∈ (readStatements src plugins recovering groups).1, st.Within n) ∧
      ∀ e ∈ (readStatements src plugins recovering groups).2, e.Within n := by
  induction groups generalizing recovering with
  | nil => exact ⟨List.forall_mem_nil _, List.forall_mem_nil _⟩
  | cons g rest ih =>
    obtain ⟨head, tokens⟩ := g
    obtain ⟨⟨marker, here⟩, others⟩ := List.forall_mem_cons.1 inside
    obtain ⟨first, errors⟩ := within_readStatement marker src here plugins recovering rest.isEmpty
    obtain ⟨more, moreErrors⟩ := ih others
      (readStatement src plugins recovering head tokens rest.isEmpty).statement.isNone
    rw [readStatements]
    exact ⟨List.forall_mem_append.2 ⟨fun st hst => first st (Option.mem_toList.1 hst), more⟩,
      List.forall_mem_append.2 ⟨errors, moreErrors⟩⟩

end Readers

end Document

namespace Compilation

open Document

/-- **A document is read within its text**: its statements, with the fields, keys, features and labels that
they declare, and the errors of reading them. -/
lemma within_read (path : String) (src : List UInt8) (o : CompileOptions) :
    (∀ st ∈ (document path src o).statements, st.Within (1 + src.count (Text.ascii '\n'))) ∧
      ∀ e ∈ (read path src o.plugins).2.2, e.Within (1 + src.count (Text.ascii '\n')) := by
  refine within_readStatements o.plugins (fun g hg => ?_) false
  have sub := ((sublist_of_mem_statementGroups hg).trans (List.takeWhile_sublist _)).subset
  have tokens := (Scan.within_ofBytes src).1
  exact List.forall_mem_cons.1 fun t (ht : t ∈ g.1 :: g.2) => tokens t (sub ht)

end Compilation

end ErdSql
