import ErdSql.Proofs.LineEnds
import ErdSql.Proofs.Requests

/-!
# Texts further down

Readers look at tokens and at the text between them, not at where these stand. This says what
corresponds to a statement, a span and a place among tokens in another text, so many lines further
down, and how readers at two such places are compared. Offsets may differ in any way that leaves each
token as wide as it is. An end of the input in place of an end of a line only changes the wording of
errors, so it is left open.

* `Document.Statement.shift`: a statement further down.
* `Token.Pairing`: which tokens of two texts correspond.
* `Document.Moves`: two readers do the same at corresponding places, and what is put together from such
  readers does so too.
-/

namespace ErdSql

/-! ### Moved statements -/

/-- A span so many lines further down. -/
def Span.shift (lines : Nat) (s : Span) : Span :=
  { s with startLine := s.startLine + lines, endLine := s.endLine + lines }

@[simp]
lemma Span.shift_zero (s : Span) : s.shift 0 = s := by simp [shift]

def Extent.shift (lines : Nat) (e : Extent) : Extent :=
  { e with line := e.line + lines }

def Literal.shift (lines : Nat) (l : Literal) : Literal :=
  { l with span := l.span.shift lines }

@[simp]
lemma Literal.shift_zero (l : Literal) : l.shift 0 = l := by simp [shift]

def Plugin.Block.shift (lines : Nat) (b : Plugin.Block) : Plugin.Block :=
  { b with span := b.span.shift lines }

namespace Document

def TypeRef.shift (lines : Nat) (t : TypeRef) : TypeRef :=
  { t with args := t.args.map (·.shift lines), span := t.span.shift lines }

@[simp]
lemma TypeRef.shift_zero (t : TypeRef) : t.shift 0 = t := by simp [shift]

def Clause.shift (lines : Nat) : Clause → Clause
  | default value => default (value.shift lines)
  | clause => clause

@[simp]
lemma Clause.shift_zero (k : Clause) : k.shift 0 = k := by cases k <;> simp [shift]

def Constraint.shift (lines : Nat) (k : Constraint) : Constraint :=
  ⟨k.clause.shift lines, k.span.shift lines⟩

@[simp]
lemma Constraint.shift_zero (k : Constraint) : k.shift 0 = k := by simp [shift]

def Field.shift (lines : Nat) (f : Field) : Field :=
  { f with
    type := f.type.shift lines
    constraints := f.constraints.map (·.shift lines)
    span := f.span.shift lines }

@[simp]
lemma Field.shift_zero (f : Field) : f.shift 0 = f := by simp [shift]

def KeyLine.shift (lines : Nat) (k : KeyLine) : KeyLine :=
  { k with span := k.span.shift lines }

@[simp]
lemma KeyLine.shift_zero (k : KeyLine) : k.shift 0 = k := by simp [shift]

def Feature.shift (lines : Nat) : Feature → Feature
  | ttl column interval => ttl column (interval.shift lines)
  | feature => feature

@[simp]
lemma Feature.shift_zero (f : Feature) : f.shift 0 = f := by cases f <;> simp [shift]

def Directive.shift (lines : Nat) (d : Directive) : Directive :=
  ⟨d.feature.shift lines, d.span.shift lines⟩

@[simp]
lemma Directive.shift_zero (d : Directive) : d.shift 0 = d := by simp [shift]

def Entity.shift (lines : Nat) (e : Entity) : Entity :=
  { e with
    nameSpan := e.nameSpan.shift lines
    fields := e.fields.map (·.shift lines)
    keys := e.keys.map (·.shift lines)
    directives := e.directives.map (·.shift lines)
    span := e.span.shift lines }

def Variant.shift (lines : Nat) (v : Variant) : Variant :=
  { v with span := v.span.shift lines }

@[simp]
lemma Variant.shift_zero (v : Variant) : v.shift 0 = v := by simp [shift]

def Enum.shift (lines : Nat) (e : Enum) : Enum :=
  { e with variants := e.variants.map (·.shift lines), span := e.span.shift lines }

def Index.shift (lines : Nat) (i : Index) : Index :=
  { i with span := i.span.shift lines }

def View.shift (lines : Nat) (v : View) : View :=
  { v with span := v.span.shift lines }

def Trigger.shift (lines : Nat) (t : Trigger) : Trigger :=
  { t with span := t.span.shift lines }

def Extension.shift (lines : Nat) (e : Extension) : Extension :=
  { e with span := e.span.shift lines }

def Block.shift (lines : Nat) (b : Block) : Block :=
  { b with block := b.block.shift lines }

/-- A statement so many lines further down. -/
def Statement.shift (lines : Nat) : Statement → Statement
  | entity e => entity (e.shift lines)
  | enum e => enum (e.shift lines)
  | index i => index (i.shift lines)
  | view v => view (v.shift lines)
  | trigger t => trigger (t.shift lines)
  | extension e => extension (e.shift lines)
  | block b => block (b.shift lines)

@[simp]
lemma Statement.shift_zero (s : Statement) : s.shift 0 = s := by
  cases s <;> simp [shift, Entity.shift, Enum.shift, Index.shift, View.shift, Trigger.shift,
    Extension.shift, Block.shift, Plugin.Block.shift]

end Document

/-! ### Spans of moved tokens -/

namespace Span

variable (lines : Nat)

lemma ofExtent_shift (e : Extent) : ofExtent (e.shift lines) = (ofExtent e).shift lines := rfl

lemma across_shift (e f : Extent) : across (e.shift lines) (f.shift lines) = (across e f).shift lines := by
  rw [across, across, apply_ite (shift lines)]
  refine if_congr ?_ rfl rfl
  simp only [Bool.or_eq_true, Bool.and_eq_true, decide_eq_true_eq, beq_iff_eq]
  simp [Extent.shift, Extent.endColumn]

/-- Stretching commutes with moving, for a span that is somewhere. -/
lemma cover_shift {s : Span} (somewhere : s.startColumn ≠ 0) (e : Extent) :
    (s.shift lines).cover (e.shift lines) = (s.cover e).shift lines := by
  have here (t : Span) (h : t.startColumn = s.startColumn) :
      ¬(t.startLine == 0 && t.startColumn == 0) = true := by simp [h, somewhere]
  rw [cover, cover, if_neg (here s rfl), if_neg (here (s.shift lines) rfl), apply_ite (shift lines)]
  refine if_congr ?_ rfl rfl
  simp only [Bool.or_eq_true, Bool.and_eq_true, decide_eq_true_eq, beq_iff_eq]
  simp [Extent.shift, shift, Extent.endColumn]

lemma startColumn_extend {s : Span} (somewhere : s.startColumn ≠ 0) (t : Token) :
    (s.extend t).startColumn = s.startColumn := by
  rw [extend, cover, if_neg (by simp [somewhere])]
  split <;> rfl

lemma startColumn_between (t u : Token) : (between t u).startColumn = t.column := by
  rw [between, across]
  split <;> rfl

end Span

/-! ### Corresponding tokens -/

namespace Token

/-- Two tokens that differ in where they stand only: the second one stands so many lines further down,
at any offset. -/
structure Like (lines : Nat) (t t' : Token) : Prop where
  kind : t'.kind = t.kind
  spelling : t'.spelling = t.spelling
  line : t'.line = t.line + lines
  column : t'.column = t.column
  endLine : t'.endLine = t.endLine + lines
  width : (t'.stop : Int) - t'.offset = t.stop - t.offset

/-- The empty token just behind another one. -/
def behind (t : Token) : Token :=
  ⟨.eof, "", t.line, t.column + (t.stop - t.offset), t.stop, t.stop, t.line⟩

namespace Like

variable {lines : Nat} {t t' u u' : Token} (h : t.Like lines t')
include h

lemma text : t'.text = t.text := by
  rw [Token.text, Token.text, h.kind, h.spelling]

lemma isKeyword (k : Keyword) : t'.isKeyword k = t.isKeyword k := by
  rw [Token.isKeyword, Token.isKeyword, h.kind]

lemma isSymbol (c : Char) : t'.isSymbol c = t.isSymbol c := by
  rw [Token.isSymbol, Token.isSymbol, h.kind, h.spelling]

lemma isWord (w : String) : t'.isWord w = t.isWord w := by
  rw [Token.isWord, Token.isWord, h.kind, h.spelling]

lemma isName : t'.isName = t.isName := by
  rw [Token.isName, Token.isName, h.kind]

lemma extent : t'.extent = t.extent.shift lines := by
  rw [Token.extent, Token.extent, h.text, h.line, h.column, Extent.ofOffsets, Extent.ofOffsets, h.width,
    Nat.cast_add]
  rfl

lemma span : t'.span = t.span.shift lines := by
  rw [Token.span, Token.span, h.extent, Span.ofExtent_shift]

lemma between (h' : u.Like lines u') : Span.between t' u' = (Span.between t u).shift lines := by
  rw [Span.between, Span.between, h.extent, h'.extent, Span.across_shift]

lemma extend {s : Span} (somewhere : s.startColumn ≠ 0) :
    (s.shift lines).extend t' = (s.extend t).shift lines := by
  rw [Span.extend, Span.extend, h.extent, Span.cover_shift lines somewhere]

lemma behind : t.behind.Like lines t'.behind where
  kind := rfl
  spelling := rfl
  line := h.line
  column := by
    have width := h.width
    have column := h.column
    simp only [Token.behind]
    omega
  endLine := h.line
  width := by simp [Token.behind]

end Like

/-- Which tokens of two texts correspond, those of the second one so many lines further down. What is
just behind two corresponding tokens corresponds too. -/
structure Pairing (lines : Nat) where
  Pairs : Token → Token → Prop
  like {t t' : Token} : Pairs t t' → t.Like lines t'
  behind {t t' : Token} : Pairs t t' → Pairs t.behind t'.behind

/-- Each token corresponds to the one so many bytes and lines further down. -/
def Pairing.shift (bytes lines : Nat) : Pairing lines where
  Pairs t t' := t' = t.shift bytes lines
  like := by
    rintro t _ rfl
    refine ⟨rfl, rfl, rfl, rfl, rfl, ?_⟩
    simp only [Token.shift, Nat.cast_add]
    omega
  behind := by
    rintro t _ rfl
    simp only [Token.behind, Token.shift, Nat.add_sub_add_right]

namespace Pairing

lemma pairs_shift (bytes lines : Nat) (ts : List Token) :
    List.Forall₂ (Pairing.shift bytes lines).Pairs ts (ts.map (·.shift bytes lines)) :=
  List.forall₂_map_right_iff.2 (List.forall₂_same.2 fun _ _ => rfl)

variable {lines : Nat} {pairing : Pairing lines} {t t' : Token} {ts ts' : List Token}

lemma isEmpty (h : List.Forall₂ pairing.Pairs ts ts') : ts'.isEmpty = ts.isEmpty := by
  cases h <;> rfl

/-- The last tokens, or the ones in front, correspond. -/
lemma getLast?_getD (first : pairing.Pairs t t') (h : List.Forall₂ pairing.Pairs ts ts') :
    pairing.Pairs (ts.getLast?.getD t) (ts'.getLast?.getD t') := by
  induction h generalizing t t' with
  | nil => exact first
  | cons here _ ih =>
    rw [List.getLast?_cons, List.getLast?_cons]
    exact ih here

end Pairing

end Token

namespace Document

open ErdSql.Document.Parser

variable {lines : Nat} {pairing : Token.Pairing lines}

/-! ### Corresponding places -/

/-- Two places with corresponding tokens around them. -/
structure Cursor.Moved (pairing : Token.Pairing lines) (c c' : Cursor) : Prop where
  previous : pairing.Pairs c.previous c'.previous
  rest : List.Forall₂ pairing.Pairs c.rest c'.rest

namespace Cursor.Moved

variable {c c' : Cursor} (h : c.Moved pairing c')
include h

lemma length : c'.rest.length = c.rest.length :=
  h.rest.length_eq.symm

lemma isEmpty : c'.rest.isEmpty = c.rest.isEmpty :=
  Token.Pairing.isEmpty h.rest

lemma current : pairing.Pairs c.current c'.current := by
  obtain ⟨previous, rest, atEnd⟩ := c
  obtain ⟨previous', rest', atEnd'⟩ := c'
  obtain ⟨before, left⟩ := h
  cases left with
  | nil => exact pairing.behind before
  | cons first _ => exact first

lemma like : c.current.Like lines c'.current :=
  pairing.like h.current

lemma skip : c.skip.Moved pairing c'.skip := by
  obtain ⟨previous, rest, atEnd⟩ := c
  obtain ⟨previous', rest', atEnd'⟩ := c'
  obtain ⟨before, left⟩ := h
  cases left with
  | nil => exact ⟨before, .nil⟩
  | cons first others => exact ⟨first, others⟩

lemma skipAll : c.skipAll.Moved pairing c'.skipAll :=
  ⟨Token.Pairing.getLast?_getD h.previous h.rest, .nil⟩

end Cursor.Moved

section Outcomes
variable {α : Type} {R : α → α → Prop}

/-- Two outcomes at corresponding places: both readers give up, or the values correspond. -/
def Parsed.Moved (pairing : Token.Pairing lines) (R : α → α → Prop) : Parsed α → Parsed α → Prop
  | .ok a after, .ok a' after' => R a a' ∧ after.Moved pairing after'
  | .error _ stopped, .error _ stopped' => stopped.Moved pairing stopped'
  | _, _ => False

lemma Parsed.Moved.cases {r r' : Parsed α} (h : r.Moved pairing R r') :
    (∃ a a' after after', r = .ok a after ∧ r' = .ok a' after' ∧ R a a' ∧ after.Moved pairing after') ∨
      ∃ e stopped e' stopped', r = .error e stopped ∧ r' = .error e' stopped' ∧
        stopped.Moved pairing stopped' := by
  cases r with
  | ok a after =>
    cases r' with
    | ok a' after' =>
      obtain ⟨same, place⟩ := h
      exact .inl ⟨a, a', after, after', rfl, rfl, same, place⟩
    | error e' stopped' => exact h.elim
  | error e stopped =>
    cases r' with
    | ok a' after' => exact h.elim
    | error e' stopped' => exact .inr ⟨e, stopped, e', stopped', rfl, rfl, h⟩

/-- Two readers do the same at corresponding places. -/
def Moves (pairing : Token.Pairing lines) (R : α → α → Prop) (p p' : Parser α) : Prop :=
  ∀ c c' : Cursor, c.Moved pairing c' → (p c).Moved pairing R (p' c')

/-- Lists of corresponding values, where one value corresponds to each. -/
lemma map_of_forall₂ {move : α → α} {as as' : List α} (h : List.Forall₂ (fun a a' => a' = move a) as as') :
    as' = as.map move := by
  induction h with
  | nil => rfl
  | cons same _ ih => rw [List.map_cons, same, ih]

end Outcomes

namespace Moves

variable {α β : Type} {R : α → α → Prop} {S : β → β → Prop} {p p' q q' : Parser α}

lemma pure {a a' : α} (h : R a a') : Moves pairing R (Pure.pure a) (Pure.pure a') :=
  fun _ _ place => ⟨h, place⟩

lemma bind {f f' : α → Parser β} (first : Moves pairing R p p')
    (last : ∀ a a', R a a' → Moves pairing S (f a) (f' a')) : Moves pairing S (p >>= f) (p' >>= f') := by
  intro c c' place
  change (Parser.bind p f c).Moved pairing S (Parser.bind p' f' c')
  rw [Parser.bind, Parser.bind]
  obtain ⟨a, a', after, after', here, there, same, behind⟩ |
    ⟨e, stopped, e', stopped', here, there, halt⟩ := (first c c' place).cases
  · rw [here, there]
    exact last a a' same after after' behind
  · rw [here, there]
    exact halt

lemma ite {b b' : Bool} (same : b' = b) (yes : Moves pairing R p p') (no : Moves pairing R q q') :
    Moves pairing R (if b then p else q) (if b' then p' else q') := by
  subst same
  cases b'
  · exact no
  · exact yes

/-- A token may be passed over. -/
lemma skipIf {b b' : Bool} (same : b' = b) (h : Moves pairing R p p') :
    Moves pairing R (if b then Parser.next >>= fun _ => p else p)
      (if b' then Parser.next >>= fun _ => p' else p') := by
  refine .ite same (fun c c' place => ?_) h
  exact h c.skip c'.skip place.skip

lemma peek : Moves pairing pairing.Pairs peek peek :=
  fun _ _ place => ⟨place.current, place⟩

lemma next : Moves pairing pairing.Pairs next next :=
  fun _ _ place => ⟨place.current, place.skip⟩

lemma previous : Moves pairing pairing.Pairs previous previous :=
  fun _ _ place => ⟨place.previous, place⟩

lemma remaining : Moves pairing (List.Forall₂ pairing.Pairs) remaining remaining :=
  fun _ _ place => ⟨place.rest, place⟩

lemma skipAll : Moves pairing (fun _ _ => True) skipAll skipAll :=
  fun _ _ place => ⟨trivial, place.skipAll⟩

lemma done : Moves pairing (fun b b' => b' = b) done done :=
  fun _ _ place => ⟨place.isEmpty, place⟩

lemma fail (expected : Expected) : Moves pairing R (fail expected) (fail expected) :=
  fun _ _ place => place

lemma failAt (t t' : Token) (expected : Expected) (found : Found) :
    Moves pairing R (failAt t expected found) (failAt t' expected found) :=
  fun _ _ place => place

lemma finish (expected : Expected) :
    Moves pairing (fun _ _ => True) (finish expected) (finish expected) := by
  intro c c' place
  unfold Parser.finish
  rw [place.isEmpty]
  split
  · exact ⟨trivial, place⟩
  · exact place

section Tests
variable {test : Token → Bool} (same : ∀ {t t' : Token}, t.Like lines t' → test t' = test t)
include same

lemma satisfy (expected : Expected) :
    Moves pairing pairing.Pairs (satisfy test expected) (satisfy test expected) := by
  intro c c' place
  unfold Parser.satisfy
  rw [same place.like]
  split
  · exact ⟨place.current, place.skip⟩
  · exact place

lemma sees : Moves pairing (fun b b' => b' = b) (sees test) (sees test) :=
  fun _ _ place => ⟨same place.like, place⟩

/-- Readers that go on as a test tells them. -/
lemma branch (yes : Moves pairing R p p') (no : Moves pairing R q q') :
    Moves pairing R (Parser.sees test >>= fun b => if b then p else q)
      (Parser.sees test >>= fun b => if b then p' else q') :=
  .bind (sees same) fun _ _ seen => .ite seen yes no

end Tests

lemma identifier (expected : Expected) :
    Moves pairing pairing.Pairs (identifier expected) (identifier expected) :=
  satisfy (fun like => by rw [like.kind]) expected

lemma name (expected : Expected) : Moves pairing pairing.Pairs (name expected) (name expected) :=
  satisfy Token.Like.isName expected

lemma symbol (s : Char) : Moves pairing pairing.Pairs (symbol s) (symbol s) :=
  satisfy (fun like => like.isSymbol s) _

lemma word (w : String) : Moves pairing pairing.Pairs (word w) (word w) :=
  satisfy (fun like => like.isWord w) _

lemma keyword (k : Keyword) (expected : Expected) :
    Moves pairing pairing.Pairs (Parser.satisfy (·.isKeyword k) expected)
      (Parser.satisfy (·.isKeyword k) expected) :=
  satisfy (fun like => like.isKeyword k) expected

lemma expr (expected : Expected) : Moves pairing pairing.Pairs (expr expected) (expr expected) :=
  satisfy (fun like => by rw [like.kind]) expected

/-- Lists whose items correspond do. -/
lemma commaList (item : Moves pairing R p p') (unfinished : Expected) :
    Moves pairing (fun r r' => List.Forall₂ R r.1 r'.1 ∧ pairing.Pairs r.2 r'.2)
      (commaList p unfinished) (commaList p' unfinished) := by
  intro c c' place
  induction length : c.rest.length using Nat.strong_induction_on generalizing c c' with
  | _ n ih =>
    rw [Parser.commaList, Parser.commaList]
    obtain ⟨a, a', after, after', here, there, same, behind⟩ |
      ⟨e, stopped, e', stopped', here, there, halt⟩ := (item c c' place).cases
    · simp only [here, there, behind.like.isSymbol, behind.skip.length, place.length]
      split
      · split
        · next shorter =>
          obtain ⟨as, as', stop, stop', here, there, others, last⟩ |
            ⟨e, stop, e', stop', here, there, halt⟩ := (ih _ (length ▸ shorter) _ _ behind.skip rfl).cases
          · rw [here, there]
            exact ⟨⟨.cons same others.1, others.2⟩, last⟩
          · rw [here, there]
            exact halt
        · exact behind
      · split
        · exact ⟨⟨.cons same .nil, behind.current⟩, behind.skip⟩
        · exact behind
    · rw [here, there]
      exact halt

/-- Loops whose steps correspond do. -/
lemma repeatToEnd {step step' : α → Parser α}
    (turn : ∀ a a', R a a' → Moves pairing R (step a) (step' a')) {a a' : α} (start : R a a') :
    Moves pairing R (repeatToEnd step a) (repeatToEnd step' a') := by
  intro c c' place
  induction length : c.rest.length using Nat.strong_induction_on generalizing a a' c c' with
  | _ n ih =>
    rw [Parser.repeatToEnd, Parser.repeatToEnd, place.isEmpty]
    split
    · exact ⟨start, place⟩
    · obtain ⟨b, b', after, after', here, there, same, behind⟩ |
        ⟨e, stopped, e', stopped', here, there, halt⟩ := (turn a a' start c c' place).cases
      · simp only [here, there, behind.length, place.length]
        split
        · next shorter => exact ih _ (length ▸ shorter) same _ _ behind rfl
        · exact ⟨same, behind⟩
      · rw [here, there]
        exact halt

end Moves

end Document

end ErdSql
