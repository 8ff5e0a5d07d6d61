import ErdSql.Proofs.Reading
import ErdSql.Proofs.Steps

/-!
# Where tokens stand

The tokens of a text stand one behind the other and inside it, whatever the text is.

* `Scan.inside_of_step`: a token ends inside the text.
* `Token.Ordered`: tokens stand in order, inside a text of a size.
* `Scan.ordered_ofBytes`: the tokens of a document do.
-/

namespace ErdSql

namespace Scan

/-! ### Lengths of tokens -/

/-- A string ends inside the text. -/
lemma stringLength?_le {quote : Char} {cs : List Char} {n : Nat} (h : stringLength? quote cs = some n) :
    n ≤ cs.length := by
  fun_induction stringLength? quote cs generalizing n with
  | case1 => cases h
  | case2 => cases h
  | case3 => cases h; simp
  | case4 c d ds _ _ _ ih =>
    obtain ⟨m, found, rfl⟩ := Option.map_eq_some_iff.1 h
    have := ih found
    simp only [List.length_cons]
    omega
  | case5 => cases h; simp
  | case6 c cs _ _ ih =>
    obtain ⟨m, found, rfl⟩ := Option.map_eq_some_iff.1 h
    have := ih found
    simp only [List.length_cons]
    omega

/-- An expression that is closed ends inside the text, behind what was read. -/
lemma exprEnd_le {n m : Nat} {stack : List Char} {inside : Option (Char × Nat)} {cs : List Char}
    (h : exprEnd n stack inside cs = .closed m) : n < m ∧ m ≤ n + cs.length := by
  fun_induction exprEnd n stack inside cs <;> grind

/-- A number ends inside the text. -/
lemma numberLength_le (cs : List Char) : numberLength cs ≤ cs.length := by
  have whole := digitsLength_le cs
  unfold numberLength
  dsimp only
  split
  · next d rest behind =>
    have left := congrArg List.length behind
    have fraction := digitsLength_le (d :: rest)
    simp only [List.length_drop, List.length_cons] at left fraction ⊢
    split <;> omega
  · exact whole

/-- A token ends inside the text, and an expression ends with a parenthesis of its own. -/
lemma inside_of_step {opens : Bool} {c : Char} {cs : List Char} {kind : Token.Kind} {spelling : String}
    {more : Nat} (h : step opens c cs = .token kind spelling more) :
    more ≤ cs.length ∧ (kind = .expr → 0 < more) := by
  cases takes_of_step h with
  | entity => exact ⟨nameLength_le cs, nofun⟩
  | @field _ rest _ behind _ =>
    rw [behind]
    exact ⟨Nat.succ_le_succ (nameLength_le rest), nofun⟩
  | string _ found => exact ⟨stringLength?_le found, nofun⟩
  | list _ closed => exact ⟨by simpa using (listEnd_le closed).2, nofun⟩
  | expr _ _ closed => exact ⟨by simpa using (exprEnd_le closed).2, fun _ => (exprEnd_le closed).1⟩
  | keyword => exact ⟨nameLength_le cs, nofun⟩
  | identifier => exact ⟨nameLength_le cs, nofun⟩
  | number =>
    have number := numberLength_le (c :: cs)
    rw [List.length_cons] at number
    exact ⟨by omega, nofun⟩
  | symbol => exact ⟨Nat.zero_le _, nofun⟩

end Scan

/-! ### Order -/

namespace Token

/-- Tokens stand one behind the other, inside a text of a size in bytes. An expression has room for its
two parentheses. -/
structure Ordered (size : Nat) (ts : List Token) : Prop where
  pairwise : ts.Pairwise fun t u => t.stop ≤ u.offset
  inside : ∀ t ∈ ts, t.offset ≤ t.stop ∧ t.stop ≤ size
  enclosed : ∀ t ∈ ts, t.kind = .expr → t.offset + 2 ≤ t.stop

namespace Ordered

variable {size : Nat} {t : Token} {ts us : List Token}

/-- Some of the tokens are in order too. -/
lemma sublist (h : Ordered size ts) (sub : us.Sublist ts) : Ordered size us :=
  ⟨h.pairwise.sublist sub, fun t ht => h.inside t (sub.subset ht),
    fun t ht => h.enclosed t (sub.subset ht)⟩

/-- From the first token to the end of any token is a part of the text. -/
lemma part (h : Ordered size (t :: ts)) {u : Token} (hu : u ∈ t :: ts) :
    t.offset ≤ u.stop ∧ u.stop ≤ size := by
  refine ⟨?_, (h.inside u hu).2⟩
  rcases List.mem_cons.1 hu with rfl | later
  · exact (h.inside u hu).1
  · calc
      t.offset ≤ t.stop := (h.inside t List.mem_cons_self).1
      _ ≤ u.offset := (List.pairwise_cons.1 h.pairwise).1 u later
      _ ≤ u.stop := (h.inside u hu).1

end Ordered

end Token

namespace Scan

open Document

section Order
variable (p : Position) (c : Char) (cs : List Char) (more : Nat)

/-- A text ends where its rest ends. -/
lemma offset_add_byteSize : (p.advanceBy (c :: cs.take more)).offset + Text.byteSize (cs.drop more) =
    p.offset + Text.byteSize (c :: cs) := by
  rw [← offset_advanceBy, ← Position.advanceBy_append, List.cons_append, List.take_append_drop,
    offset_advanceBy]

/-- The rest of a text starts behind its start. -/
lemma offset_le_advanceBy : p.offset ≤ (p.advanceBy cs).offset := by
  rw [offset_advanceBy]
  exact Nat.le_add_right _ _

/-- Behind two characters or more a text is two bytes further or more. -/
lemma offset_add_two_le (h : 0 < more) (le : more ≤ cs.length) :
    p.offset + 2 ≤ (p.advanceBy (c :: cs.take more)).offset := by
  obtain ⟨d, ds, rfl⟩ : ∃ d ds, cs = d :: ds :=
    List.exists_cons_of_length_pos (Nat.lt_of_lt_of_le h le)
  obtain ⟨n, rfl⟩ := Nat.exists_eq_add_one_of_ne_zero h.ne'
  have first := c.utf8Size_pos
  have second := d.utf8Size_pos
  rw [offset_advanceBy, List.take_succ_cons, byteSize_cons, byteSize_cons]
  omega

end Order

/-- The tokens of a text stand in order, between the place where it starts and its end. -/
lemma ordered_scanFrom (opens : Bool) (p : Position) (cs : List Char) :
    Token.Ordered (p.offset + Text.byteSize cs) (scanFrom opens p cs).tokens ∧
      ∀ t ∈ (scanFrom opens p cs).tokens, p.offset ≤ t.offset := by
  fun_induction scanFrom opens p cs with
  | case1 opens p =>
    refine ⟨⟨List.pairwise_singleton _ _, ?_, ?_⟩, ?_⟩
    · simp [Text.byteSize]
    · simp
    · simp
  | case2 opens p c cs more _ ih =>
    rw [offset_add_byteSize] at ih
    refine ⟨ih.1, fun t ht => (offset_le_advanceBy p (c :: cs.take more)).trans (ih.2 t ht)⟩
  | case3 opens p c cs kind spelling more found next token rest ih =>
    have start := offset_le_advanceBy p (c :: cs.take more)
    have total : next.offset + Text.byteSize (cs.drop more) = p.offset + Text.byteSize (c :: cs) :=
      offset_add_byteSize p c cs more
    rw [total] at ih
    refine ⟨⟨List.pairwise_cons.2 ⟨fun t ht => ih.2 t ht, ih.1.pairwise⟩, ?_, ?_⟩, ?_⟩
    · intro t ht
      rcases List.mem_cons.1 ht with rfl | ht
      · exact ⟨start, by rw [← total]; exact Nat.le_add_right _ _⟩
      · exact ih.1.inside t ht
    · intro t ht expr
      rcases List.mem_cons.1 ht with rfl | ht
      · obtain ⟨le, pos⟩ := inside_of_step found
        exact offset_add_two_le p c cs more (pos expr) le
      · exact ih.1.enclosed t ht expr
    · intro t ht
      rcases List.mem_cons.1 ht with rfl | ht
      · exact le_rfl
      · exact start.trans (ih.2 t ht)
  | case4 opens p c cs fault before more _ place rest ih =>
    have start := offset_le_advanceBy p (c :: cs.take more)
    rw [offset_add_byteSize] at ih
    exact ⟨ih.1, fun t ht => start.trans (ih.2 t ht)⟩

/-- The tokens of a document stand in order inside its text. -/
lemma ordered_ofBytes (src : List UInt8) :
    Token.Ordered (Text.byteSize ((Text.decode? src).getD [])) (ofBytes src).tokens := by
  unfold ofBytes
  cases Text.decode? src with
  | none => exact ⟨.nil, List.forall_mem_nil _, List.forall_mem_nil _⟩
  | some cs => simpa [Position.start, ofChars] using (ordered_scanFrom false .start cs).1

end Scan

end ErdSql
