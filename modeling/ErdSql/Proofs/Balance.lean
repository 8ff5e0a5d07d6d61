import ErdSql.Check.Balance
import ErdSql.Proofs.Encoding
import ErdSql.Proofs.Extents

/-!
# Balance of scanned expressions

The scanner follows an expression character by character and keeps the open brackets of both kinds on a
stack; the test of balance follows its bytes and counts parentheses. They agree on what the scanner
closes.

* `Scan.balancedFrom_of_exprEnd`: what is closed is balanced.
* `Check.balanced_trimChars`: white space around a text does not matter.
* `Scan.balanced_of_mem_ofBytes`: every expression token is balanced.
-/

namespace ErdSql

open Text (ascii encode encode_cons encode_append utf8EncodeChar_of_lt eq_of_ascii_mem_utf8EncodeChar)

namespace Check

/-! ### Bytes that are passed over -/

/-- Whether a byte is neither quote nor parenthesis. -/
def isPlain (b : UInt8) : Bool := !isQuote b && b != 0x28 && b != 0x29

section Steps
variable (depth : Nat) {b q : UInt8} (bs : List UInt8)

lemma balancedFrom_quoted_cons :
    balancedFrom depth (some q) (b :: bs) = balancedFrom depth (if b == q then none else some q) bs := by
  cases depth <;> rfl

lemma balancedFrom_quote (h : isQuote b = true) :
    balancedFrom depth none (b :: bs) = balancedFrom depth (some b) bs := by
  rw [balancedFrom.eq_def]
  simp [h]

lemma balancedFrom_closing : balancedFrom (depth + 1) none (0x29 :: bs) = balancedFrom depth none bs := by
  rw [balancedFrom.eq_def]
  rfl

lemma balancedFrom_plain_cons (h : isPlain b = true) :
    balancedFrom depth none (b :: bs) = balancedFrom depth none bs := by
  simp only [isPlain, Bool.and_eq_true, Bool.not_eq_true', bne_iff_ne] at h
  rw [balancedFrom.eq_def]
  simp [h.1.1, h.1.2, h.2]

end Steps

/-- Outside quotes plain bytes change nothing. -/
lemma balancedFrom_plain {plain : List UInt8} (h : ∀ b ∈ plain, isPlain b = true) (depth : Nat)
    (bs : List UInt8) : balancedFrom depth none (plain ++ bs) = balancedFrom depth none bs := by
  induction plain with
  | nil => rfl
  | cons b plain ih =>
    rw [List.cons_append, balancedFrom_plain_cons _ _ (h b List.mem_cons_self),
      ih fun b hb => h b (List.mem_cons_of_mem _ hb)]

/-- Inside quotes all bytes but the quote change nothing. -/
lemma balancedFrom_quoted {q : UInt8} {text : List UInt8} (h : q ∉ text) (depth : Nat)
    (bs : List UInt8) :
    balancedFrom depth (some q) (text ++ bs) = balancedFrom depth (some q) bs := by
  induction text with
  | nil => rfl
  | cons b text ih =>
    rw [List.mem_cons, not_or] at h
    rw [List.cons_append, balancedFrom_quoted_cons, if_neg (by simpa using Ne.symm h.1), ih h.2]

/-- Plain bytes at the end change nothing, inside quotes or outside. -/
lemma balancedFrom_append_plain {plain : List UInt8} (h : ∀ b ∈ plain, isPlain b = true) (depth : Nat)
    (quote : Option UInt8) (hq : ∀ q ∈ quote, isQuote q = true) (bs : List UInt8) :
    balancedFrom depth quote (bs ++ plain) = balancedFrom depth quote bs := by
  induction bs generalizing depth quote with
  | nil =>
    rw [List.nil_append]
    cases quote with
    | none => simpa using balancedFrom_plain h depth []
    | some q =>
      have absent : q ∉ plain := by
        intro hp
        have := h q hp
        simp [isPlain, hq q rfl] at this
      simpa using balancedFrom_quoted absent depth []
  | cons b bs ih =>
    rw [List.cons_append]
    cases quote with
    | some q =>
      rw [balancedFrom_quoted_cons, balancedFrom_quoted_cons]
      refine ih depth _ ?_
      split
      · nofun
      · exact hq
    | none =>
      rw [balancedFrom.eq_def, balancedFrom.eq_def depth none (b :: bs)]
      dsimp only
      split
      · next quote => exact ih depth _ fun q hq => by cases hq; exact quote
      · split
        · exact ih (depth + 1) none nofun
        · split
          · cases depth with
            | zero => rfl
            | succ depth => exact ih depth none nofun
          · exact ih depth none nofun

/-! ### Characters -/

/-- The bytes of a character that is neither quote nor parenthesis are none either. -/
lemma isPlain_of_mem_utf8EncodeChar {c : Char} (single : c ≠ '\'') (double : c ≠ '"') (opening : c ≠ '(')
    (closing : c ≠ ')') {b : UInt8} (hb : b ∈ String.utf8EncodeChar c) : isPlain b = true := by
  have absent {q : Char} (small : q.toNat < 0x80) (ne : c ≠ q) : b ≠ ascii q := by
    rintro rfl
    exact ne (eq_of_ascii_mem_utf8EncodeChar small hb)
  have b1 := absent (q := '\'') (by decide) single
  have b2 := absent (q := '"') (by decide) double
  have b3 := absent (q := '(') (by decide) opening
  have b4 := absent (q := ')') (by decide) closing
  simp only [isPlain, isQuote, Bool.and_eq_true, Bool.not_eq_true', Bool.or_eq_false_iff,
    beq_eq_false_iff_ne, bne_iff_ne]
  exact ⟨⟨⟨b1, b2⟩, b3⟩, b4⟩

/-- White space is plain. -/
lemma isPlain_of_mem_encode_of_isSpace {cs : List Char} (h : ∀ c ∈ cs, Text.isSpace c = true) {b : UInt8}
    (hb : b ∈ encode cs) : isPlain b = true := by
  obtain ⟨c, hc, hb⟩ := List.mem_flatMap.1 hb
  have space := h c hc
  have apart {q : Char} (other : Text.isSpace q = false) : c ≠ q := by
    rintro rfl
    rw [other] at space
    cases space
  exact isPlain_of_mem_utf8EncodeChar (apart (by decide)) (apart (by decide)) (apart (by decide))
    (apart (by decide)) hb

/-- White space around a text does not change its balance. -/
lemma balanced_trimChars (cs : List Char) :
    balanced (encode (Text.trimChars cs)) = balanced (encode cs) := by
  have front := List.takeWhile_append_dropWhile (p := Text.isSpace) (l := cs)
  have back := List.takeWhile_append_dropWhile (p := Text.isSpace) (l := (cs.dropWhile Text.isSpace).reverse)
  have whole : cs.dropWhile Text.isSpace = Text.trimChars cs ++
      ((cs.dropWhile Text.isSpace).reverse.takeWhile Text.isSpace).reverse := by
    rw [Text.trimChars, Text.dropWhileEnd, ← List.reverse_append, back, List.reverse_reverse]
  have space (xs : List Char) : ∀ c ∈ xs.takeWhile Text.isSpace, Text.isSpace c = true :=
    fun c hc => List.mem_takeWhile_imp hc
  conv_rhs => rw [← front, whole]
  rw [balanced, balanced, encode_append,
    balancedFrom_plain fun b => isPlain_of_mem_encode_of_isSpace (space cs), encode_append,
    balancedFrom_append_plain _ 0 none nofun]
  intro b
  refine isPlain_of_mem_encode_of_isSpace fun c hc => ?_
  exact space _ c (List.mem_reverse.1 hc)

end Check

/-! ### What the scanner closes -/

namespace Scan

open Check

/-- The byte of the quote that an expression is inside of. -/
def quoteByte (inside : Option (Char × Nat)) : Option UInt8 := inside.map fun q => ascii q.1

/-- A quote that opens or closes a string. -/
lemma encode_quote {q : Char} (h : q = '\'' ∨ q = '"') :
    String.utf8EncodeChar q = [ascii q] ∧ isQuote (ascii q) = true := by
  rcases h with rfl | rfl <;> decide

/-- An expression that is closed is balanced. The parentheses among the open brackets count, apart from
the one that opens the expression. -/
lemma balancedFrom_of_exprEnd {n m : Nat} {stack front : List Char} {inside : Option (Char × Nat)}
    {cs : List Char} (h : exprEnd n stack inside cs = .closed m) (outer : stack = front ++ ['('])
    (quote : ∀ q ∈ inside, q.1 = '\'' ∨ q.1 = '"') :
    balancedFrom (front.count '(') (quoteByte inside) (encode (cs.take (m - n - 1))) = true := by
  -- every character that is read stands in front of the closing parenthesis
  have peel {n : Nat} (c : Char) (cs : List Char) (lt : n + 1 < m) :
      encode ((c :: cs).take (m - n - 1)) =
        String.utf8EncodeChar c ++ encode (cs.take (m - (n + 1) - 1)) := by
    obtain ⟨k, hk⟩ : ∃ k, m - n - 1 = k + 1 := ⟨m - n - 2, by omega⟩
    rw [hk, List.take_succ_cons, encode_cons]
    congr 4
    omega
  have outside : ∀ q ∈ (none : Option (Char × Nat)), q.1 = '\'' ∨ q.1 = '"' := by rintro _ ⟨⟩
  fun_induction exprEnd n stack inside cs generalizing front with
  | case1 => cases h
  | case2 => cases h
  | case3 => cases h
  | case4 => cases h
  | case5 n stack c q before _ closes d ds again ih =>
    -- a doubled quote closes the string and opens it again
    obtain rfl := eq_of_beq closes
    obtain rfl := eq_of_beq again
    obtain ⟨byte, isQuote⟩ := encode_quote (quote _ rfl)
    have lt := (exprEnd_le h).1
    rw [peel d _ (by omega), peel d _ lt, byte, quoteByte, Option.map_some, List.singleton_append,
      List.singleton_append, balancedFrom_quoted_cons, if_pos (beq_self_eq_true _),
      balancedFrom_quote _ _ isQuote]
    exact ih h outer quote
  | case6 n stack c q before _ closes d ds _ ih =>
    obtain rfl := eq_of_beq closes
    obtain ⟨byte, -⟩ := encode_quote (quote _ rfl)
    rw [peel c _ (exprEnd_le h).1, byte, quoteByte, Option.map_some, List.singleton_append,
      balancedFrom_quoted_cons, if_pos (beq_self_eq_true _)]
    exact ih h outer outside
  | case7 n stack c cs q before _ other ih =>
    have absent : ascii q ∉ String.utf8EncodeChar c := by
      intro hq
      refine other (beq_iff_eq.2 (eq_of_ascii_mem_utf8EncodeChar ?_ hq))
      rcases quote _ rfl with rfl | rfl <;> decide
    rw [peel c _ (exprEnd_le h).1, quoteByte, Option.map_some, balancedFrom_quoted absent]
    exact ih h outer quote
  | case8 n stack c cs opens ih =>
    have isQ : c = '\'' ∨ c = '"' := by simpa using opens
    obtain ⟨byte, isQuote⟩ := encode_quote isQ
    rw [peel c _ (exprEnd_le h).1, byte, quoteByte, Option.map_none, List.singleton_append,
      balancedFrom_quote _ _ isQuote]
    exact ih h outer fun q hq => by cases hq; exact isQ
  | case9 n stack c cs _ opens ih =>
    have deeper : c :: stack = (c :: front) ++ ['('] := by rw [outer, List.cons_append]
    have more := ih h deeper outside
    rw [peel c _ (exprEnd_le h).1, quoteByte, Option.map_none]
    rw [Bool.or_eq_true, beq_iff_eq, beq_iff_eq] at opens
    rcases opens with rfl | rfl
    · rwa [List.count_cons_self] at more
    · rwa [List.count_cons_of_ne (by decide)] at more
  | case10 => cases h
  | case11 n c cs _ _ _ bracket outer' same last =>
    cases h
    obtain rfl : front = [] := by
      cases front with
      | nil => rfl
      | cons b front => simp_all
    simp [encode, balancedFrom, quoteByte]
  | case12 n c cs _ _ closes bracket rest same more ih =>
    obtain ⟨front, rfl⟩ : ∃ f, front = bracket :: f := by
      cases front with
      | nil => simp_all
      | cons b f => exact ⟨f, by simp_all⟩
    have shallower : rest = front ++ ['('] := by simpa using outer
    have inner := ih h shallower outside
    rw [peel c _ (exprEnd_le h).1, quoteByte, Option.map_none]
    rw [Bool.or_eq_true, beq_iff_eq, beq_iff_eq] at closes
    obtain rfl := eq_of_beq same
    rcases closes with rfl | rfl
    · rw [show openingBracket ')' = '(' from rfl, List.count_cons_self]
      exact (balancedFrom_closing _ _).trans inner
    · rw [List.count_cons_of_ne (by decide)]
      exact (balancedFrom_plain_cons _ _ (by decide)).trans inner
  | case13 => cases h
  | case14 n stack c cs noQuote noOpen noClose ih =>
    rw [peel c _ (exprEnd_le h).1, quoteByte, Option.map_none, balancedFrom_plain]
    · exact ih h outer outside
    · intro b hb
      simp only [Bool.or_eq_true, beq_iff_eq, not_or] at noQuote noOpen noClose
      exact isPlain_of_mem_utf8EncodeChar noQuote.1 noQuote.2 noOpen.1 noClose.1 hb

/-- Only a closed expression gives an expression token. -/
lemma exprEnd_of_step {opens : Bool} {c : Char} {cs : List Char} {spelling : String} {more : Nat}
    (h : step opens c cs = .token .expr spelling more) :
    exprEnd 0 ['('] none cs = .closed more ∧
      spelling = String.ofList (Text.trimChars (cs.take (more - 1))) := by
  cases takes_of_step h with
  | expr _ _ closed => exact ⟨closed, rfl⟩

lemma balanced_of_step {opens : Bool} {c : Char} {cs : List Char} {spelling : String} {more : Nat}
    (h : step opens c cs = .token .expr spelling more) : balanced (Text.bytes spelling) = true := by
  obtain ⟨closed, rfl⟩ := exprEnd_of_step h
  rw [Text.bytes, String.toList_ofList, balanced_trimChars]
  exact balancedFrom_of_exprEnd closed (List.nil_append _).symm (by rintro _ ⟨⟩)

/-- A token before the end of a text comes from a step. -/
lemma exists_step_of_mem_scanFrom {opens : Bool} {p : Position} {cs : List Char} {t : Token}
    (h : t ∈ (scanFrom opens p cs).tokens) (kind : t.kind ≠ .eof) :
    ∃ opens c cs more, step opens c cs = .token t.kind t.spelling more := by
  fun_induction scanFrom opens p cs with
  | case1 opens p =>
    obtain rfl := List.mem_singleton.1 h
    exact absurd rfl kind
  | case2 opens p c cs more _ ih => exact ih h
  | case3 opens p c cs kind' spelling more found next token rest ih =>
    rcases List.mem_cons.1 h with rfl | h
    · exact ⟨opens, c, cs, more, found⟩
    · exact ih h
  | case4 opens p c cs fault before more _ place rest ih => exact ih h

/-- Every expression token of a text is balanced. -/
lemma balanced_of_mem_ofBytes {src : List UInt8} {t : Token} (h : t ∈ (ofBytes src).tokens)
    (expr : t.kind = .expr) : balanced (Text.bytes t.spelling) = true := by
  unfold ofBytes at h
  split at h
  · obtain ⟨opens, c, cs, more, found⟩ := exists_step_of_mem_scanFrom h (by simp [expr])
    rw [expr] at found
    exact balanced_of_step found
  · cases h

end Scan

end ErdSql
