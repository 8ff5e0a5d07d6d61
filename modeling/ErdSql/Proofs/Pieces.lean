import ErdSql.Proofs.Phrase

/-!
# Pieces and what follows them

How far a script is read ahead to find the end of a piece, and what may therefore be put in the place
of the text behind a piece.

* `pieceAt_agree`: a piece stays the same when what follows it looks the same.
* `Closed.pieces_append`: a text that leaves no comment and no quoted run open is cut into pieces on its
  own, whatever follows it with a byte that goes on with nothing before it.
-/

namespace ErdSql.Script

open Text (ascii)

/-- The bytes of a piece, as they stand in the script. -/
def Piece.bytes : Piece → List UInt8
  | semicolon => [ascii ';']
  | blank b => [b]
  | comment bs => bs
  | quoted bs => bs
  | other b => [b]

/-! ### Lengths -/

/-- A quoted run has at least one byte if there is one. -/
lemma one_le_quotedLength (quote : UInt8) (escapes : Bool) (b : UInt8) (bs : List UInt8) :
    1 ≤ quotedLength quote escapes (b :: bs) := by
  cases bs with
  | nil => exact le_rfl
  | cons c bs =>
    rw [quotedLength]
    split
    · omega
    · split
      · split <;> omega
      · omega

/-- A quoted run ends within the script. -/
lemma quotedLength_le (quote : UInt8) (escapes : Bool) (bs : List UInt8) :
    quotedLength quote escapes bs ≤ bs.length := by
  fun_induction quotedLength quote escapes bs <;> simp_all <;> omega

/-- A comment has at least one byte if there is one. -/
lemma one_le_commentLength (depth : Nat) (b : UInt8) (bs : List UInt8) :
    1 ≤ commentLength depth (b :: bs) := by
  cases bs with
  | nil => exact le_rfl
  | cons c bs =>
    rw [commentLength]
    split
    · omega
    · split
      · split <;> omega
      · omega

/-- A comment ends within the script. -/
lemma commentLength_le (depth : Nat) (bs : List UInt8) : commentLength depth bs ≤ bs.length := by
  fun_induction commentLength depth bs <;> simp_all <;> omega

/-- A tag is a name between dollars. -/
lemma dollarTag?_eq_some_iff {bs tag : List UInt8} : dollarTag? bs = some tag ↔
    ∃ name rest, bs = name ++ ascii '$' :: rest ∧ (∀ b ∈ name, isWordByte b = true) ∧
      (∀ b ∈ name.head?, isDigitByte b = false) ∧ tag = ascii '$' :: name ++ [ascii '$'] := by
  constructor
  · intro h
    simp only [dollarTag?] at h
    split at h
    · cases h
    · next noDigit =>
      split at h
      · next b rest behind =>
        split at h
        · next dollar =>
          refine ⟨bs.takeWhile isWordByte, rest, ?_, fun b hb => List.mem_takeWhile_imp hb, ?_,
            (Option.some.inj h).symm⟩
          · have whole := List.take_append_drop (bs.takeWhile isWordByte).length bs
            rw [behind, beq_iff_eq.1 dollar,
              (List.prefix_iff_eq_take.1 (List.takeWhile_prefix isWordByte)).symm] at whole
            exact whole.symm
          · intro b hb
            rw [hb] at noDigit
            simpa using noDigit
        · cases h
      · cases h
  · rintro ⟨name, rest, rfl, word, noDigit, rfl⟩
    have length : ((name ++ ascii '$' :: rest).takeWhile isWordByte) = name := by
      rw [List.takeWhile_append_of_pos word, List.takeWhile_cons, if_neg (by decide), List.append_nil]
    simp only [dollarTag?, length]
    rw [if_neg, List.drop_left' rfl]
    · simp
    · cases hd : name.head? with
      | none => simp
      | some b => simp [noDigit b hd]

/-- A byte string occurs within the script. -/
lemma indexOf?_add_le {pattern bs : List UInt8} {n : Nat} (h : indexOf? pattern bs = some n) :
    n + pattern.length ≤ bs.length := by
  induction bs generalizing n with
  | nil =>
    rw [indexOf?] at h
    split at h
    · next empty =>
      rw [List.isEmpty_iff] at empty
      cases h
      simp [empty]
    · cases h
  | cons b bs ih =>
    rw [indexOf?] at h
    split at h
    · next pre =>
      cases h
      simpa using (List.isPrefixOf_iff_prefix.1 pre).length_le
    · obtain ⟨m, hm, rfl⟩ := Option.map_eq_some_iff.1 h
      have := ih hm
      rw [List.length_cons]
      omega

/-- A dollar-quoted body ends within the script. -/
lemma bodyLength_le (tag bs : List UInt8) : bodyLength tag bs ≤ bs.length := by
  unfold bodyLength
  split
  · next n h => exact indexOf?_add_le h
  · exact le_rfl

/-! ### What looks the same -/

/-- Whether a byte neither continues what stands before it nor opens something with it. -/
def isCalm (b : UInt8) : Bool :=
  !isWordByte b && b != ascii '$' && b != ascii '\'' && b != ascii '"' && b != ascii '-' &&
    b != ascii '*'

/-- The second text looks like the first to a piece that ends before them: they start with the same
word and the same byte behind it, unless the second ends or goes on with a calm byte earlier. -/
inductive Agree : List UInt8 → List UInt8 → Prop
  | ended (r : List UInt8) : Agree r []
  | calm {b : UInt8} (h : isCalm b = true) (r r' : List UInt8) : Agree r (b :: r')
  | same {b : UInt8} (h : isWordByte b = false) (r r' : List UInt8) : Agree (b :: r) (b :: r')
  | word {b : UInt8} (h : isWordByte b = true) {r r' : List UInt8} (rest : Agree r r') :
      Agree (b :: r) (b :: r')

namespace Agree

/-- The first byte is the same or calm. -/
lemma head {r r' : List UInt8} (h : Agree r r') {b : UInt8} (hb : r'.head? = some b) :
    r.head? = some b ∨ isCalm b = true := by
  cases h with
  | ended => cases hb
  | calm h => exact .inr (Option.some.inj hb ▸ h)
  | same h => exact .inl hb
  | word h => exact .inl hb

/-- A byte that is not calm does not come first if it did not. -/
lemma head_ne {r r' : List UInt8} (h : Agree r r') {b : UInt8} (loud : isCalm b = false)
    (hb : r.head? ≠ some b) : r'.head? ≠ some b := by
  intro hd
  rcases h.head hd with same | calm
  · exact hb same
  · rw [calm] at loud
    cases loud

/-- A tag that follows followed before. -/
lemma exists_of_tag {name r x : List UInt8} (h : Agree r (name ++ ascii '$' :: x))
    (word : ∀ b ∈ name, isWordByte b = true) : ∃ y, r = name ++ ascii '$' :: y := by
  have table : ∀ b : UInt8, isWordByte b = true → isCalm b = false := forall_byte (by decide)
  induction name generalizing r with
  | nil =>
    cases h with
    | calm h => exact absurd h (by decide)
    | same h r => exact ⟨r, rfl⟩
    | word h => exact absurd h (by decide)
  | cons c name ih =>
    have hc := word c List.mem_cons_self
    cases h with
    | calm h => exact absurd h (by rw [table c hc]; decide)
    | same h r => exact absurd h (by rw [hc]; decide)
    | word h rest =>
      obtain ⟨y, rfl⟩ := ih rest fun b hb => word b (List.mem_cons_of_mem c hb)
      exact ⟨y, rfl⟩

/-- No tag follows if none did. -/
lemma dollarTag? {r r' : List UInt8} (h : Agree r r') (none : Script.dollarTag? r = none) :
    Script.dollarTag? r' = .none := by
  by_contra some
  obtain ⟨tag, ht⟩ := Option.ne_none_iff_exists'.1 some
  obtain ⟨name, rest, rfl, word, noDigit, rfl⟩ := dollarTag?_eq_some_iff.1 ht
  obtain ⟨y, rfl⟩ := h.exists_of_tag word
  have := dollarTag?_eq_some_iff.2 ⟨name, y, rfl, word, noDigit, rfl⟩
  rw [this] at none
  cases none

end Agree

/-! ### Pieces that end -/

/-- The first byte of a text that is not empty. -/
lemma exists_cons_of_append {t r rest : List UInt8} {a : UInt8} (e : t ++ r = a :: rest)
    (h : 0 < t.length) : ∃ t', t = a :: t' ∧ t' ++ r = rest := by
  cases t with
  | nil => cases h
  | cons c t =>
    obtain ⟨rfl, rfl⟩ := List.cons.inj e
    exact ⟨t, rfl, rfl⟩

/-- The first two bytes of a text that has as many. -/
lemma exists_cons_cons_of_append {t r rest : List UInt8} {a b : UInt8} (e : t ++ r = a :: b :: rest)
    (h : 1 < t.length) : ∃ t', t = a :: b :: t' ∧ t' ++ r = rest := by
  obtain ⟨t, rfl, tail⟩ := exists_cons_of_append e (by omega)
  rw [List.length_cons] at h
  obtain ⟨t, rfl, tail'⟩ := exists_cons_of_append tail (by omega)
  exact ⟨t, rfl, tail'⟩

/-- A quoted run that ends before the end of the script ends there, whatever follows but a quote. -/
lemma quotedLength_append {quote : UInt8} {escapes : Bool} {t r : List UInt8}
    (h : quotedLength quote escapes (t ++ r) = t.length) (ne : r ≠ []) {r' : List UInt8}
    (noQuote : r.head? ≠ some quote → r'.head? ≠ some quote) :
    quotedLength quote escapes (t ++ r') = t.length := by
  generalize e : t ++ r = bs at h
  fun_induction quotedLength quote escapes bs generalizing t with
  | case1 => exact absurd (List.append_eq_nil_iff.1 e).2 ne
  | case2 a =>
    have length := congrArg List.length e
    have := List.length_pos_iff.2 ne
    rw [List.length_append, List.length_singleton] at length
    omega
  | case3 a b rest escaped ih =>
    obtain ⟨t, rfl, tail⟩ := exists_cons_cons_of_append e (by omega)
    simp only [List.length_cons] at h ⊢
    rw [List.cons_append, List.cons_append, quotedLength, if_pos escaped, ih tail (by omega)]
    omega
  | case4 a b rest plain closing doubled ih =>
    obtain ⟨t, rfl, tail⟩ := exists_cons_cons_of_append e (by omega)
    simp only [List.length_cons] at h ⊢
    rw [List.cons_append, List.cons_append, quotedLength, if_neg plain, if_pos closing, if_pos doubled,
      ih tail (by omega)]
    omega
  | case5 a b rest plain closing single =>
    obtain ⟨t, rfl, tail⟩ := exists_cons_of_append e (by omega)
    obtain rfl : t = [] := by simpa using h.symm
    cases r' with
    | nil => rfl
    | cons c r' =>
      rw [List.cons_append, List.nil_append, quotedLength, if_neg plain, if_pos closing, if_neg]
      · rfl
      · obtain rfl : r = b :: rest := tail
        simpa using noQuote (by simpa using single)
  | case6 a b rest plain inside ih =>
    have := one_le_quotedLength quote escapes b rest
    obtain ⟨t, rfl, tail⟩ := exists_cons_cons_of_append e (by omega)
    simp only [List.length_cons] at h ⊢
    have next := @ih (b :: t) (by rw [List.cons_append, tail]) (by rw [List.length_cons]; omega)
    rw [List.cons_append, List.cons_append, quotedLength, if_neg plain, if_neg inside, ← List.cons_append,
      next, List.length_cons]
    omega

/-- A comment that ends before the end of the script ends there, whatever follows. -/
lemma commentLength_append {depth : Nat} {t r : List UInt8}
    (h : commentLength depth (t ++ r) = t.length) (ne : r ≠ []) (r' : List UInt8) :
    commentLength depth (t ++ r') = t.length := by
  generalize e : t ++ r = bs at h
  fun_induction commentLength depth bs generalizing t with
  | case1 depth a b rest opening ih =>
    obtain ⟨t, rfl, tail⟩ := exists_cons_cons_of_append e (by omega)
    simp only [List.length_cons] at h ⊢
    rw [List.cons_append, List.cons_append, commentLength, if_pos opening, ih tail (by omega)]
    omega
  | case2 depth a b rest plain closing last =>
    obtain ⟨t, rfl, tail⟩ := exists_cons_cons_of_append e (by omega)
    obtain rfl : t = [] := by simpa using h.symm
    rw [List.cons_append, List.cons_append, commentLength, if_neg plain, if_pos closing, if_pos last]
    rfl
  | case3 depth a b rest plain closing inner ih =>
    obtain ⟨t, rfl, tail⟩ := exists_cons_cons_of_append e (by omega)
    simp only [List.length_cons] at h ⊢
    rw [List.cons_append, List.cons_append, commentLength, if_neg plain, if_pos closing, if_neg inner,
      ih tail (by omega)]
    omega
  | case4 depth a b rest plain inside ih =>
    have := one_le_commentLength depth b rest
    obtain ⟨t, rfl, tail⟩ := exists_cons_cons_of_append e (by omega)
    simp only [List.length_cons] at h ⊢
    have next := @ih (b :: t) (by rw [List.cons_append, tail]) (by rw [List.length_cons]; omega)
    rw [List.cons_append, List.cons_append, commentLength, if_neg plain, if_neg inside,
      ← List.cons_append, next, List.length_cons]
    omega
  | case5 depth bs short =>
    have length := congrArg List.length e
    have := List.length_pos_iff.2 ne
    rw [List.length_append] at length
    omega

/-- The first occurrence of a byte string stays where it is, whatever follows. -/
lemma indexOf?_append {pattern t r : List UInt8} {n : Nat} (h : indexOf? pattern (t ++ r) = some n)
    (fits : n + pattern.length ≤ t.length) (r' : List UInt8) :
    indexOf? pattern (t ++ r') = some n := by
  have start {t r : List UInt8} (fits : pattern.length ≤ t.length) :
      pattern.isPrefixOf (t ++ r) = pattern.isPrefixOf t := by
    rw [Bool.eq_iff_iff, List.isPrefixOf_iff_prefix, List.isPrefixOf_iff_prefix]
    exact ⟨fun h => List.prefix_of_prefix_length_le h (List.prefix_append _ _) fits,
      fun h => h.trans (List.prefix_append _ _)⟩
  induction t generalizing n with
  | nil =>
    obtain rfl : pattern = [] := by
      rw [List.length_nil] at fits
      exact List.eq_nil_of_length_eq_zero (by omega)
    have zero : ∀ bs : List UInt8, indexOf? [] bs = some 0 := by
      intro bs
      cases bs <;> simp [indexOf?, List.isPrefixOf]
    rw [List.nil_append, zero] at h
    rw [List.nil_append, zero, h]
  | cons b t ih =>
    rw [List.cons_append, indexOf?, ← List.cons_append, start (by omega)] at h
    rw [List.cons_append, indexOf?, ← List.cons_append, start (by omega)]
    split at h
    · next found =>
      rw [if_pos found]
      exact h
    · next later =>
      obtain ⟨m, hm, rfl⟩ := Option.map_eq_some_iff.1 h
      rw [if_neg later, ih hm (by rw [List.length_cons] at fits; omega)]
      rfl

/-- A dollar-quoted body that ends before the end of the script ends there, whatever follows. -/
lemma bodyLength_append {tag t r : List UInt8} (h : bodyLength tag (t ++ r) = t.length) (ne : r ≠ [])
    (r' : List UInt8) : bodyLength tag (t ++ r') = t.length := by
  unfold bodyLength at h
  split at h
  · next n found =>
    rw [bodyLength, indexOf?_append found (by omega)]
    exact h
  · have := List.length_pos_iff.2 ne
    rw [List.length_append] at h
    omega

/-- A run of bytes that ends before the end of the script ends where another byte follows. -/
lemma of_length_takeWhile {q : UInt8 → Bool} {t r : List UInt8}
    (h : ((t ++ r).takeWhile q).length = t.length) :
    (∀ b ∈ t, q b = true) ∧ ∀ b ∈ r.head?, q b = false := by
  have run : (t ++ r).takeWhile q = t := by
    have pre := List.prefix_of_prefix_length_le (List.takeWhile_prefix q) (List.prefix_append t r) h.le
    exact pre.eq_of_length h
  have all : ∀ b ∈ t, q b = true := fun b hb => List.mem_takeWhile_imp (run ▸ hb)
  refine ⟨all, fun b hb => ?_⟩
  rw [List.takeWhile_append_of_pos all, List.append_right_eq_self] at run
  cases r with
  | nil => cases hb
  | cons c r =>
    obtain rfl : c = b := Option.some.inj hb
    rw [List.takeWhile_cons] at run
    split at run
    · cases run
    · next stop => simpa using stop

/-- A tag and what is left of a text that covers it. -/
lemma exists_of_dollarTag? {t r tag : List UInt8} (h : dollarTag? (t ++ r) = some tag)
    (covered : tag.length - 1 ≤ t.length) : ∃ body, t = tag.drop 1 ++ body ∧
      ∀ r', dollarTag? (t ++ r') = some tag := by
  obtain ⟨name, rest, e, word, noDigit, rfl⟩ := dollarTag?_eq_some_iff.1 h
  have pre : name ++ [ascii '$'] <+: t := by
    refine List.prefix_of_prefix_length_le ⟨rest, ?_⟩ (List.prefix_append t r) (by simpa using covered)
    rw [e, List.append_assoc, List.singleton_append]
  obtain ⟨body, rfl⟩ := pre
  refine ⟨body, rfl, fun r' => dollarTag?_eq_some_iff.2 ⟨name, body ++ r', ?_, word, noDigit, rfl⟩⟩
  simp

/-- A piece: its bytes are the first ones of the script. -/
lemma exists_pieceAt (before : Before) (b : UInt8) (rest : List UInt8) :
    ∃ p t r, rest = t ++ r ∧ pieceAt before b rest = (p, t.length) ∧ p.bytes = b :: t := by
  have run {n : Nat} (fits : n ≤ rest.length) (piece : List UInt8 → Piece)
      (shape : ∀ bs, (piece bs).bytes = bs) : ∃ p t r, rest = t ++ r ∧
        (piece (b :: rest.take n), n) = (p, t.length) ∧ p.bytes = b :: t :=
    ⟨piece (b :: rest.take n), rest.take n, rest.drop n, (List.take_append_drop n rest).symm,
      by rw [List.length_take, Nat.min_eq_left fits], shape _⟩
  generalize h : pieceAt before b rest = piece
  unfold pieceAt at h
  dsimp only at h
  obtain ⟨semicolon, rfl⟩ | ⟨-, h⟩ := ite_eq_iff.1 h
  · exact ⟨.semicolon, [], rest, rfl, rfl, by rw [beq_iff_eq.1 semicolon]; rfl⟩
  obtain ⟨-, rfl⟩ | ⟨-, h⟩ := ite_eq_iff.1 h
  · exact ⟨.blank b, [], rest, rfl, rfl, rfl⟩
  obtain ⟨-, rfl⟩ | ⟨-, h⟩ := ite_eq_iff.1 h
  · exact run (List.takeWhile_prefix _).length_le .comment fun _ => rfl
  obtain ⟨-, rfl⟩ | ⟨-, h⟩ := ite_eq_iff.1 h
  · have := commentLength_le 0 (b :: rest)
    rw [List.length_cons] at this
    exact run (by omega) .comment fun _ => rfl
  obtain ⟨-, rfl⟩ | ⟨-, h⟩ := ite_eq_iff.1 h
  · exact run (quotedLength_le ..) .quoted fun _ => rfl
  obtain ⟨-, rfl⟩ | ⟨-, h⟩ := ite_eq_iff.1 h
  · exact run (quotedLength_le ..) .quoted fun _ => rfl
  obtain ⟨-, rfl⟩ | ⟨-, rfl⟩ := ite_eq_iff.1 h
  · split
    · next tag found =>
      refine run ?_ .quoted fun _ => rfl
      obtain ⟨name, more, rfl, -, -, rfl⟩ := dollarTag?_eq_some_iff.1 found
      have := bodyLength_le (ascii '$' :: name ++ [ascii '$'])
        ((name ++ ascii '$' :: more).drop ((ascii '$' :: name ++ [ascii '$']).length - 1))
      simp at this ⊢
      omega
    · exact ⟨.other b, [], rest, rfl, rfl, rfl⟩
  · exact ⟨.other b, [], rest, rfl, rfl, rfl⟩

/-- A block comment that ends before the end of the script stays the same, whatever follows. -/
lemma pieceAt_blockComment (before : Before) {b : UInt8} {t r : List UInt8}
    (star : b = ascii '/' ∧ (t ++ r).head? = some (ascii '*'))
    (length : commentLength 0 (b :: (t ++ r)) - 1 = t.length) (ne : r ≠ []) (r' : List UInt8) :
    pieceAt before b (t ++ r') = (.comment (b :: t), t.length) := by
  obtain ⟨rfl, star⟩ := star
  have whole : commentLength 0 (ascii '/' :: t ++ r) = (ascii '/' :: t).length := by
    have := one_le_commentLength 0 (ascii '/') (t ++ r)
    rw [List.cons_append, List.length_cons]
    omega
  obtain ⟨t, rfl⟩ : ∃ t', t = ascii '*' :: t' := by
    cases t with
    | nil =>
      obtain ⟨c, r, rfl⟩ := List.exists_cons_of_ne_nil ne
      obtain rfl : c = ascii '*' := Option.some.inj star
      rw [List.cons_append, List.nil_append, commentLength, if_pos (by decide),
        List.length_singleton] at whole
      omega
    | cons a t => exact ⟨t, by rw [Option.some.inj star]⟩
  have again := commentLength_append whole ne r'
  have piece : pieceAt before (ascii '/') (ascii '*' :: t ++ r') =
      (.comment (ascii '/' :: (ascii '*' :: t ++ r').take
          (commentLength 0 (ascii '/' :: ascii '*' :: t ++ r') - 1)),
        commentLength 0 (ascii '/' :: ascii '*' :: t ++ r') - 1) := rfl
  rw [piece, again]
  simp only [List.length_cons, Nat.add_sub_cancel]
  rw [List.take_left' (by simp)]

/-- A comment goes to the end of its line or is a block. -/
lemma comment_of_pieceAt {before : Before} {b : UInt8} {t r bs : List UInt8}
    (h : pieceAt before b (t ++ r) = (.comment bs, t.length)) :
    (∀ c ∈ r.head?, c = ascii '\n') ∨ (b = ascii '/' ∧ (t ++ r).head? = some (ascii '*')) ∧
      commentLength 0 (b :: (t ++ r)) - 1 = t.length := by
  unfold pieceAt at h
  dsimp only at h
  obtain ⟨-, h⟩ | ⟨-, h⟩ := ite_eq_iff.1 h
  · cases h
  obtain ⟨-, h⟩ | ⟨-, h⟩ := ite_eq_iff.1 h
  · cases h
  obtain ⟨-, h⟩ | ⟨-, h⟩ := ite_eq_iff.1 h
  · obtain ⟨-, stop⟩ := of_length_takeWhile (Prod.mk.inj h).2
    exact .inl fun c hc => by simpa using stop c hc
  obtain ⟨star, h⟩ | ⟨-, h⟩ := ite_eq_iff.1 h
  · rw [Bool.and_eq_true, beq_iff_eq, beq_iff_eq] at star
    exact .inr ⟨star, (Prod.mk.inj h).2⟩
  obtain ⟨-, h⟩ | ⟨-, h⟩ := ite_eq_iff.1 h
  · cases h
  obtain ⟨-, h⟩ | ⟨-, h⟩ := ite_eq_iff.1 h
  · cases h
  obtain ⟨-, h⟩ | ⟨-, h⟩ := ite_eq_iff.1 h
  · split at h <;> cases h
  · cases h

/-- A piece stays the same when what follows it looks the same. What goes to the end of the script
still does, and what follows a comment to the end of its line is the line feed or nothing. -/
lemma pieceAt_agree {before : Before} {b : UInt8} {t r r' : List UInt8} {p : Piece}
    (h : pieceAt before b (t ++ r) = (p, t.length)) (agree : Agree r r') (ended : r = [] → r' = [])
    (feed : (∃ bs, p = .comment bs) → r.head? = some (ascii '\n') →
      r' = [] ∨ r'.head? = some (ascii '\n')) :
    pieceAt before b (t ++ r') = (p, t.length) := by
  by_cases ne : r = []
  · rw [ended ne, ← ne]
    exact h
  have run {n m : Nat} {piece : List UInt8 → Piece} (h : (piece (b :: (t ++ r).take n), n) = (p, t.length))
      (same : n = t.length → m = t.length) : (piece (b :: (t ++ r').take m), m) = (p, t.length) := by
    obtain ⟨rfl, length⟩ := Prod.mk.inj h
    rw [same length, length, List.take_left' rfl, List.take_left' rfl]
  have alone (h : (Piece.other b, 0) = (p, t.length)) : t = [] ∧ p = .other b := by
    obtain ⟨rfl, length⟩ := Prod.mk.inj h
    exact ⟨List.eq_nil_of_length_eq_zero length.symm, rfl⟩
  have first (c : UInt8) (loud : isCalm c = false) (h : (t ++ r).head? ≠ some c) :
      (t ++ r').head? ≠ some c := by
    cases t with
    | nil => exact agree.head_ne loud h
    | cons a t => exact h
  unfold pieceAt at h ⊢
  dsimp only at h ⊢
  obtain ⟨semicolon, h⟩ | ⟨noSemicolon, h⟩ := ite_eq_iff.1 h
  · rw [if_pos semicolon]
    exact h
  rw [if_neg noSemicolon]
  obtain ⟨blank, h⟩ | ⟨noBlank, h⟩ := ite_eq_iff.1 h
  · rw [if_pos blank]
    exact h
  rw [if_neg noBlank]
  obtain ⟨dashes, h⟩ | ⟨noDashes, h⟩ := ite_eq_iff.1 h
  · rw [Bool.and_eq_true, beq_iff_eq, beq_iff_eq] at dashes
    obtain ⟨shape, length⟩ := Prod.mk.inj h
    obtain ⟨all, stop⟩ := of_length_takeWhile length
    -- the second dash belongs to the comment, since only a line feed ends it
    obtain ⟨a, t, rfl⟩ : ∃ a t', t = a :: t' := by
      cases t with
      | nil => exact absurd (stop _ dashes.2) (by decide)
      | cons a t => exact ⟨a, t, rfl⟩
    have stop' : ∀ b ∈ r'.head?, (b != ascii '\n') = false := by
      obtain ⟨c, r, rfl⟩ := List.exists_cons_of_ne_nil ne
      have lineFeed : c = ascii '\n' := by simpa using stop c rfl
      rcases feed ⟨_, shape.symm⟩ (congrArg some lineFeed) with rfl | hd
      · nofun
      · rintro b hb
        rw [hd] at hb
        obtain rfl := Option.some.inj hb
        decide
    rw [if_pos (by simpa using dashes)]
    exact run h fun _ => Word.length_takeWhile_append all stop'
  have noDashes' : ¬ (b == ascii '-' && (t ++ r').head? == some (ascii '-')) = true := by
    rw [Bool.and_eq_true, beq_iff_eq, beq_iff_eq, not_and] at noDashes ⊢
    exact fun dash => first _ (by decide) (noDashes dash)
  rw [if_neg noDashes']
  obtain ⟨star, h⟩ | ⟨noStar, h⟩ := ite_eq_iff.1 h
  · obtain ⟨shape, length⟩ := Prod.mk.inj h
    rw [length, List.take_left' rfl] at shape
    rw [Bool.and_eq_true, beq_iff_eq, beq_iff_eq] at star
    have whole := pieceAt_blockComment before star length ne r'
    rw [shape] at whole
    simpa only [pieceAt, if_neg noSemicolon, if_neg noBlank, if_neg noDashes'] using whole
  rw [if_neg (by
    rw [Bool.and_eq_true, beq_iff_eq, beq_iff_eq, not_and] at noStar ⊢
    exact fun slash => first _ (by decide) (noStar slash))]
  obtain ⟨quote, h⟩ | ⟨noQuote, h⟩ := ite_eq_iff.1 h
  · rw [if_pos quote]
    refine run h fun length => quotedLength_append length ne (agree.head_ne ?_)
    rw [beq_iff_eq.1 quote]
    decide
  rw [if_neg noQuote]
  obtain ⟨quote, h⟩ | ⟨noName, h⟩ := ite_eq_iff.1 h
  · rw [if_pos quote]
    refine run h fun length => quotedLength_append length ne (agree.head_ne ?_)
    rw [beq_iff_eq.1 quote]
    decide
  rw [if_neg noName]
  obtain ⟨dollar, h⟩ | ⟨noDollar, h⟩ := ite_eq_iff.1 h
  · rw [if_pos dollar]
    split at h
    · next tag found =>
      have length := (Prod.mk.inj h).2
      obtain ⟨body, rfl, always⟩ := exists_of_dollarTag? found (by omega)
      rw [always r']
      refine run h fun _ => ?_
      rw [List.append_assoc, List.drop_left' (by simp)] at length
      simp only [List.length_append, List.length_drop] at length
      rw [List.append_assoc, List.drop_left' (by simp), bodyLength_append (by omega) ne]
      simp
    · next none =>
      obtain ⟨rfl, rfl⟩ := alone h
      rw [List.nil_append, agree.dollarTag? none]
      rfl
  rw [if_neg noDollar]
  exact h

/-! ### The ends of quoted runs -/

lemma getLast?_of_quotedLength {quote : UInt8} {escapes : Bool} {t r : List UInt8}
    (h : quotedLength quote escapes (t ++ r) = t.length) (ne : r ≠ []) :
    t.getLast? = some quote := by
  generalize e : t ++ r = bs at h
  fun_induction quotedLength quote escapes bs generalizing t with
  | case1 => exact absurd (List.append_eq_nil_iff.1 e).2 ne
  | case2 a =>
    have length := congrArg List.length e
    have := List.length_pos_iff.2 ne
    rw [List.length_append, List.length_singleton] at length
    omega
  | case3 a b rest escaped ih =>
    obtain ⟨t, rfl, tail⟩ := exists_cons_cons_of_append e (by omega)
    simp only [List.length_cons] at h
    have last := ih tail (by omega)
    rw [List.getLast?_cons_cons, List.getLast?_cons, last]
    rfl
  | case4 a b rest plain closing doubled ih =>
    obtain ⟨t, rfl, tail⟩ := exists_cons_cons_of_append e (by omega)
    simp only [List.length_cons] at h
    have last := ih tail (by omega)
    rw [List.getLast?_cons_cons, List.getLast?_cons, last]
    rfl
  | case5 a b rest plain closing single =>
    obtain ⟨t, rfl, tail⟩ := exists_cons_of_append e (by omega)
    obtain rfl : t = [] := by simpa using h.symm
    rw [beq_iff_eq.1 closing, List.getLast?_singleton]
  | case6 a b rest plain inside ih =>
    have := one_le_quotedLength quote escapes b rest
    obtain ⟨t, rfl, tail⟩ := exists_cons_cons_of_append e (by omega)
    simp only [List.length_cons] at h
    have last := @ih (b :: t) (by rw [List.cons_append, tail]) (by rw [List.length_cons]; omega)
    rw [List.getLast?_cons_cons, last]

lemma getLast?_of_commentLength {depth : Nat} {t r : List UInt8}
    (h : commentLength depth (t ++ r) = t.length) (ne : r ≠ []) : t.getLast? = some (ascii '/') := by
  generalize e : t ++ r = bs at h
  fun_induction commentLength depth bs generalizing t with
  | case1 depth a b rest opening ih =>
    obtain ⟨t, rfl, rfl⟩ := exists_cons_cons_of_append e (by omega)
    have inner : commentLength (depth + 1) (t ++ r) = t.length := by
      simp only [List.length_cons] at h
      omega
    have last := ih rfl inner
    rw [List.getLast?_cons_cons, List.getLast?_cons, last]
    rfl
  | case2 depth a b rest plain closing last =>
    obtain ⟨t, rfl, tail⟩ := exists_cons_cons_of_append e (by omega)
    obtain rfl : t = [] := by simpa using h.symm
    rw [Bool.and_eq_true, beq_iff_eq, beq_iff_eq] at closing
    rw [closing.2]
    rfl
  | case3 depth a b rest plain closing inner ih =>
    obtain ⟨t, rfl, rfl⟩ := exists_cons_cons_of_append e (by omega)
    have outer : commentLength (depth - 1) (t ++ r) = t.length := by
      simp only [List.length_cons] at h
      omega
    have last := ih rfl outer
    rw [List.getLast?_cons_cons, List.getLast?_cons, last]
    rfl
  | case4 depth a b rest plain inside ih =>
    have := one_le_commentLength depth b rest
    obtain ⟨t, rfl, tail⟩ := exists_cons_cons_of_append e (by omega)
    simp only [List.length_cons] at h
    have last := @ih (b :: t) (by rw [List.cons_append, tail]) (by rw [List.length_cons]; omega)
    rw [List.getLast?_cons_cons, last]
  | case5 depth bs short =>
    have length := congrArg List.length e
    have := List.length_pos_iff.2 ne
    rw [List.length_append] at length
    omega

lemma prefix_of_indexOf? {pattern bs : List UInt8} {n : Nat} (h : indexOf? pattern bs = some n) :
    pattern <+: bs.drop n := by
  induction bs generalizing n with
  | nil =>
    rw [indexOf?] at h
    split at h
    · next empty =>
      rw [List.isEmpty_iff.1 empty]
      exact List.nil_prefix
    · cases h
  | cons b bs ih =>
    rw [indexOf?] at h
    split at h
    · next pre =>
      cases h
      exact List.isPrefixOf_iff_prefix.1 pre
    · obtain ⟨m, hm, rfl⟩ := Option.map_eq_some_iff.1 h
      exact ih hm

lemma suffix_of_bodyLength {tag t r : List UInt8} (h : bodyLength tag (t ++ r) = t.length)
    (ne : r ≠ []) : tag <:+ t := by
  unfold bodyLength at h
  split at h
  · next n found =>
    have pre := prefix_of_indexOf? found
    rw [List.drop_append_of_le_length (by omega)] at pre
    have fits : t.drop n <+: t.drop n ++ r := List.prefix_append _ _
    have same : tag = t.drop n :=
      (List.prefix_of_prefix_length_le pre fits (by rw [List.length_drop]; omega)).eq_of_length
        (by rw [List.length_drop]; omega)
    rw [same]
    exact List.drop_suffix n t
  · have := List.length_pos_iff.2 ne
    rw [List.length_append] at h
    omega

/-- A quoted run that ends before the end of the script ends with a quote or a dollar. -/
lemma getLast?_of_pieceAt {before : Before} {b : UInt8} {t r bs : List UInt8}
    (h : pieceAt before b (t ++ r) = (.quoted bs, t.length)) (ne : r ≠ []) :
    ∃ c ∈ Text.bytes "'\"$", t.getLast? = some c := by
  unfold pieceAt at h
  dsimp only at h
  obtain ⟨-, h⟩ | ⟨-, h⟩ := ite_eq_iff.1 h
  · cases h
  obtain ⟨-, h⟩ | ⟨-, h⟩ := ite_eq_iff.1 h
  · cases h
  obtain ⟨-, h⟩ | ⟨-, h⟩ := ite_eq_iff.1 h
  · cases h
  obtain ⟨-, h⟩ | ⟨-, h⟩ := ite_eq_iff.1 h
  · cases h
  obtain ⟨quote, h⟩ | ⟨-, h⟩ := ite_eq_iff.1 h
  · refine ⟨b, ?_, getLast?_of_quotedLength (Prod.mk.inj h).2 ne⟩
    rw [beq_iff_eq.1 quote]
    decide
  obtain ⟨quote, h⟩ | ⟨-, h⟩ := ite_eq_iff.1 h
  · refine ⟨b, ?_, getLast?_of_quotedLength (Prod.mk.inj h).2 ne⟩
    rw [beq_iff_eq.1 quote]
    decide
  obtain ⟨-, h⟩ | ⟨-, h⟩ := ite_eq_iff.1 h
  · split at h
    · next tag found =>
      have length := (Prod.mk.inj h).2
      obtain ⟨body, rfl, -⟩ := exists_of_dollarTag? found (by omega)
      rw [List.append_assoc, List.drop_left' (by simp)] at length
      simp only [List.length_append, List.length_drop] at length
      obtain ⟨more, rfl⟩ := suffix_of_bodyLength (by omega : bodyLength tag (body ++ r) = _) ne
      obtain ⟨name, rest, -, -, -, rfl⟩ := dollarTag?_eq_some_iff.1 found
      refine ⟨ascii '$', by decide, ?_⟩
      rw [← List.append_assoc, ← List.append_assoc, List.getLast?_concat]
    · cases h
  · cases h

/-- A piece in front of a semicolon ends with a semicolon only if it is one. -/
lemma eq_semicolon_of_pieceAt {before : Before} {b : UInt8} {t r : List UInt8} {p : Piece}
    (piece : pieceAt before b (t ++ ascii ';' :: r) = (p, t.length)) (bytes : p.bytes = b :: t)
    (last : (b :: t).getLast? = some (ascii ';')) : p = .semicolon := by
  by_cases single : t = []
  · subst single
    obtain rfl : b = ascii ';' := Option.some.inj last
    exact (Prod.mk.inj piece).1.symm
  · rw [List.getLast?_cons_of_ne_nil single] at last
    cases p with
    | quoted bs =>
      obtain ⟨c, quote, last'⟩ := getLast?_of_pieceAt piece (List.cons_ne_nil _ r)
      obtain rfl : ascii ';' = c := Option.some.inj (last.symm.trans last')
      exact absurd quote (by decide)
    | comment bs =>
      rcases comment_of_pieceAt piece with feed | ⟨-, length⟩
      · exact absurd (feed (ascii ';') rfl) (by decide)
      · have whole : commentLength 0 (b :: t ++ ascii ';' :: r) = (b :: t).length := by
          have := one_le_commentLength 0 b (t ++ ascii ';' :: r)
          rw [List.cons_append, List.length_cons]
          omega
        have slash := getLast?_of_commentLength whole (List.cons_ne_nil _ r)
        rw [List.getLast?_cons_of_ne_nil single, last] at slash
        exact absurd (Option.some.inj slash) (by decide)
    | semicolon => rfl
    | _ => exact absurd (List.cons.inj bytes).2.symm single

/-! ### Scripts piece by piece -/

/-- What stands before the place behind a piece that starts with a byte. -/
def Before.behind (before : Before) (b : UInt8) : Piece → Before
  | .other _ => before.push b
  | _ => .nothing

/-- The pieces of a script from its first one on. -/
lemma pieces_cons {before : Before} {b : UInt8} {t r : List UInt8} {p : Piece}
    (h : pieceAt before b (t ++ r) = (p, t.length)) :
    pieces before (b :: (t ++ r)) = p :: pieces (before.behind b p) r := by
  rw [pieces, h]
  dsimp only
  rw [List.drop_left' rfl]
  cases p <;> rfl

/-- Induction over the pieces of a script. -/
lemma pieces_induction {motive : Before → List UInt8 → Prop} (nil : ∀ before, motive before [])
    (cons : ∀ before b t r p, pieceAt before b (t ++ r) = (p, t.length) → p.bytes = b :: t →
      motive (before.behind b p) r → motive before (b :: (t ++ r)))
    (before : Before) (bs : List UInt8) : motive before bs := by
  induction hn : bs.length using Nat.strong_induction_on generalizing before bs with
  | h n ih =>
    cases bs with
    | nil => exact nil before
    | cons b rest =>
      obtain ⟨p, t, r, rfl, piece, bytes⟩ := exists_pieceAt before b rest
      refine cons before b t r p piece bytes (ih r.length ?_ _ r rfl)
      rw [← hn, List.length_cons, List.length_append]
      omega

/-- The pieces of a script are all of it. -/
lemma flatMap_bytes_pieces (before : Before) (bs : List UInt8) :
    (pieces before bs).flatMap Piece.bytes = bs := by
  induction before, bs using pieces_induction with
  | nil before => rw [pieces, List.flatMap_nil]
  | cons before b t r p piece bytes ih =>
    rw [pieces_cons piece, List.flatMap_cons, ih, bytes, List.cons_append]

/-- A script that is not empty has pieces. -/
lemma pieces_ne_nil {bs : List UInt8} (ne : bs ≠ []) (before : Before) : pieces before bs ≠ [] := by
  intro none
  have := flatMap_bytes_pieces before bs
  rw [none] at this
  exact ne this.symm

/-! ### Closed texts -/

/-- A text that leaves nothing open: a semicolon behind it ends a statement. -/
def Closed (bs : List UInt8) : Prop :=
  (pieces .nothing (bs ++ [ascii ';'])).getLast? = some .semicolon

/-- Closedness can be computed. -/
instance (bs : List UInt8) : Decidable (Closed bs) :=
  inferInstanceAs (Decidable (_ = _))

/-- A text that ends with a byte that is a piece wherever it stands. -/
def Breaks (bs : List UInt8) : Prop :=
  ∃ c ∈ bs.getLast?, c ∈ Text.bytes " \n,()[]"

/-- What goes on with nothing that stands before it. -/
def Apart (rest : List UInt8) : Prop :=
  ∀ b ∈ rest.head?, isCalm b = true

/-- No word and no quoted run goes on with a calm byte. -/
lemma Apart.ends {rest : List UInt8} (h : Apart rest) : Ends rest := by
  intro b hb
  have table : ∀ b : UInt8, isCalm b = true →
      isWordByte b = false ∧ b ≠ ascii '$' ∧ b ≠ ascii '\'' ∧ b ≠ ascii '"' :=
    forall_byte (by decide)
  exact table b (h b hb)

/-- What may follow a phrase goes on with nothing. -/
lemma Stops.apart {rest : List UInt8} (h : Stops rest) : Apart rest := by
  intro b hb
  have table : ∀ b : UInt8, b ∈ Text.bytes " ,()[];" → isCalm b = true := forall_byte (by decide)
  exact table b (h b hb)

lemma apart_semicolon (rest : List UInt8) : Apart (ascii ';' :: rest) :=
  (stops_cons (by decide) rest).apart

/-- What follows a text looks like a semicolon if it stands apart, or if the text breaks off. -/
lemma agree_append {r rest : List UInt8} (joint : Apart rest ∨ Breaks r) :
    Agree (r ++ [ascii ';']) (r ++ rest) := by
  induction r with
  | nil =>
    rcases joint with apart | ⟨c, hc, -⟩
    · cases rest with
      | nil => exact .ended _
      | cons b rest => exact .calm (apart b rfl) _ _
    · cases hc
  | cons b r ih =>
    by_cases h : isWordByte b = true
    · refine .word h (ih ?_)
      rcases joint with stops | ⟨c, hc, mark⟩
      · exact .inl stops
      · refine .inr ⟨c, ?_, mark⟩
        cases r with
        | nil =>
          -- the byte that breaks off belongs to no word
          obtain rfl : b = c := Option.some.inj hc
          have table : ∀ b : UInt8, b ∈ Text.bytes " \n,()[]" → isWordByte b = false :=
            forall_byte (by decide)
          rw [table b mark] at h
          cases h
        | cons d r => rwa [List.getLast?_cons_cons] at hc
    · exact .same (by simpa using h) _ _

/-- The last piece of a text that breaks off stays the same, whatever follows. -/
lemma pieceAt_of_breaks {before : Before} {b : UInt8} {t : List UInt8} {p : Piece}
    (piece : pieceAt before b (t ++ [ascii ';']) = (p, t.length)) (bytes : p.bytes = b :: t)
    (breaks : Breaks (b :: t)) (rest : List UInt8) :
    pieceAt before b (t ++ rest) = (p, t.length) ∧ before.behind b p = .nothing := by
  obtain ⟨c, hc, mark⟩ := breaks
  cases t with
  | nil =>
    obtain rfl : b = c := Option.some.inj hc
    have table : ∀ b : UInt8, b ∈ Text.bytes " \n,()[]" →
        isSafe b = true ∧ isWordByte b = false ∨ b = ascii ' ' ∨ b = ascii '\n' :=
      forall_byte (by decide)
    rcases table b mark with ⟨safe, noWord⟩ | rfl | rfl
    · rw [List.nil_append, pieceAt_of_isSafe safe] at piece
      obtain ⟨rfl, -⟩ := Prod.mk.inj piece
      exact ⟨pieceAt_of_isSafe safe before rest, by simp [Before.behind, Before.push, noWord]⟩
    · obtain ⟨rfl, -⟩ := Prod.mk.inj piece
      exact ⟨rfl, rfl⟩
    · obtain ⟨rfl, -⟩ := Prod.mk.inj piece
      exact ⟨rfl, rfl⟩
  | cons a t =>
    rw [List.getLast?_cons_cons] at hc
    cases p with
    | quoted bs =>
      obtain ⟨d, quote, last⟩ := getLast?_of_pieceAt piece (by simp)
      rw [hc] at last
      obtain rfl := Option.some.inj last
      have table : ∀ b : UInt8, b ∈ Text.bytes "'\"$" → b ∉ Text.bytes " \n,()[]" :=
        forall_byte (by decide)
      exact absurd mark (table c quote)
    | comment bs =>
      obtain rfl : bs = b :: a :: t := bytes
      refine ⟨?_, rfl⟩
      rcases comment_of_pieceAt piece with feed | ⟨star, length⟩
      · exact absurd (feed (ascii ';') rfl) (by decide)
      · exact pieceAt_blockComment before star length (by simp) rest
    | _ => cases bytes

/-- A text that leaves nothing open is cut into pieces on its own if what follows it stands apart, and
if it breaks off whatever follows it. -/
lemma Closed.pieces_append {bs : List UInt8} (closed : Closed bs) {rest : List UInt8}
    (joint : Apart rest ∨ Breaks bs) : pieces .nothing (bs ++ rest) =
      (pieces .nothing (bs ++ [ascii ';'])).dropLast ++ pieces .nothing rest := by
  by_cases empty : bs = []
  · rw [empty, List.nil_append, List.nil_append, pieces_semicolon, pieces]
    rfl
  have main (before : Before) (xs : List UInt8) (e : bs ++ [ascii ';'] = xs)
      (last : (pieces before xs).getLast? = some .semicolon) :
      pieces before (bs ++ rest) = (pieces before xs).dropLast ++ pieces .nothing rest := by
    clear closed
    induction before, xs using pieces_induction generalizing bs with
    | nil before => simp at e
    | cons before b t r p piece bytes ih =>
      rw [pieces_cons piece] at last ⊢
      obtain rfl | ⟨r, c, rfl⟩ := List.eq_nil_or_concat r
      · -- the last piece is the semicolon, so there is nothing before it
        rw [pieces, List.getLast?_singleton] at last
        obtain rfl := Option.some.inj last
        obtain ⟨rfl, rfl⟩ : ascii ';' = b ∧ [] = t := List.cons.inj bytes
        exact absurd (by simpa using congrArg List.length e) empty
      rw [List.concat_eq_append] at piece e last ih ⊢
      rw [← List.append_assoc, ← List.cons_append] at e
      obtain ⟨rfl, one⟩ := List.append_inj' e rfl
      obtain rfl : ascii ';' = c := List.singleton_inj.1 one
      have ne := pieces_ne_nil (List.append_ne_nil_of_right_ne_nil r (List.cons_ne_nil (ascii ';') []))
        (before.behind b p)
      rw [List.getLast?_cons_of_ne_nil ne] at last
      rw [List.cons_append, List.append_assoc, List.dropLast_cons_of_ne_nil ne, List.cons_append]
      by_cases hr : r = []
      · subst hr
        have single (before : Before) : pieces before ([] ++ [ascii ';']) = [.semicolon] := by
          rw [List.nil_append, pieces_semicolon, pieces]
        rw [single]
        rcases joint with apart | breaks
        · have same := pieceAt_agree piece (agree_append (.inl apart)) (by simp) fun _ hd =>
            absurd hd (by decide)
          rw [pieces_cons same]
          exact congrArg (p :: ·) (pieces_of_ends apart.ends _)
        · rw [List.append_nil] at breaks
          obtain ⟨same, nothing⟩ := pieceAt_of_breaks piece bytes breaks rest
          rw [List.nil_append, pieces_cons same, nothing]
          rfl
      · have joint' : Apart rest ∨ Breaks r := by
          refine joint.imp_right ?_
          rintro ⟨c, hc, mark⟩
          rw [← List.cons_append, List.getLast?_append_of_ne_nil _ hr] at hc
          exact ⟨c, hc, mark⟩
        have same : pieceAt before b (t ++ (r ++ rest)) = (p, t.length) := by
          refine pieceAt_agree piece (agree_append joint') (by simp) fun _ hd => .inr ?_
          obtain ⟨c, r, rfl⟩ := List.exists_cons_of_ne_nil hr
          exact hd
        rw [pieces_cons same, ih joint' hr rfl last]
  exact main .nothing _ rfl closed

end ErdSql.Script
