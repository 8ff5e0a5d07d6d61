import ErdSql.Proofs.Pieces

/-!
# Blanks and white space

A text without its blanks, and without the white space around it.

* `unspaced_trimAscii`: trimming a text and leaving out its blanks can change places.
* `trimBytes_eq_trimAscii`: where white space beyond ASCII stands at neither end, trimming it too makes
  no difference.
-/

namespace ErdSql.Script

open Text (ascii)

/-- Whether a piece is a blank. -/
def Piece.isBlank : Piece → Bool
  | blank _ => true
  | _ => false

/-- A text without the blanks outside its quoted runs. -/
def unspaced (before : Before) (bs : List UInt8) : List UInt8 :=
  ((pieces before bs).filter (!·.isBlank)).flatMap Piece.bytes

/-- Whether a byte is white space of ASCII. -/
def isAsciiSpace (b : UInt8) : Bool :=
  isBlankByte b || b == ascii '\x0b'

/-- A text without white space of ASCII around it. -/
def trimAscii (bs : List UInt8) : List UInt8 :=
  ((bs.dropWhile isAsciiSpace).reverse.dropWhile isAsciiSpace).reverse

/-! ### Leaving out blanks -/

lemma isBlank_pieceAt (before : Before) (b : UInt8) (rest : List UInt8) :
    (pieceAt before b rest).1.isBlank = isBlankByte b := by
  unfold pieceAt
  dsimp only
  split
  · next semicolon =>
    rw [beq_iff_eq.1 semicolon]
    decide
  split
  · next blank => rw [blank, Piece.isBlank]
  next noBlank =>
  rw [Bool.eq_false_iff.2 noBlank]
  repeat' split
  all_goals rfl

@[simp]
lemma unspaced_nil (before : Before) : unspaced before [] = [] := by
  rw [unspaced, pieces]
  rfl

lemma unspaced_cons {before : Before} {b : UInt8} {t r : List UInt8} {p : Piece}
    (h : pieceAt before b (t ++ r) = (p, t.length)) : unspaced before (b :: (t ++ r)) =
      (if p.isBlank then [] else p.bytes) ++ unspaced (before.behind b p) r := by
  rw [unspaced, pieces_cons h, List.filter_cons, unspaced]
  cases p.isBlank <;> rfl

/-- White space of ASCII outside of everything is a blank or a byte of its own. -/
lemma pieces_asciiSpace {w : UInt8} (h : isAsciiSpace w = true) (before : Before) (rest : List UInt8) :
    pieces before (w :: rest) =
      (if isBlankByte w then .blank w else .other w) :: pieces .nothing rest := by
  have table : ∀ w : UInt8, isAsciiSpace w = true → isBlankByte w = true ∨ w = ascii '\x0b' :=
    forall_byte (by decide)
  rcases table w h with blank | rfl
  · rw [if_pos blank, pieces_blank blank]
  · have piece : pieceAt before (ascii '\x0b') ([] ++ rest) = (.other (ascii '\x0b'), 0) := rfl
    exact pieces_cons piece

lemma unspaced_asciiSpace {w : UInt8} (h : isAsciiSpace w = true) (before : Before)
    (rest : List UInt8) : unspaced before (w :: rest) =
      (if isBlankByte w then [] else [w]) ++ unspaced .nothing rest := by
  rw [unspaced, pieces_asciiSpace h, unspaced]
  cases isBlankByte w <;> rfl

/-- The first byte of a text stays unless it is a blank. -/
lemma head?_unspaced {b : UInt8} (h : isBlankByte b = false) (rest : List UInt8) :
    (unspaced .nothing (b :: rest)).head? = some b := by
  obtain ⟨p, t, r, rfl, piece, bytes⟩ := exists_pieceAt .nothing b rest
  have notBlank : p.isBlank = false := by
    have := isBlank_pieceAt .nothing b (t ++ r)
    rwa [piece, h] at this
  rw [unspaced_cons piece, notBlank, bytes]
  rfl

lemma isBlankByte_of_not_asciiSpace {b : UInt8} (h : ¬ isAsciiSpace b = true) :
    isBlankByte b = false := by
  rw [isAsciiSpace, Bool.or_eq_true, not_or] at h
  simpa using h.1

lemma unspaced_dropWhile (bs : List UInt8) :
    unspaced .nothing (bs.dropWhile isAsciiSpace) = (unspaced .nothing bs).dropWhile isAsciiSpace := by
  induction bs with
  | nil => simp
  | cons b bs ih =>
    by_cases space : isAsciiSpace b = true
    · rw [List.dropWhile_cons, if_pos space, ih, unspaced_asciiSpace space]
      cases isBlankByte b <;> simp [space]
    · have first := head?_unspaced (isBlankByte_of_not_asciiSpace space) bs
      obtain ⟨more, e⟩ : ∃ more, unspaced .nothing (b :: bs) = b :: more := List.head?_eq_some_iff.1 first
      rw [List.dropWhile_cons, if_neg space, e, List.dropWhile_cons, if_neg space]

/-- A text agrees with itself cut short. -/
lemma agree_cut (r more : List UInt8) : Agree (r ++ more) r := by
  induction r with
  | nil => exact .ended _
  | cons b r ih =>
    by_cases h : isWordByte b = true
    · exact .word h ih
    · exact .same (by simpa using h) _ _

/-- A text agrees with itself and white space behind it. -/
lemma agree_concat {w : UInt8} (h : isAsciiSpace w = true) (r : List UInt8) :
    Agree r (r ++ [w]) := by
  have table : ∀ w : UInt8, isAsciiSpace w = true → isCalm w = true := forall_byte (by decide)
  induction r with
  | nil => exact .calm (table w h) _ _
  | cons b r ih =>
    by_cases h : isWordByte b = true
    · exact .word h ih
    · exact .same (by simpa using h) _ _

/-- A byte behind the last piece of a script belongs to that piece, unless the piece ends before it. -/
lemma pieceAt_concat {before : Before} {b w : UInt8} {t : List UInt8} {p : Piece}
    (h : pieceAt before b t = (p, t.length)) :
    pieceAt before b (t ++ [w]) = (p, t.length) ∨
      ∃ q, pieceAt before b (t ++ [w]) = (q, t.length + 1) ∧ q.bytes = b :: (t ++ [w]) := by
  obtain ⟨q, t', r, e, piece, bytes⟩ := exists_pieceAt before b (t ++ [w])
  rcases List.eq_nil_or_concat r with rfl | ⟨r, c, rfl⟩
  · right
    rw [List.append_nil] at e
    subst e
    exact ⟨q, by simpa using piece, bytes⟩
  · left
    rw [List.concat_eq_append, ← List.append_assoc] at e
    obtain ⟨rfl, last⟩ := List.append_inj' e rfl
    rw [List.append_assoc] at piece
    -- what is found ends within the old text, so it was found there before
    have old : pieceAt before b (t' ++ r) = (q, t'.length) := by
      refine pieceAt_agree piece (agree_cut r [w]) (by simp) fun _ hd => ?_
      cases r with
      | nil => exact .inl rfl
      | cons d r => exact .inr hd
    obtain ⟨rfl, length⟩ := Prod.mk.inj (old.symm.trans h)
    obtain rfl : r = [] := by simpa using length
    simpa using piece

/-- White space behind a text is a piece of its own, unless the last piece goes on with it. -/
lemma pieces_concat {w : UInt8} (h : isAsciiSpace w = true) (before : Before) (bs : List UInt8) :
    pieces before (bs ++ [w]) = pieces before bs ++ pieces .nothing [w] ∨
      ∃ ps p q, pieces before bs = ps ++ [p] ∧ pieces before (bs ++ [w]) = ps ++ [q] ∧
        q.bytes = p.bytes ++ [w] ∧ p.isBlank = false ∧ q.isBlank = false := by
  have table : ∀ w : UInt8, isAsciiSpace w = true → isCalm w = true := forall_byte (by decide)
  have apart : Apart [w] := by
    rintro _ ⟨⟩
    exact table w h
  have own (before : Before) : pieces before [w] = pieces .nothing [w] := pieces_of_ends apart.ends before
  induction before, bs using pieces_induction with
  | nil before =>
    left
    rw [List.nil_append, own before, pieces.eq_1 before, List.nil_append]
  | cons before b t r p piece bytes ih =>
    rw [pieces_cons piece, List.cons_append, List.append_assoc]
    by_cases hr : r = []
    · subst hr
      rw [List.append_nil] at piece
      rcases @pieceAt_concat before b w t p piece with same | ⟨q, longer, bytes'⟩
      · left
        rw [List.nil_append, pieces_cons same, own, pieces.eq_1 (before.behind b p)]
        rfl
      · have blank : q.isBlank = p.isBlank := by
          have old := isBlank_pieceAt before b t
          have new := isBlank_pieceAt before b (t ++ [w])
          rw [piece] at old
          rw [longer] at new
          rw [old, new]
        have notBlank : q.isBlank = false := by
          cases q with
          | blank c => simp [Piece.bytes] at bytes'
          | _ => rfl
        have whole : pieceAt before b (t ++ [w] ++ []) = (q, (t ++ [w]).length) := by simpa using longer
        right
        refine ⟨[], p, q, ?_, ?_, ?_, blank ▸ notBlank, notBlank⟩
        · rw [pieces.eq_1 (before.behind b p), List.nil_append]
        · rw [List.nil_append, ← List.append_nil (t ++ [w]), pieces_cons whole,
            pieces.eq_1 (before.behind b q), List.nil_append]
        · rw [bytes', bytes]
          rfl
    · have same : pieceAt before b (t ++ (r ++ [w])) = (p, t.length) := by
        refine pieceAt_agree piece (agree_concat h r) (fun e => absurd e hr) fun _ hd => .inr ?_
        obtain ⟨c, r, rfl⟩ := List.exists_cons_of_ne_nil hr
        exact hd
      rw [pieces_cons same]
      rcases ih with alone | ⟨ps, p', q, old, new, rest⟩
      · left
        rw [alone]
        rfl
      · right
        exact ⟨p :: ps, p', q, by rw [old]; rfl, by rw [new]; rfl, rest⟩

/-- White space behind a text is left out or kept. -/
lemma unspaced_concat {w : UInt8} (h : isAsciiSpace w = true) (before : Before) (bs : List UInt8) :
    unspaced before (bs ++ [w]) = unspaced before bs ∨
      unspaced before (bs ++ [w]) = unspaced before bs ++ [w] := by
  rcases pieces_concat h before bs with alone | ⟨ps, p, q, old, new, bytes, noBlank, noBlank'⟩
  · have last := unspaced_asciiSpace h .nothing []
    rw [unspaced_nil, List.append_nil] at last
    rw [unspaced, alone, List.filter_append, List.flatMap_append]
    change unspaced before bs ++ unspaced .nothing [w] = _ ∨ unspaced before bs ++ unspaced .nothing [w] = _
    rw [last]
    cases isBlankByte w <;> simp
  · right
    rw [unspaced, unspaced, old, new]
    simp [List.filter_append, noBlank, noBlank', bytes]

/-- The last byte of a text stays unless it is a blank. -/
lemma getLast?_unspaced {before : Before} {bs : List UInt8} {c : UInt8} (h : bs.getLast? = some c)
    (notBlank : isBlankByte c = false) : (unspaced before bs).getLast? = some c := by
  induction before, bs using pieces_induction with
  | nil before => cases h
  | cons before b t r p piece bytes ih =>
    rw [unspaced_cons piece]
    by_cases hr : r = []
    · subst hr
      rw [List.append_nil] at h
      have kept : p.isBlank = false := by
        have first := isBlank_pieceAt before b (t ++ [])
        rw [piece] at first
        cases p with
        | blank d =>
          obtain ⟨rfl, rfl⟩ : d = b ∧ [] = t := List.cons.inj bytes
          obtain rfl : d = c := Option.some.inj h
          rw [notBlank] at first
          cases first
        | _ => rfl
      rw [kept, bytes]
      simpa using h
    · rw [← List.cons_append, List.getLast?_append_of_ne_nil _ hr] at h
      have last := ih h
      rw [List.getLast?_append, last]
      rfl

lemma unspaced_reverse_dropWhile (before : Before) (bs : List UInt8) :
    unspaced before (bs.reverse.dropWhile isAsciiSpace).reverse =
      ((unspaced before bs).reverse.dropWhile isAsciiSpace).reverse := by
  induction bs using List.reverseRecOn with
  | nil => simp
  | append_singleton bs b ih =>
    rw [List.reverse_append, List.reverse_singleton, List.singleton_append, List.dropWhile_cons]
    by_cases space : isAsciiSpace b = true
    · rw [if_pos space, ih]
      rcases unspaced_concat space before bs with e | e
      · rw [e]
      · rw [e, List.reverse_append, List.reverse_singleton, List.singleton_append, List.dropWhile_cons,
          if_pos space]
    · have last := @getLast?_unspaced before (bs ++ [b]) b List.getLast?_concat
        (isBlankByte_of_not_asciiSpace space)
      obtain ⟨more, e⟩ := List.getLast?_eq_some_iff.1 last
      rw [if_neg space, List.reverse_cons, List.reverse_reverse, e, List.reverse_append,
        List.reverse_singleton, List.singleton_append, List.dropWhile_cons, if_neg space]
      simp

/-- Trimming a text and leaving out its blanks can change places. -/
lemma unspaced_trimAscii (bs : List UInt8) :
    unspaced .nothing (trimAscii bs) = trimAscii (unspaced .nothing bs) := by
  rw [trimAscii, unspaced_reverse_dropWhile, unspaced_dropWhile, trimAscii]

/-- A trimmed text is empty if nothing but blanks stands in it. -/
lemma trimAscii_eq_nil_iff (bs : List UInt8) :
    trimAscii bs = [] ↔ unspaced .nothing (trimAscii bs) = [] := by
  constructor
  · intro h
    rw [h, unspaced_nil]
  · intro h
    by_contra ne
    obtain ⟨c, last⟩ : ∃ c, (trimAscii bs).getLast? = some c := ⟨_, List.getLast?_eq_some_getLast ne⟩
    have solid : ¬ isAsciiSpace c = true := by
      rw [trimAscii, List.getLast?_reverse] at last
      have := List.head?_dropWhile_not isAsciiSpace (bs.dropWhile isAsciiSpace).reverse
      rw [last] at this
      simpa using this
    have := @getLast?_unspaced .nothing _ _ last (isBlankByte_of_not_asciiSpace solid)
    rw [h] at this
    cases this

/-! ### Trimming beyond ASCII -/

/-- Encodings of white space: the bytes of ASCII, and others whose bytes are all beyond ASCII. -/
structure SpaceEncodings (encodings : List (List UInt8)) : Prop where
  single : ∀ b, isAsciiSpace b = true → [b] ∈ encodings
  shape : ∀ e ∈ encodings,
    (∃ b, e = [b] ∧ isAsciiSpace b = true) ∨ e ≠ [] ∧ ∀ b ∈ e, 0x80 ≤ b

lemma spaceEncodings_front : SpaceEncodings Text.spaceEncodings := by
  constructor
  · exact forall_byte (by decide)
  · have table : (Text.spaceEncodings.all fun e => e.head?.any isAsciiSpace && e.tail.isEmpty ||
        !e.isEmpty && e.all (0x80 ≤ ·)) = true := by decide
    intro e he
    have shape := List.all_eq_true.1 table e he
    cases e with
    | nil => cases shape
    | cons b rest =>
      simp only [List.head?_cons, Option.any_some, List.tail_cons, List.isEmpty_iff, List.isEmpty_cons,
        Bool.not_false, Bool.true_and, Bool.or_eq_true, Bool.and_eq_true, List.all_eq_true,
        decide_eq_true_eq] at shape
      rcases shape with ⟨space, rfl⟩ | high
      · exact .inl ⟨b, rfl, space⟩
      · exact .inr ⟨List.cons_ne_nil b rest, high⟩

lemma spaceEncodings_back : SpaceEncodings (Text.spaceEncodings.map List.reverse) := by
  constructor
  · intro b hb
    exact List.mem_map.2 ⟨[b], SpaceEncodings.single spaceEncodings_front b hb, rfl⟩
  · rintro _ he
    obtain ⟨e, mem, rfl⟩ := List.mem_map.1 he
    rcases SpaceEncodings.shape spaceEncodings_front e mem with ⟨b, rfl, hb⟩ | ⟨ne, high⟩
    · exact .inl ⟨b, rfl, hb⟩
    · exact .inr ⟨by simpa using ne, fun b hb => high b (List.mem_reverse.1 hb)⟩

namespace SpaceEncodings

variable {encodings : List (List UInt8)} (h : SpaceEncodings encodings)
include h

/-- No encoding holds a byte of ASCII that is no white space. -/
lemma not_mem {e : List UInt8} (he : e ∈ encodings) {b : UInt8} (small : b < 0x80)
    (solid : ¬ isAsciiSpace b = true) : b ∉ e := by
  intro hb
  rcases h.shape e he with ⟨c, rfl, space⟩ | ⟨-, high⟩
  · rw [List.mem_singleton] at hb
    exact solid (hb ▸ space)
  · exact absurd (high b hb) (by simpa using small)

lemma ne_nil {e : List UInt8} (he : e ∈ encodings) : e ≠ [] := by
  rcases h.shape e he with ⟨c, rfl, -⟩ | ⟨ne, -⟩
  · simp
  · exact ne

lemma dropEncodings_cons {b : UInt8} (space : isAsciiSpace b = true) (rest : List UInt8) :
    Text.dropEncodings encodings (b :: rest) = Text.dropEncodings encodings rest := by
  have small : ∀ b : UInt8, isAsciiSpace b = true → b < 0x80 := forall_byte (by decide)
  obtain ⟨e, found⟩ : ∃ e, encodings.find? (·.isPrefixOf (b :: rest)) = some e := by
    rw [← Option.isSome_iff_exists, List.find?_isSome]
    exact ⟨[b], h.single b space, by simp⟩
  have pre : e <+: b :: rest := List.isPrefixOf_iff_prefix.1 (by simpa using List.find?_some found)
  have one : e = [b] := by
    obtain ⟨more, hm⟩ := pre
    rcases h.shape e (List.mem_of_find?_eq_some found) with ⟨c, rfl, -⟩ | ⟨ne, high⟩
    · rw [(List.cons.inj hm).1]
    · obtain ⟨c, e, rfl⟩ := List.exists_cons_of_ne_nil ne
      obtain rfl : c = b := (List.cons.inj hm).1
      exact absurd (high c List.mem_cons_self) (by simpa using small c space)
  rw [Text.dropEncodings, found, one]
  rfl

/-- White space of ASCII goes first. -/
lemma dropEncodings_dropWhile (bs : List UInt8) :
    Text.dropEncodings encodings (bs.dropWhile isAsciiSpace) = Text.dropEncodings encodings bs := by
  induction bs with
  | nil => rfl
  | cons b bs ih =>
    rw [List.dropWhile_cons]
    split
    · next space => rw [ih, h.dropEncodings_cons space]
    · rfl

end SpaceEncodings

lemma dropEncodings_eq_self {encodings : List (List UInt8)} {bs : List UInt8}
    (h : ∀ e ∈ encodings, ¬ e <+: bs) : Text.dropEncodings encodings bs = bs := by
  cases bs with
  | nil => rw [Text.dropEncodings]
  | cons b bs =>
    have none : encodings.find? (·.isPrefixOf (b :: bs)) = none := by
      rw [List.find?_eq_none]
      exact fun e he pre => h e he (List.isPrefixOf_iff_prefix.1 pre)
    rw [Text.dropEncodings, none]

lemma length_dropEncodings_le (encodings : List (List UInt8)) (bs : List UInt8) :
    (Text.dropEncodings encodings bs).length ≤ bs.length := by
  fun_induction Text.dropEncodings encodings bs with
  | case1 => exact le_rfl
  | case2 b rest e found ih =>
    rw [List.length_drop] at ih
    rw [List.length_cons]
    omega
  | case3 => exact le_rfl

lemma not_prefix_of_dropEncodings {encodings : List (List UInt8)} {bs : List UInt8} (ne : bs ≠ [])
    (h : Text.dropEncodings encodings bs = bs) : ∀ e ∈ encodings, ¬ e <+: bs := by
  intro e he pre
  obtain ⟨b, bs, rfl⟩ := List.exists_cons_of_ne_nil ne
  obtain ⟨f, found⟩ : ∃ f, encodings.find? (·.isPrefixOf (b :: bs)) = some f := by
    rw [← Option.isSome_iff_exists, List.find?_isSome]
    exact ⟨e, he, List.isPrefixOf_iff_prefix.2 pre⟩
  rw [Text.dropEncodings, found] at h
  dsimp only at h
  have := length_dropEncodings_le encodings (bs.drop (f.length - 1))
  rw [h, List.length_drop, List.length_cons] at this
  omega

/-- No white space beyond ASCII stands at the end of a text, behind which there may be white space of
ASCII. -/
def EndsPlain (bs : List UInt8) : Prop :=
  ∀ e ∈ Text.spaceEncodings.map List.reverse, ¬ e <+: bs.reverse.dropWhile isAsciiSpace

/-- A text with a byte of ASCII that is no white space. -/
def Anchored (bs : List UInt8) : Prop :=
  ∃ b ∈ bs, b < 0x80 ∧ ¬ isAsciiSpace b = true

lemma dropWhile_of_space {bs : List UInt8} (h : ∀ b ∈ bs, isAsciiSpace b = true) (more : List UInt8) :
    (bs ++ more).dropWhile isAsciiSpace = more.dropWhile isAsciiSpace := by
  rw [List.dropWhile_append, List.dropWhile_eq_nil_iff.2 h]
  rfl

lemma endsPlain_nil : EndsPlain [] := by
  intro e he pre
  exact SpaceEncodings.ne_nil spaceEncodings_back he (List.prefix_nil.1 pre)

lemma endsPlain_append_space {xs ys : List UInt8} (h : EndsPlain xs)
    (space : ∀ b ∈ ys, isAsciiSpace b = true) : EndsPlain (xs ++ ys) := by
  rw [EndsPlain, List.reverse_append, dropWhile_of_space fun b hb => space b (List.mem_reverse.1 hb)]
  exact h

lemma endsPlain_append_anchored (xs : List UInt8) {ys : List UInt8} (h : EndsPlain ys)
    (anchored : Anchored ys) : EndsPlain (xs ++ ys) := by
  obtain ⟨b, hb, small, solid⟩ := anchored
  have stays : b ∈ ys.reverse.dropWhile isAsciiSpace := by
    by_contra gone
    have all := @List.takeWhile_append_dropWhile _ isAsciiSpace ys.reverse
    have mem : b ∈ ys.reverse := List.mem_reverse.2 hb
    rw [← all, List.mem_append] at mem
    exact solid (List.mem_takeWhile_imp (mem.resolve_right gone))
  have ne : (ys.reverse.dropWhile isAsciiSpace).isEmpty = false := by
    rw [List.isEmpty_eq_false_iff]
    exact List.ne_nil_of_mem stays
  intro e he pre
  rw [List.reverse_append, List.dropWhile_append, ne, if_neg (by decide)] at pre
  rcases List.prefix_or_prefix_of_prefix pre (List.prefix_append _ _) with short | long
  · exact h e he short
  · exact SpaceEncodings.not_mem spaceEncodings_back he small solid (long.subset stays)

lemma endsPlain_of_suffix {xs ys : List UInt8} (h : EndsPlain (xs ++ ys)) : EndsPlain ys := by
  intro e he pre
  by_cases none : ys.reverse.dropWhile isAsciiSpace = []
  · rw [none] at pre
    exact SpaceEncodings.ne_nil spaceEncodings_back he (List.prefix_nil.1 pre)
  · refine h e he ?_
    rw [List.reverse_append, List.dropWhile_append, if_neg (by simpa using none)]
    exact pre.trans (List.prefix_append _ _)

/-- The start of a text is trimmed within ASCII. -/
lemma dropEncodings_front {bs : List UInt8}
    (front : ∀ b ∈ (bs.dropWhile isAsciiSpace).head?, b < 0x80) :
    Text.dropEncodings Text.spaceEncodings bs = bs.dropWhile isAsciiSpace := by
  rw [← SpaceEncodings.dropEncodings_dropWhile spaceEncodings_front]
  refine dropEncodings_eq_self fun e he pre => ?_
  obtain ⟨b, e, rfl⟩ := List.exists_cons_of_ne_nil (SpaceEncodings.ne_nil spaceEncodings_front he)
  obtain ⟨more, rest⟩ := pre
  have first : (bs.dropWhile isAsciiSpace).head? = some b := by
    rw [← rest]
    rfl
  have solid := List.head?_dropWhile_not isAsciiSpace bs
  rw [first] at solid
  exact SpaceEncodings.not_mem spaceEncodings_front he (front b first) (by simpa using solid)
    List.mem_cons_self

/-- A text whose ends are plain is trimmed within ASCII. -/
lemma trimBytes_eq_trimAscii {bs : List UInt8}
    (front : ∀ b ∈ (bs.dropWhile isAsciiSpace).head?, b < 0x80) (back : EndsPlain bs) :
    Text.trimBytes bs = trimAscii bs := by
  rw [Text.trimBytes, trimAscii, dropEncodings_front front,
    ← SpaceEncodings.dropEncodings_dropWhile spaceEncodings_back]
  refine congrArg _ (dropEncodings_eq_self ?_)
  rw [← @List.takeWhile_append_dropWhile _ isAsciiSpace bs] at back
  exact endsPlain_of_suffix back

/-- A quoted run that is trimmed within ASCII has plain ends. -/
lemma endsPlain_of_trimBytes {b : UInt8} {bs : List UInt8} (small : b < 0x80)
    (solid : ¬ isAsciiSpace b = true) (h : Text.trimBytes (b :: bs) = trimAscii (b :: bs)) :
    EndsPlain (b :: bs) := by
  have front : (b :: bs).dropWhile isAsciiSpace = b :: bs := by
    rw [List.dropWhile_cons, if_neg solid]
  have start : ∀ c ∈ ((b :: bs).dropWhile isAsciiSpace).head?, c < 0x80 := by
    rw [front]
    rintro _ ⟨⟩
    exact small
  rw [Text.trimBytes, trimAscii, dropEncodings_front start, front, List.reverse_inj,
    ← SpaceEncodings.dropEncodings_dropWhile spaceEncodings_back] at h
  refine not_prefix_of_dropEncodings ?_ h
  rw [Ne, List.dropWhile_eq_nil_iff]
  exact fun all => solid (all b (by simp))

/-- A text of plain pieces can be trimmed within ASCII, behind other white space and before another
such text. -/
structure Trimmable (bs : List UInt8) : Prop where
  front : ∀ b ∈ (bs.dropWhile isAsciiSpace).head?, b < 0x80
  back : EndsPlain bs
  anchor : (∀ b ∈ bs, isAsciiSpace b = true) ∨ Anchored bs

lemma Trimmable.of_space {bs : List UInt8} (h : ∀ b ∈ bs, isAsciiSpace b = true) : Trimmable bs where
  front := by
    rw [List.dropWhile_eq_nil_iff.2 h]
    nofun
  back := by
    have := endsPlain_append_space endsPlain_nil h
    rwa [List.nil_append] at this
  anchor := .inl h

lemma Trimmable.of_solid {b : UInt8} {bs : List UInt8} (small : b < 0x80)
    (solid : ¬ isAsciiSpace b = true) (back : EndsPlain (b :: bs)) : Trimmable (b :: bs) where
  front := by
    rw [List.dropWhile_cons, if_neg solid]
    rintro _ ⟨⟩
    exact small
  back := back
  anchor := .inr ⟨b, List.mem_cons_self, small, solid⟩

lemma Trimmable.append {xs ys : List UInt8} (hx : Trimmable xs) (hy : Trimmable ys) :
    Trimmable (xs ++ ys) where
  front := by
    rw [List.dropWhile_append]
    split
    · exact hy.front
    · next ne =>
      rw [List.head?_append_of_ne_nil _ (by simpa using ne)]
      exact hx.front
  back := by
    rcases hy.anchor with space | anchored
    · exact endsPlain_append_space hx.back space
    · exact endsPlain_append_anchored xs hy.back anchored
  anchor := by
    rcases hx.anchor with space | ⟨b, hb, h⟩
    · rcases hy.anchor with space' | ⟨b, hb, h⟩
      · left
        intro b hb
        exact (List.mem_append.1 hb).elim (space b) (space' b)
      · exact .inr ⟨b, List.mem_append_right xs hb, h⟩
    · exact .inr ⟨b, List.mem_append_left ys hb, h⟩

end ErdSql.Script
