import ErdSql.Proofs.Boundaries
import ErdSql.Proofs.Fidelity

/-!
# Normal forms

A normal statement is its own normal layout. The statements of a script of ASCII are normal, and normal
statements with semicolons between them are normalized to themselves.

* `pieces_cut`: pieces stay the same when what follows them is cut off.
* `Reduces.trimAscii`: as a statement, a text without the white space around it is as good as the text.
* `normalize_of_normal`: normal statements are normalized to themselves.
* `normal_normalize`: the statements of a script are normal.
-/

namespace ErdSql.Script

open Text (ascii)

/-! ### Normal statements -/

/-- A text whose bytes are all of ASCII. -/
def IsAscii (bs : List UInt8) : Prop :=
  ∀ b ∈ bs, b < 0x80

instance (bs : List UInt8) : Decidable (IsAscii bs) :=
  inferInstanceAs (Decidable (∀ b ∈ bs, b < 0x80))

/-- A text without semicolons and comments outside its quoted runs. -/
def IsBare (bs : List UInt8) : Prop :=
  ∀ p ∈ pieces .nothing bs, p ≠ .semicolon ∧ ∀ c, p ≠ .comment c

/-- A statement that is its own normal layout. -/
structure IsNormal (bs : List UInt8) : Prop where
  ne_nil : bs ≠ []
  bare : IsBare bs
  laid : Text.trimBytes (layout none false (pieces .nothing bs)) = bs

/-- Normal statements, of which all but the last leave nothing open. -/
inductive NormalScript : List (List UInt8) → Prop where
  | nil :
    NormalScript []
  | last {bs} :
    IsNormal bs →
    NormalScript [bs]
  | cons {bs bss} :
    IsNormal bs →
    Closed bs →
    NormalScript bss →
    NormalScript (bs :: bss)

/-! ### Texts of ASCII -/

lemma trimmable_of_isAscii {bs : List UInt8} (small : IsAscii bs) : Trimmable bs := by
  induction bs with
  | nil => exact .of_space (List.forall_mem_nil _)
  | cons b bs ih =>
    exact .append (trimmable_singleton (small b List.mem_cons_self))
      (ih fun c hc => small c (List.mem_cons_of_mem b hc))

/-- A text of ASCII is trimmed within ASCII. -/
lemma trimBytes_of_isAscii {bs : List UInt8} (small : IsAscii bs) : Text.trimBytes bs = trimAscii bs :=
  have trimmable := trimmable_of_isAscii small
  trimBytes_eq_trimAscii trimmable.front trimmable.back

lemma trimAscii_subset (bs : List UInt8) : trimAscii bs ⊆ bs := by
  intro b hb
  rw [trimAscii, List.mem_reverse] at hb
  exact (List.dropWhile_suffix _).subset (List.mem_reverse.1 ((List.dropWhile_suffix _).subset hb))

lemma isAscii_of_mem_pieces {before : Before} {bs : List UInt8} (small : IsAscii bs) {p : Piece}
    (hp : p ∈ pieces before bs) : IsAscii p.bytes := by
  intro b hb
  rw [← flatMap_bytes_pieces before bs] at small
  exact small b (List.mem_flatMap_of_mem hp hb)

/-- A piece of ASCII is written as it stands. -/
lemma text?_of_isAscii {p : Piece} (small : IsAscii p.bytes) {text : List UInt8}
    (h : p.text? = some text) : text = p.bytes := by
  cases p with
  | other b =>
    rw [text?_other (small b (List.mem_singleton_self b))] at h
    exact (Option.some.inj h).symm
  | quoted bs => exact (Option.some.inj h).symm
  | _ => cases h

lemma isAscii_layout {ps : List Piece} (small : ∀ p ∈ ps, IsAscii p.bytes) (last : Option UInt8)
    (gap : Bool) : IsAscii (layout last gap ps) := by
  induction ps generalizing last gap with
  | nil => exact List.forall_mem_nil _
  | cons p ps ih =>
    have rest := ih fun q hq => small q (List.mem_cons_of_mem p hq)
    rw [layout]
    split
    · exact rest last true
    · next text written =>
      obtain rfl := text?_of_isAscii (small p List.mem_cons_self) written
      have space (spaced : Bool) : IsAscii (if spaced then [ascii ' '] else []) := by
        cases spaced with
        | true =>
          intro b hb
          rw [List.mem_singleton.1 hb]
          decide
        | false => exact List.forall_mem_nil _
      intro b hb
      rcases List.mem_append.1 hb with front | later
      · exact (List.mem_append.1 front).elim (space _ b) (small p List.mem_cons_self b)
      · exact rest _ _ b later

/-! ### Pieces in front of what is cut off -/

/-- What starts with a quote or a dollar is more than layout. -/
lemma isContent_of_quote {b : UInt8} (h : b ∈ Text.bytes "'\"$") (before : Before) (rest : List UInt8) :
    (pieceAt before b rest).1.isContent = true := by
  have table : ∀ b : UInt8, b ∈ Text.bytes "'\"$" → (b == ascii ';') = false ∧ isBlankByte b = false ∧
      (b == ascii '-') = false ∧ (b == ascii '/') = false := forall_byte (by decide)
  obtain ⟨semicolon, blank, dash, slash⟩ := table b h
  simp only [pieceAt, semicolon, blank, dash, slash, Bool.false_and, Bool.false_eq_true, if_false]
  split
  · rfl
  split
  · rfl
  split
  · split <;> rfl
  · rfl

lemma agree_append_left {r r' : List UInt8} (h : Agree r r') (xs : List UInt8) :
    Agree (xs ++ r) (xs ++ r') := by
  induction xs with
  | nil => exact h
  | cons b xs ih =>
    by_cases word : isWordByte b = true
    · exact .word word ih
    · exact .same (by simpa using word) _ _

/-- Pieces stay the same when what follows them is replaced by something that goes on with nothing. -/
lemma pieces_cut {before : Before} {bs tail : List UInt8} {ps more : List Piece}
    (h : pieces before bs = ps ++ more) (noComment : ∀ p ∈ ps, ∀ c, p ≠ .comment c) (apart : Apart tail)
    (ended : more = [] → tail = []) :
    pieces before (ps.flatMap Piece.bytes ++ tail) = ps ++ pieces .nothing tail := by
  induction before, bs using pieces_induction generalizing ps with
  | nil before =>
    rw [pieces] at h
    rw [(List.append_eq_nil_iff.1 h.symm).1]
    exact pieces_of_ends apart.ends before
  | cons before b t r p piece bytes ih =>
    rw [pieces_cons piece] at h
    cases ps with
    | nil => exact pieces_of_ends apart.ends before
    | cons q ps =>
      obtain rfl : p = q := (List.cons.inj h).1
      have rest : pieces (before.behind b p) r = ps ++ more := (List.cons.inj h).2
      have whole : ps.flatMap Piece.bytes ++ more.flatMap Piece.bytes = r := by
        rw [← List.flatMap_append, ← rest, flatMap_bytes_pieces]
      have same : pieceAt before b (t ++ (ps.flatMap Piece.bytes ++ tail)) = (p, t.length) := by
        refine pieceAt_agree piece ?_ (fun empty => ?_) fun comment => ?_
        · rw [← whole]
          exact agree_append_left (apart.agree _) _
        · rw [empty, pieces] at rest
          obtain ⟨rfl, rfl⟩ := List.append_eq_nil_iff.1 rest.symm
          exact ended rfl
        · obtain ⟨c, rfl⟩ := comment
          exact absurd rfl (noComment _ List.mem_cons_self c)
      rw [List.flatMap_cons, bytes, List.append_assoc, List.cons_append, pieces_cons same,
        ih rest fun q hq => noComment q (List.mem_cons_of_mem p hq)]
      rfl

/-- A quoted run that something follows ends with a quote or a dollar. -/
lemma getLast?_of_quoted {before : Before} {bs c : List UInt8} {ps more : List Piece}
    (h : pieces before bs = ps ++ .quoted c :: more) (ne : more ≠ []) :
    ∃ d ∈ Text.bytes "'\"$", c.getLast? = some d := by
  obtain ⟨before, b, t, r, piece, rfl, behind⟩ := exists_pieceAt_of_append h
  have rest : r ≠ [] := by
    rintro rfl
    rw [pieces] at behind
    exact ne behind.symm
  obtain ⟨d, quote, last⟩ := getLast?_of_pieceAt piece rest
  exact ⟨d, quote, by rw [List.getLast?_cons, last]; rfl⟩

/-- What follows a text that leaves nothing open is cut into pieces on its own. -/
lemma Closed.pieces_eq {bs rest : List UInt8} (closed : Closed bs) (apart : Apart rest) :
    pieces .nothing (bs ++ rest) = pieces .nothing bs ++ pieces .nothing rest := by
  have alone := closed.pieces_append (.inl apart_nil)
  rw [pieces.eq_1, List.append_nil, List.append_nil] at alone
  rw [closed.pieces_append (.inl apart), ← alone]

/-! ### White space around a statement -/

lemma trimAscii_cons {w : UInt8} (space : isAsciiSpace w = true) (bs : List UInt8) :
    trimAscii (w :: bs) = trimAscii bs := by
  rw [trimAscii, List.dropWhile_cons, if_pos space, trimAscii]

lemma trimAscii_append {ys : List UInt8} (space : ∀ b ∈ ys, isAsciiSpace b = true) (xs : List UInt8) :
    trimAscii (xs ++ ys) = trimAscii xs := by
  rw [trimAscii, trimAscii, List.dropWhile_append]
  split
  · next none => rw [List.isEmpty_iff.1 none, List.dropWhile_eq_nil_iff.2 space]
  · rw [List.reverse_append, dropWhile_of_space fun b hb => space b (List.mem_reverse.1 hb)]

/-- A layout starts in the same way wherever it starts, but for white space. -/
lemma trimAscii_layout (last : Option UInt8) (gap : Bool) (ps : List Piece) :
    trimAscii (layout last gap ps) = trimAscii (layout none false ps) := by
  induction ps generalizing last gap with
  | nil => rfl
  | cons p ps ih =>
    rw [layout, layout]
    split
    · rw [ih, ih none true]
    · next text _ =>
      have front (spaced : Bool) (rest : List UInt8) :
          trimAscii ((if spaced then [ascii ' '] else []) ++ rest) = trimAscii rest := by
        cases spaced with
        | true => exact trimAscii_cons (by decide) rest
        | false => rfl
      dsimp only
      rw [List.append_assoc, List.append_assoc, front, front]

/-- The layout of pieces goes on behind that of the first ones. -/
lemma exists_layout_append (last : Option UInt8) (gap : Bool) (ps : List Piece) : ∃ last' gap', ∀ qs,
    layout last gap (ps ++ qs) = layout last gap ps ++ layout last' gap' qs := by
  induction ps generalizing last gap with
  | nil => exact ⟨last, gap, fun _ => rfl⟩
  | cons p ps ih =>
    cases written : p.text? with
    | none =>
      obtain ⟨last', gap', rest⟩ := ih last true
      refine ⟨last', gap', fun qs => ?_⟩
      rw [List.cons_append, layout, layout, written]
      exact rest qs
    | some text =>
      obtain ⟨last', gap', rest⟩ := ih text.getLast? false
      refine ⟨last', gap', fun qs => ?_⟩
      rw [List.cons_append, layout, layout, written]
      simp only [rest, List.append_assoc]

/-- White space that goes on with a piece of a bare text goes on with a quoted run. -/
lemma quoted_of_extended {w : UInt8} {bs : List UInt8} {ps : List Piece} {p q : Piece} (bare : IsBare (bs ++ [w]))
    (old : pieces .nothing bs = ps ++ [p]) (new : pieces .nothing (bs ++ [w]) = ps ++ [q])
    (bytes : q.bytes = p.bytes ++ [w]) (notBlank : q.isBlank = false) :
    ∃ b t, b ∈ Text.bytes "'\"$" ∧ q = .quoted (b :: t ++ [w]) ∧ p.text? = some (b :: t) := by
  have mem : p ∈ pieces .nothing bs := by
    rw [old]
    exact List.mem_append_right _ (List.mem_singleton_self p)
  have mem' : q ∈ pieces .nothing (bs ++ [w]) := by
    rw [new]
    exact List.mem_append_right _ (List.mem_singleton_self q)
  obtain ⟨before, b, t, r, piece, start⟩ := exists_pieceAt_of_mem mem
  rw [start] at bytes
  obtain ⟨noSemicolon, noComment⟩ := bare q mem'
  obtain ⟨c, rfl⟩ : ∃ c, q = .quoted c := by
    cases q with
    | semicolon => exact absurd rfl noSemicolon
    | blank c => cases notBlank
    | comment c => exact absurd rfl (noComment c)
    | quoted c => exact ⟨c, rfl⟩
    | other c => simp [Piece.bytes] at bytes
  obtain rfl : c = b :: t ++ [w] := bytes
  obtain ⟨b', t', e, quote⟩ := quote_of_mem_pieces mem'
  obtain rfl : b = b' := (List.cons.inj e).1
  refine ⟨b, t, quote, rfl, ?_⟩
  have content : p.isContent = true := by
    have := isContent_of_quote quote before (t ++ r)
    rwa [piece] at this
  cases p with
  | other c =>
    have small : ∀ b : UInt8, b ∈ Text.bytes "'\"$" → b < 0x80 := forall_byte (by decide)
    obtain ⟨rfl, rfl⟩ : c = b ∧ [] = t := List.cons.inj start
    exact text?_other (small c quote)
  | quoted c => exact congrArg some start
  | _ => cases content

/-- White space is laid out as white space. -/
lemma isAsciiSpace_of_mem_layout {w : UInt8} (space : isAsciiSpace w = true) (last : Option UInt8)
    (gap : Bool) : ∀ b ∈ layout last gap (pieces .nothing [w]), isAsciiSpace b = true := by
  have small : ∀ w : UInt8, isAsciiSpace w = true → w < 0x80 := forall_byte (by decide)
  rw [pieces_asciiSpace space, pieces]
  split
  · exact List.forall_mem_nil _
  · have front (spaced : Bool) : ∀ b ∈ (if spaced then [ascii ' '] else []) ++ [w] ++ [],
        isAsciiSpace b = true := by
      intro b hb
      cases spaced with
      | true =>
        rcases List.mem_cons.1 hb with rfl | hb
        · decide
        · rwa [List.mem_singleton.1 hb]
      | false => rwa [List.mem_singleton.1 hb]
    rw [layout, text?_other (small w space)]
    exact front _

/-- A quoted run that is longer is laid out longer. -/
lemma layout_extended {b : UInt8} (quote : b ∈ Text.bytes "'\"$") {t : List UInt8} {p : Piece}
    (h : p.text? = some (b :: t)) (w : UInt8) (last : Option UInt8) (gap : Bool) :
    layout last gap [.quoted (b :: t ++ [w])] = layout last gap [p] ++ [w] := by
  have table : ∀ b : UInt8, b ∈ Text.bytes "'\"$" →
      (b == ascii ')') = false ∧ (b == ascii ',') = false := forall_byte (by decide)
  obtain ⟨noClosing, noComma⟩ := table b quote
  have tight (l : UInt8) (x : List UInt8) : isTight l (b :: x) = (l == ascii '(') := by
    simp [isTight, noClosing, noComma]
  have written : (Piece.quoted (b :: t ++ [w])).text? = some (b :: (t ++ [w])) := rfl
  simp only [layout, h, written, tight]
  simp

/-- The second text is as good as the first one as a statement, if that one is bare. -/
structure Reduces (bs bs' : List UInt8) : Prop where
  bare : IsBare bs → IsBare bs'
  laid : IsBare bs → trimAscii (layout none false (pieces .nothing bs')) =
    trimAscii (layout none false (pieces .nothing bs))
  closed : IsBare bs → Closed bs → Closed bs'

namespace Reduces

lemma refl (bs : List UInt8) : Reduces bs bs :=
  ⟨id, fun _ => rfl, fun _ => id⟩

lemma trans {xs ys zs : List UInt8} (h : Reduces xs ys) (h' : Reduces ys zs) : Reduces xs zs where
  bare bare := h'.bare (h.bare bare)
  laid bare := (h'.laid (h.bare bare)).trans (h.laid bare)
  closed bare closed := h'.closed (h.bare bare) (h.closed bare closed)

section Space
variable {w : UInt8} (space : isAsciiSpace w = true)
include space

/-- White space in front of a text does not matter. -/
lemma cons (bs : List UInt8) : Reduces (w :: bs) bs where
  bare bare p hp := by
    refine bare p ?_
    rw [pieces_asciiSpace space]
    exact List.mem_cons_of_mem _ hp
  laid _ := by
    rw [pieces_asciiSpace space]
    split
    · rw [layout, Piece.text?]
      exact (trimAscii_layout none true _).symm
    · have small : ∀ w : UInt8, isAsciiSpace w = true → w < 0x80 := forall_byte (by decide)
      rw [layout, text?_other (small w space)]
      exact ((trimAscii_cons space _).trans (trimAscii_layout _ _ _)).symm
  closed _ closed := by
    rw [Closed, List.cons_append, pieces_asciiSpace space, List.getLast?_cons_of_ne_nil] at closed
    · exact closed
    · exact pieces_ne_nil (by simp) _

/-- White space that goes on with the last piece of a text does not matter, since it does so only inside a
quoted run that is left open. -/
lemma of_extended {bs : List UInt8} {ps : List Piece} {p q : Piece} (old : pieces .nothing bs = ps ++ [p])
    (new : pieces .nothing (bs ++ [w]) = ps ++ [q]) (bytes : q.bytes = p.bytes ++ [w])
    (notBlank : q.isBlank = false) : Reduces (bs ++ [w]) bs := by
  have extended (bare : IsBare (bs ++ [w])) := quoted_of_extended bare old new bytes notBlank
  refine ⟨fun bare p' hp => ?_, fun bare => ?_, fun bare closed => ?_⟩
  · obtain ⟨b, t, -, -, written⟩ := extended bare
    rw [old] at hp
    rcases List.mem_append.1 hp with front | last
    · exact bare p' (by rw [new]; exact List.mem_append_left _ front)
    · obtain rfl := List.mem_singleton.1 last
      constructor
      · rintro rfl
        cases written
      · rintro c rfl
        cases written
  · obtain ⟨b, t, quote, rfl, written⟩ := extended bare
    obtain ⟨last, gap, rest⟩ := exists_layout_append none false ps
    have single : ∀ c ∈ [w], isAsciiSpace c = true := by simpa using space
    rw [old, new, rest, rest, layout_extended quote written, ← List.append_assoc]
    exact (trimAscii_append single _).symm
  · -- a quoted run that ends does not end with white space
    obtain ⟨b, t, -, rfl, -⟩ := extended bare
    have whole := closed.pieces_eq (apart_semicolon [])
    rw [new, List.append_assoc ps, List.singleton_append] at whole
    obtain ⟨d, quote, last⟩ := getLast?_of_quoted whole (pieces_ne_nil (by simp) _)
    rw [List.getLast?_concat] at last
    obtain rfl := Option.some.inj last
    have table : ∀ b : UInt8, b ∈ Text.bytes "'\"$" → ¬ isAsciiSpace b = true := forall_byte (by decide)
    exact absurd space (table w quote)

/-- White space behind a text does not matter. -/
lemma concat (bs : List UInt8) : Reduces (bs ++ [w]) bs := by
  rcases pieces_concat space .nothing bs with alone | ⟨ps, p, q, old, new, bytes, -, notBlank⟩
  · refine ⟨fun bare p hp => ?_, fun _ => ?_, fun bare closed => ?_⟩
    · exact bare p (by rw [alone]; exact List.mem_append_left _ hp)
    · obtain ⟨last, gap, rest⟩ := exists_layout_append none false (pieces .nothing bs)
      rw [alone, rest, trimAscii_append (isAsciiSpace_of_mem_layout space last gap)]
    · have whole := closed.pieces_eq (apart_semicolon [])
      rw [alone, List.append_assoc (pieces .nothing bs)] at whole
      have cut := pieces_cut whole
        (fun p hp => (bare p (by rw [alone]; exact List.mem_append_left _ hp)).2) (apart_semicolon [])
        fun none => absurd (List.append_eq_nil_iff.1 none).1 (pieces_ne_nil (by simp) _)
      rw [flatMap_bytes_pieces] at cut
      exact closed_of_pieces cut
  · exact of_extended space old new bytes notBlank

end Space

lemma dropWhile (bs : List UInt8) : Reduces bs (bs.dropWhile isAsciiSpace) := by
  induction bs with
  | nil => exact .refl []
  | cons b bs ih =>
    rw [List.dropWhile_cons]
    split
    · next space => exact (cons space bs).trans ih
    · exact .refl _

lemma reverse_dropWhile (bs : List UInt8) : Reduces bs (bs.reverse.dropWhile isAsciiSpace).reverse := by
  induction bs using List.reverseRecOn with
  | nil => exact .refl []
  | append_singleton bs b ih =>
    rw [List.reverse_append, List.reverse_singleton, List.singleton_append, List.dropWhile_cons]
    split
    · next space => exact (concat space bs).trans ih
    · rw [List.reverse_cons, List.reverse_reverse]
      exact .refl _

/-- As a statement, a text without the white space around it is as good as the text. -/
lemma trimAscii (bs : List UInt8) : Reduces bs (trimAscii bs) :=
  (dropWhile bs).trans (reverse_dropWhile _)

end Reduces

/-! ### The normal layout of a normal layout -/

/-- Laying out the pieces of a layout gives the layout again. -/
lemma layout_relaid (last : Option UInt8) (gap : Bool) (ps : List Piece) :
    layout last false (relaid last gap ps) = layout last gap ps := by
  induction ps generalizing last gap with
  | nil => rfl
  | cons p ps ih =>
    cases written : p.text? with
    | none =>
      simp only [relaid, layout, written]
      exact ih last true
    | some text =>
      have direct (last : Option UInt8) : layout last false (p :: relaid text.getLast? false ps) =
          text ++ layout text.getLast? false ps := by
        cases last <;> simp [layout, written, ih]
      simp only [relaid, layout, written]
      cases last with
      | none => exact direct none
      | some l =>
        by_cases spaced : (gap && !isTight l text) = true
        · have loose := (Bool.and_eq_true_iff.1 spaced).2
          have behind : layout (some l) true (p :: relaid text.getLast? false ps) =
              ascii ' ' :: text ++ layout text.getLast? false ps := by
            simp [layout, written, ih, loose]
          simp only [spaced, if_true]
          exact behind
        · simp only [spaced, if_neg, Bool.false_eq_true, not_false_eq_true, List.nil_append]
          exact direct (some l)

lemma isContent_of_mem_relaid {last : Option UInt8} {gap : Bool} {ps : List Piece} {p : Piece}
    (h : p ∈ relaid last gap ps) : p.isContent = true ∨ p.isBlank = true := by
  by_cases blank : p.isBlank = true
  · exact .inr blank
  · have kept : p ∈ (relaid last gap ps).filter (!·.isBlank) :=
      List.mem_filter.2 ⟨h, by simpa using blank⟩
    rw [filter_relaid] at kept
    exact .inl (List.mem_filter.1 kept).2

/-- The layout of a statement of ASCII is normal without the white space around it, if anything of it
stays. -/
lemma isNormal_of_part {bs : List UInt8} {ps : List Piece} (small : IsAscii bs)
    (part : Part ps (pieces .nothing bs)) (ne : Text.trimBytes (layout none false ps) ≠ []) :
    IsNormal (Text.trimBytes (layout none false ps)) ∧
      (pieces .nothing bs ≠ ps → Closed (Text.trimBytes (layout none false ps))) := by
  have smallPieces : ∀ p ∈ ps, IsAscii p.bytes := by
    obtain ⟨more, e, -⟩ := part.rest
    intro p hp
    exact isAscii_of_mem_pieces small (e ▸ List.mem_append_left more hp)
  have smallBytes : ∀ b, .other b ∈ ps → b < 0x80 :=
    fun b hb => smallPieces _ hb b (List.mem_singleton_self b)
  have smallText := isAscii_layout smallPieces none false
  rw [trimBytes_of_isAscii smallText] at ne ⊢
  have whole := pieces_statement smallBytes apart_nil part fun _ => rfl
  rw [pieces.eq_1, List.append_nil, List.append_nil] at whole
  have bare : IsBare (layout none false ps) := by
    intro p hp
    rw [whole] at hp
    have := isContent_of_mem_relaid hp
    constructor
    · rintro rfl
      simp [Piece.isContent, Piece.isBlank] at this
    · rintro c rfl
      simp [Piece.isContent, Piece.isBlank] at this
  have reduces := Reduces.trimAscii (layout none false ps)
  refine ⟨⟨ne, reduces.bare bare, ?_⟩, fun follows => reduces.closed bare ?_⟩
  · have smallTrimmed : IsAscii (trimAscii (layout none false ps)) :=
      fun b hb => smallText b (trimAscii_subset _ hb)
    rw [trimBytes_of_isAscii (isAscii_layout (fun p hp => isAscii_of_mem_pieces smallTrimmed hp) _ _),
      reduces.laid bare, whole, layout_relaid]
  · exact closed_of_pieces
      (pieces_statement smallBytes (apart_semicolon []) part fun alone => absurd alone follows)

/-! ### Scripts -/

lemma statementsOf_of_not_mem {ps : List Piece} (h : .semicolon ∉ ps) :
    statementsOf ps = if Text.trimBytes (layout none false ps) = [] then []
      else [Text.trimBytes (layout none false ps)] := by
  rw [statementsOf, splitList_of_not_mem h, List.map_singleton]
  split
  · next empty => simp [empty]
  · next ne => simp [ne]

/-- The statements of a script of ASCII are normal. -/
lemma normal_normalize {script : List UInt8} (small : IsAscii script) :
    NormalScript (normalize script) := by
  generalize hn : (pieces .nothing script).length = n
  induction n using Nat.strong_induction_on generalizing script with
  | h n ih =>
    by_cases mem : .semicolon ∈ pieces .nothing script
    · obtain ⟨front, behind, e, closed⟩ := List.eq_append_cons_of_mem mem
      obtain ⟨rest, rfl⟩ := exists_pieces_behind e
      have smallRest : IsAscii rest := by
        intro b hb
        rw [← flatMap_bytes_pieces .nothing rest] at hb
        rw [← flatMap_bytes_pieces .nothing script, e] at small
        exact small b (by simp [hb])
      have shorter : (pieces .nothing rest).length < n := by
        rw [← hn, e, List.length_append, List.length_cons]
        omega
      have cut : normalize script = statementsOf front ++ normalize rest := by
        change statementsOf (pieces .nothing script) = _
        rw [e, statementsOf_append]
        rfl
      have part : Part front (pieces .nothing script) := by
        refine ⟨closed, _, e, ?_⟩
        rintro p ⟨⟩
        rfl
      have follows : pieces .nothing script ≠ front := by
        rw [e]
        simp
      have later := ih _ shorter smallRest rfl
      rw [cut, statementsOf_of_not_mem closed]
      split
      · exact later
      · next ne =>
        obtain ⟨normal, shut⟩ := isNormal_of_part small part ne
        exact .cons normal (shut follows) later
    · have part : Part (pieces .nothing script) (pieces .nothing script) :=
        ⟨mem, [], (List.append_nil _).symm, nofun⟩
      change NormalScript (statementsOf (pieces .nothing script))
      rw [statementsOf_of_not_mem mem]
      split
      · exact .nil
      · next ne => exact .last (isNormal_of_part small part ne).1

/-- A normal statement is the one statement of its pieces. -/
lemma IsNormal.statementsOf_eq {bs : List UInt8} (h : IsNormal bs) :
    statementsOf (pieces .nothing bs) = [bs] := by
  rw [statementsOf_of_not_mem fun mem => (h.bare _ mem).1 rfl, h.laid, if_neg h.ne_nil]

/-- Normal statements with semicolons between them are normalized to themselves. -/
lemma normalize_of_normal {bss : List (List UInt8)} (h : NormalScript bss) :
    normalize (List.intercalate (Text.bytes ";\n") bss) = bss := by
  induction h with
  | nil =>
    change statementsOf (pieces .nothing []) = []
    rw [pieces.eq_1]
    exact statementsOf_nil
  | last normal =>
    rw [List.intercalate_singleton]
    exact normal.statementsOf_eq
  | @cons bs bss normal closed rest ih =>
    cases bss with
    | nil =>
      rw [List.intercalate_singleton]
      exact normal.statementsOf_eq
    | cons next bss =>
      have separator : Text.bytes ";\n" = [ascii ';', ascii '\n'] := by decide
      have skip := statementsOf_gaps_append (gaps_blank (ascii '\n'))
        (pieces .nothing (List.intercalate (Text.bytes ";\n") (next :: bss)))
      change statementsOf (pieces .nothing _) = _
      rw [List.intercalate_cons_cons, separator, List.append_assoc, List.cons_append, List.cons_append,
        List.nil_append, closed.pieces_eq (apart_semicolon _), pieces_semicolon, pieces_lineFeed, ← separator,
        statementsOf_append, normal.statementsOf_eq]
      exact congrArg (bs :: ·) (skip.trans ih)

lemma NormalScript.isNormal_of_mem {bss : List (List UInt8)} (h : NormalScript bss) {bs : List UInt8}
    (hb : bs ∈ bss) : IsNormal bs := by
  induction h with
  | nil => cases hb
  | last normal => exact List.mem_singleton.1 hb ▸ normal
  | cons normal _ _ ih =>
    rcases List.mem_cons.1 hb with rfl | hb
    · exact normal
    · exact ih hb

/-- **Normalizing twice is normalizing once.** The statements of a script of ASCII, with a semicolon and
a line feed between any two, are normalized to themselves, and each of them is a text that is not empty
and has no semicolon and no comment outside quoted runs. -/
theorem normalize_idempotent {script : List UInt8} (small : IsAscii script) :
    normalize (List.intercalate (Text.bytes ";\n") (normalize script)) = normalize script ∧
      ∀ bs ∈ normalize script, bs ≠ [] ∧ IsBare bs := by
  have normal := normal_normalize small
  refine ⟨normalize_of_normal normal, fun bs hb => ?_⟩
  exact ⟨(normal.isNormal_of_mem hb).ne_nil, (normal.isNormal_of_mem hb).bare⟩

/-- A script with comments, an escape string, a dollar-quoted body and a string that is left open. -/
theorem normalize_idempotent_of_open :
    IsAscii (Text.bytes "a/* b */( E'\\' ; ' ) ; -- c\n;\t$d$ ; $d$ \x0b; 'e ; \n") ∧
      normalize (Text.bytes "a/* b */( E'\\' ; ' ) ; -- c\n;\t$d$ ; $d$ \x0b; 'e ; \n") =
        [Text.bytes "a (E'\\' ; ')", Text.bytes "$d$ ; $d$", Text.bytes "'e ;"] ∧
      normalize (Text.bytes "a (E'\\' ; ');\n$d$ ; $d$;\n'e ;") =
        [Text.bytes "a (E'\\' ; ')", Text.bytes "$d$ ; $d$", Text.bytes "'e ;"] := by
  have small : IsAscii (Text.bytes "a/* b */( E'\\' ; ' ) ; -- c\n;\t$d$ ; $d$ \x0b; 'e ; \n") := by
    decide +kernel
  have once : normalize (Text.bytes "a/* b */( E'\\' ; ' ) ; -- c\n;\t$d$ ; $d$ \x0b; 'e ; \n") =
      [Text.bytes "a (E'\\' ; ')", Text.bytes "$d$ ; $d$", Text.bytes "'e ;"] := by
    decide +kernel
  have twice := (normalize_idempotent small).1
  rw [once] at twice
  exact ⟨small, once, twice⟩

end ErdSql.Script
