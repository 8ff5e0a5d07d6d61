import ErdSql.Proofs.Boundaries

/-!
# Separators

A separator is a text of blanks and whole comments that starts with a blank. Wherever no comment and no
quoted run is open, one separator can stand for another.

* `ClosesComments.commentLength_append`: a comment ends where the comments opened inside it and the comment
  itself are closed.
* `Separator.exists_pieces`: a separator is cut into gaps, whatever stands before and behind it.
* `statementsOf_gaps_congr`: gaps between pieces can be replaced by other gaps.
* `normalize_separator`: the statements of a script do not depend on its separators.
-/

namespace ErdSql.Script

open Text (ascii)

/-! ### Comments and separators -/

/-- What closes some open block comments, the outermost one at its end. Comments that are opened inside
are closed inside. -/
inductive ClosesComments : Nat → List UInt8 → Prop where
  | closed :
    ClosesComments 0 []
  | opening {depth bs} :
    ClosesComments (depth + 2) bs →
    ClosesComments (depth + 1) (ascii '/' :: ascii '*' :: bs)
  | closing {depth bs} :
    ClosesComments depth bs →
    ClosesComments (depth + 1) (ascii '*' :: ascii '/' :: bs)
  | byte {depth b bs} :
    ¬ (b = ascii '/' ∧ bs.head? = some (ascii '*')) →
    ¬ (b = ascii '*' ∧ bs.head? = some (ascii '/')) →
    ClosesComments (depth + 1) bs →
    ClosesComments (depth + 1) (b :: bs)

/-- A whole block comment. -/
def IsBlockComment (bs : List UInt8) : Prop :=
  ∃ inside, bs = ascii '/' :: ascii '*' :: inside ∧ ClosesComments 1 inside

/-- Blanks, line comments with their line feeds and whole block comments. -/
inductive Spacing : List UInt8 → Prop where
  | nil :
    Spacing []
  | blank {b bs} :
    isBlankByte b = true →
    Spacing bs →
    Spacing (b :: bs)
  | line {comment bs} :
    IsComment comment →
    Spacing bs →
    Spacing (comment ++ ascii '\n' :: bs)
  | block {comment bs} :
    IsBlockComment comment →
    Spacing bs →
    Spacing (comment ++ bs)

/-- Spacing that starts with a blank. -/
structure Separator (bs : List UInt8) : Prop where
  spacing : Spacing bs
  blank : ∃ b ∈ bs.head?, isBlankByte b = true

/-! ### Separators as pieces -/

/-- An open comment goes on. -/
lemma ClosesComments.ne_nil {depth : Nat} {bs : List UInt8} (h : ClosesComments (depth + 1) bs) :
    bs ≠ [] := by
  cases h <;> exact List.cons_ne_nil _ _

/-- Open comments are read up to where the last of them is closed. -/
lemma ClosesComments.commentLength_append {depth : Nat} {bs : List UInt8} (h : ClosesComments depth bs)
    (pos : 0 < depth) (rest : List UInt8) : commentLength depth (bs ++ rest) = bs.length := by
  induction h with
  | closed => cases pos
  | opening _ ih =>
    rw [List.cons_append, List.cons_append, commentLength, if_pos (by decide), ih (Nat.succ_pos _),
      List.length_cons, List.length_cons]
    omega
  | @closing depth bs inner ih =>
    rw [List.cons_append, List.cons_append, commentLength, if_neg (by decide), if_pos (by decide)]
    cases depth with
    | zero =>
      cases inner
      rfl
    | succ depth =>
      rw [if_neg (by omega), Nat.add_sub_cancel, ih (Nat.succ_pos _), List.length_cons, List.length_cons]
      omega
  | @byte depth b bs noOpening noClosing inner ih =>
    obtain ⟨c, bs, rfl⟩ := List.exists_cons_of_ne_nil inner.ne_nil
    have more := ih pos
    rw [List.cons_append] at more
    rw [List.cons_append, List.cons_append, commentLength, if_neg (by simpa using noOpening),
      if_neg (by simpa using noClosing), more]
    simp only [List.length_cons]
    omega

/-- A whole block comment is a gap. -/
lemma pieces_blockComment {comment : List UInt8} (h : IsBlockComment comment) (before : Before)
    (rest : List UInt8) :
    pieces before (comment ++ rest) = .comment comment :: pieces .nothing rest := by
  obtain ⟨inside, rfl, closes⟩ := h
  have length : commentLength 0 (ascii '/' :: ascii '*' :: (inside ++ rest)) = inside.length + 2 := by
    rw [commentLength, if_pos (by decide), closes.commentLength_append (by omega)]
    omega
  have piece : pieceAt before (ascii '/') ((ascii '*' :: inside) ++ rest) =
      (.comment (ascii '/' :: ascii '*' :: inside), (ascii '*' :: inside).length) := by
    have found : pieceAt before (ascii '/') ((ascii '*' :: inside) ++ rest) =
        (.comment (ascii '/' :: ((ascii '*' :: inside) ++ rest).take
          (commentLength 0 (ascii '/' :: ascii '*' :: (inside ++ rest)) - 1)),
          commentLength 0 (ascii '/' :: ascii '*' :: (inside ++ rest)) - 1) := rfl
    rw [found, length]
    simp
  exact pieces_cons piece

/-- Spacing is cut into gaps, whatever stands behind it. -/
lemma Spacing.exists_pieces {bs : List UInt8} (h : Spacing bs) : ∃ gs, Gaps gs ∧
    ∀ rest, pieces .nothing (bs ++ rest) = gs ++ pieces .nothing rest := by
  induction h with
  | nil => exact ⟨[], nofun, fun _ => rfl⟩
  | @blank b bs hb _ ih =>
    obtain ⟨gs, gaps, cut⟩ := ih
    refine ⟨[.blank b] ++ gs, (gaps_blank b).append gaps, fun rest => ?_⟩
    rw [List.cons_append, pieces_blank hb, cut]
    rfl
  | @line comment bs hc _ ih =>
    obtain ⟨gs, gaps, cut⟩ := ih
    refine ⟨[.comment comment] ++ ([.blank (ascii '\n')] ++ gs),
      (gaps_comment comment).append ((gaps_blank _).append gaps), fun rest => ?_⟩
    rw [List.append_assoc, List.cons_append, pieces_comment hc, cut]
    rfl
  | @block comment bs hc _ ih =>
    obtain ⟨gs, gaps, cut⟩ := ih
    refine ⟨[.comment comment] ++ gs, (gaps_comment comment).append gaps, fun rest => ?_⟩
    rw [List.append_assoc, pieces_blockComment hc, cut]
    rfl

/-- A separator is cut into gaps, at least one, wherever nothing is open. -/
lemma Separator.exists_pieces {bs : List UInt8} (h : Separator bs) : ∃ gs, gs ≠ [] ∧ Gaps gs ∧
    ∀ rest, pieces .nothing (bs ++ rest) = gs ++ pieces .nothing rest := by
  obtain ⟨gs, gaps, cut⟩ := h.spacing.exists_pieces
  refine ⟨gs, ?_, gaps, cut⟩
  rintro rfl
  obtain ⟨b, hb, -⟩ := h.blank
  have none := cut []
  rw [List.append_nil, pieces, List.append_nil] at none
  refine pieces_ne_nil ?_ .nothing none
  rintro rfl
  cases hb

/-- A separator goes on with nothing that stands before it. -/
lemma Separator.apart {bs : List UInt8} (h : Separator bs) (rest : List UInt8) : Apart (bs ++ rest) := by
  obtain ⟨b, hb, blank⟩ := h.blank
  have table : ∀ b : UInt8, isBlankByte b = true → isCalm b = true := forall_byte (by decide)
  intro c hc
  rw [List.head?_append, hb] at hc
  obtain rfl := Option.some.inj hc
  exact table b blank

/-! ### Gaps between pieces -/

/-- Behind gaps the layout goes on as behind one gap. -/
lemma layout_gaps_append {gs : List Piece} (h : Gaps gs) (ne : gs ≠ []) (last : Option UInt8)
    (gap : Bool) (ps : List Piece) : layout last gap (gs ++ ps) = layout last true ps := by
  induction gs generalizing gap with
  | nil => exact absurd rfl ne
  | cons g gs ih =>
    rw [List.cons_append, layout, (h g List.mem_cons_self).1]
    dsimp only
    cases gs with
    | nil => rfl
    | cons g' gs => exact ih (fun p hp => h p (List.mem_cons_of_mem g hp)) (List.cons_ne_nil _ _) true

/-- The layout does not depend on which gaps stand between pieces. -/
lemma layout_gaps_congr {gs gs' : List Piece} (h : Gaps gs) (ne : gs ≠ []) (h' : Gaps gs')
    (ne' : gs' ≠ []) (last : Option UInt8) (gap : Bool) (ps qs : List Piece) :
    layout last gap (ps ++ (gs ++ qs)) = layout last gap (ps ++ (gs' ++ qs)) := by
  induction ps generalizing last gap with
  | nil =>
    rw [List.nil_append, List.nil_append, layout_gaps_append h ne, layout_gaps_append h' ne']
  | cons p ps ih =>
    rw [List.cons_append, List.cons_append, layout, layout]
    split
    · exact ih last true
    · next text _ =>
      dsimp only
      rw [ih]

/-- The last part of a list goes on with the first part of what is appended. -/
lemma exists_splitList_append {α : Type} [BEq α] (separator : α) (xs : List α) : ∃ parts part,
    ∀ ys first more, Text.splitList separator ys = first :: more →
      Text.splitList separator (xs ++ ys) = parts ++ (part ++ first) :: more := by
  induction xs with
  | nil => exact ⟨[], [], fun _ _ _ split => split⟩
  | cons x xs ih =>
    obtain ⟨parts, part, ih⟩ := ih
    by_cases h : (x == separator) = true
    · refine ⟨[] :: parts, part, fun ys first more split => ?_⟩
      rw [List.cons_append, Text.splitList, if_pos h, ih ys first more split]
      rfl
    · cases parts with
      | nil =>
        refine ⟨[], x :: part, fun ys first more split => ?_⟩
        rw [List.cons_append, Text.splitList, if_neg h, ih ys first more split]
        rfl
      | cons front parts =>
        refine ⟨(x :: front) :: parts, part, fun ys first more split => ?_⟩
        rw [List.cons_append, Text.splitList, if_neg h, ih ys first more split]
        rfl

/-- Elements that are no separators stand in front of the first part. -/
lemma splitList_append_of_not_mem {α : Type} [BEq α] [LawfulBEq α] {separator : α} {xs : List α}
    (h : separator ∉ xs) {ys first : List α} {more : List (List α)}
    (split : Text.splitList separator ys = first :: more) :
    Text.splitList separator (xs ++ ys) = (xs ++ first) :: more := by
  induction xs with
  | nil => exact split
  | cons x xs ih =>
    rw [List.mem_cons, not_or] at h
    rw [List.cons_append, Text.splitList, if_neg (by simpa using Ne.symm h.1), ih h.2]
    rfl

/-- The statements do not depend on which gaps stand between pieces. -/
lemma statementsOf_gaps_congr {gs gs' : List Piece} (h : Gaps gs) (ne : gs ≠ []) (h' : Gaps gs')
    (ne' : gs' ≠ []) (ps qs : List Piece) :
    statementsOf (ps ++ (gs ++ qs)) = statementsOf (ps ++ (gs' ++ qs)) := by
  obtain ⟨first, more, split⟩ :=
    List.exists_cons_of_ne_nil (Ddl.splitList_ne_nil Piece.semicolon qs)
  obtain ⟨parts, part, splits⟩ := exists_splitList_append Piece.semicolon ps
  have closed {gs : List Piece} (h : Gaps gs) : Piece.semicolon ∉ gs := fun mem => (h _ mem).2 rfl
  rw [statementsOf, statementsOf, splits _ _ _ (splitList_append_of_not_mem (closed h) split),
    splits _ _ _ (splitList_append_of_not_mem (closed h') split), List.map_append, List.map_append,
    List.map_cons, List.map_cons, layout_gaps_congr h ne h' ne']

/-! ### Scripts -/

/-- Where no comment and no quoted run is open, one separator can stand for another: the statements of
the script stay the same. -/
theorem normalize_separator {front separator separator' : List UInt8} (closed : Closed front)
    (h : Separator separator) (h' : Separator separator') (rest : List UInt8) :
    normalize (front ++ separator ++ rest) = normalize (front ++ separator' ++ rest) := by
  obtain ⟨gs, ne, gaps, cut⟩ := h.exists_pieces
  obtain ⟨gs', ne', gaps', cut'⟩ := h'.exists_pieces
  change statementsOf (pieces .nothing _) = statementsOf (pieces .nothing _)
  rw [List.append_assoc, List.append_assoc, closed.pieces_append (.inl (h.apart rest)),
    closed.pieces_append (.inl (h'.apart rest)), cut, cut']
  exact statementsOf_gaps_congr gaps ne gaps' ne' _ _

/-- A space behind a dollar-quoted body, and in its place a line with a remark and a comment inside a
comment. -/
theorem normalize_separator_of_remarks :
    Closed (Text.bytes "SELECT $a$ -- ; $a$") ∧ Separator (Text.bytes " ") ∧
    Separator (Text.bytes "\n-- ' ;\n/* /*;*/ */\t") ∧
    normalize (Text.bytes "SELECT $a$ -- ; $a$" ++ Text.bytes " " ++ Text.bytes "'b', (c)") =
      normalize (Text.bytes "SELECT $a$ -- ; $a$" ++ Text.bytes "\n-- ' ;\n/* /*;*/ */\t" ++
        Text.bytes "'b', (c)") := by
  have closed : Closed (Text.bytes "SELECT $a$ -- ; $a$") := by decide +kernel
  have space : Separator (Text.bytes " ") := ⟨.blank (by decide) .nil, ascii ' ', by decide, by decide⟩
  have remarks : Separator (Text.bytes "\n-- ' ;\n/* /*;*/ */\t") := by
    have parts : Text.bytes "\n-- ' ;\n/* /*;*/ */\t" = ascii '\n' :: (Text.bytes "-- ' ;" ++
        ascii '\n' :: (Text.bytes "/* /*;*/ */" ++ [ascii '\t'])) := by decide
    have line : IsComment (Text.bytes "-- ' ;") := ⟨⟨Text.bytes " ' ;", by decide⟩, by decide⟩
    have inside : ClosesComments 1 (Text.bytes " /*;*/ */") :=
      .byte (by decide) (by decide) <| .opening <| .byte (by decide) (by decide) <| .closing <|
        .byte (by decide) (by decide) <| .closing .closed
    have block : IsBlockComment (Text.bytes "/* /*;*/ */") := ⟨_, by decide, inside⟩
    rw [parts]
    exact ⟨.blank (by decide) (.line line (.block block (.blank (by decide) .nil))),
      ascii '\n', by decide, by decide⟩
  exact ⟨closed, space, remarks, normalize_separator closed space remarks _⟩

end ErdSql.Script
