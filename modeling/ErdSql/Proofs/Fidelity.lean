import ErdSql.Proofs.Normalization
import ErdSql.Proofs.Trimming

/-!
# What the normal layout keeps

A statement in its normal layout holds the bytes of the script that are no layout, in their order and
as they are, as long as the script is plain: its bytes outside quoted runs are of ASCII, and no run
that is left open ends with white space beyond ASCII.

* `pieces_layout`: the normal layout of pieces is cut into the same pieces again, but for gaps, of which
  only spaces are left.
* `normalize_keeps_content`: the statements of a plain script hold its content.
-/

namespace ErdSql.Script

open Text (ascii)

/-- Whether a piece is more than layout. -/
def Piece.isContent : Piece → Bool
  | quoted _ => true
  | other _ => true
  | _ => false

/-- The bytes of pieces that are no layout. -/
def content (ps : List Piece) : List UInt8 :=
  (ps.filter (·.isContent)).flatMap Piece.bytes

/-- The contents of the statements of a script, without those that are empty. -/
def contents (script : List UInt8) : List (List UInt8) :=
  ((Text.splitList .semicolon (pieces .nothing script)).map fun ps => trimAscii (content ps)).filter
    fun text => !text.isEmpty

/-- A piece that is written as it stands: a byte of ASCII, or a quoted run that does not end with white
space beyond ASCII. Only a run that is left open can end with white space. -/
def Piece.IsPlain : Piece → Prop
  | other b => b < 0x80
  | quoted bs => Text.trimBytes bs = trimAscii bs
  | _ => True

instance : DecidablePred Piece.IsPlain
  | .other b => inferInstanceAs (Decidable (b < 0x80))
  | .quoted _ => inferInstanceAs (Decidable (_ = _))
  | .semicolon | .blank _ | .comment _ => inferInstanceAs (Decidable True)

/-- Every piece of a script is plain. -/
def IsPlain (script : List UInt8) : Prop :=
  ∀ p ∈ pieces .nothing script, p.IsPlain

instance (script : List UInt8) : Decidable (IsPlain script) :=
  inferInstanceAs (Decidable (∀ p ∈ pieces .nothing script, p.IsPlain))

/-- The pieces of a normal layout: those that are written, and the spaces between them. -/
def relaid (last : Option UInt8) (gap : Bool) : List Piece → List Piece
  | [] => []
  | p :: ps =>
    match p.text? with
    | none => relaid last true ps
    | some text =>
      let spaced : Bool := match last with
        | some b => gap && !isTight b text
        | none => false
      (if spaced then [.blank (ascii ' ')] else []) ++ p :: relaid text.getLast? false ps

/-! ### Kinds of pieces -/

lemma quote_of_pieceAt {before : Before} {b : UInt8} {rest bs : List UInt8} {n : Nat}
    (h : pieceAt before b rest = (.quoted bs, n)) : b ∈ Text.bytes "'\"$" := by
  unfold pieceAt at h
  dsimp only at h
  split at h
  · cases h
  split at h
  · cases h
  split at h
  · cases h
  split at h
  · cases h
  split at h
  · next quote => rw [beq_iff_eq.1 quote]; decide
  split at h
  · next quote => rw [beq_iff_eq.1 quote]; decide
  split at h
  · next dollar => rw [beq_iff_eq.1 dollar]; decide
  · cases h

/-- What stands before a place decides about strings only. -/
lemma pieceAt_other {before : Before} {b c : UInt8} {rest : List UInt8} {n : Nat}
    (h : pieceAt before b rest = (.other c, n)) (before' : Before) :
    pieceAt before' b rest = (.other c, n) := by
  rw [← h]
  by_cases quote : b = ascii '\''
  · subst quote
    cases h
  · simp [pieceAt, quote]

/-! ### The normal layout read again -/

/-- Behind a gap the layout goes on with a calm byte, unless an opening parenthesis stands before. -/
lemma layout_gap {last : UInt8} (notOpen : last ≠ ascii '(') (ps : List Piece) :
    layout (some last) true ps = [] ∨ ∃ b r, layout (some last) true ps = b :: r ∧ isCalm b = true := by
  induction ps with
  | nil => exact .inl rfl
  | cons p ps ih =>
    rw [layout]
    split
    · exact ih
    · next text written =>
      right
      dsimp only
      by_cases tight : isTight last text = true
      · simp only [isTight, notOpen, Bool.or_eq_true, beq_iff_eq, false_or] at tight
        rcases tight with rfl | rfl
        · exact ⟨ascii ')', layout (some (ascii ')')) false ps, by simp [isTight], by decide⟩
        · exact ⟨ascii ',', layout (some (ascii ',')) false ps, by simp [isTight], by decide⟩
      · exact ⟨ascii ' ', text ++ layout text.getLast? false ps, by simp [tight], by decide⟩

/-- Pieces that stand at the start of others and go up to a semicolon or to the end. -/
structure Part (ps all : List Piece) : Prop where
  closed : .semicolon ∉ ps
  rest : ∃ more, all = ps ++ more ∧ ∀ p ∈ more.head?, p = .semicolon

namespace Part

lemma tail {p : Piece} {ps all : List Piece} (h : Part (p :: ps) (p :: all)) : Part ps all := by
  obtain ⟨more, e, stop⟩ := h.rest
  exact ⟨fun mem => h.closed (List.mem_cons_of_mem p mem), more, (List.cons.inj e).2, stop⟩

/-- The first piece is the first of all, unless there is none. -/
lemma cases {p : Piece} {ps all : List Piece} (h : Part ps (p :: all)) :
    ps = [] ∨ ∃ ps', ps = p :: ps' ∧ p ≠ .semicolon ∧ Part ps' all := by
  cases ps with
  | nil => exact .inl rfl
  | cons q ps =>
    obtain ⟨more, e, -⟩ := h.rest
    obtain ⟨rfl, -⟩ := List.cons.inj e
    exact .inr ⟨ps, rfl, fun e => h.closed (e ▸ List.mem_cons_self), h.tail⟩

lemma eq_nil {ps : List Piece} (h : Part ps []) : ps = [] := by
  obtain ⟨more, e, -⟩ := h.rest
  exact (List.append_eq_nil_iff.1 e.symm).1

end Part

lemma text?_other {b : UInt8} (small : b < 0x80) : (Piece.other b).text? = some [b] := by
  rw [Piece.text?, if_pos small]

lemma apart_nil : Apart [] := by
  intro b hb
  cases hb

/-- What goes on with nothing looks like anything. -/
lemma Apart.agree {tail : List UInt8} (h : Apart tail) (r : List UInt8) : Agree r tail := by
  cases tail with
  | nil => exact .ended r
  | cons b tail => exact .calm (h b rfl) r tail

section Layout
variable {ps : List Piece} {tail : List UInt8} (small : ∀ b, .other b ∈ ps → b < 0x80) (apart : Apart tail)
include small apart

/-- The layout of what follows a piece looks like what follows it. -/
lemma agree_layout {before : Before} {r : List UInt8} {last : UInt8} (part : Part ps (pieces before r))
    (notOpen : last ≠ ascii '(') : Agree r (layout (some last) false ps ++ tail) := by
  induction before, r using pieces_induction generalizing ps last with
  | nil before =>
    rw [pieces] at part
    rw [part.eq_nil]
    exact apart.agree _
  | cons before b t r p piece bytes ih =>
    rw [pieces_cons piece] at part
    obtain rfl | ⟨ps, rfl, noSemicolon, part⟩ := part.cases
    · exact apart.agree _
    have gapped (h : p.text? = none) :
        Agree (b :: (t ++ r)) (layout (some last) false (p :: ps) ++ tail) := by
      rw [layout, h]
      dsimp only
      rcases layout_gap notOpen ps with none | ⟨c, more, e, calm⟩
      · rw [none]
        exact apart.agree _
      · rw [e]
        exact .calm calm _ _
    cases p with
    | semicolon => exact absurd rfl noSemicolon
    | blank c => exact gapped rfl
    | comment bs => exact gapped rfl
    | quoted bs =>
      obtain rfl : bs = b :: t := bytes
      have table : ∀ b : UInt8, b ∈ Text.bytes "'\"$" → isWordByte b = false :=
        forall_byte (by decide)
      rw [layout, Piece.text?]
      exact .same (table b (quote_of_pieceAt piece)) _ _
    | other c =>
      obtain ⟨rfl, rfl⟩ : c = b ∧ [] = t := List.cons.inj bytes
      rw [layout, text?_other (small c List.mem_cons_self)]
      by_cases word : isWordByte c = true
      · refine .word word (ih (fun d hd => small d (List.mem_cons_of_mem _ hd)) part ?_)
        rintro rfl
        exact absurd word (by decide)
      · exact .same (by simpa using word) _ _

/-- A piece with the layout of what follows it is still that piece. -/
lemma pieceAt_layout {before : Before} {b : UInt8} {t r : List UInt8} {p : Piece}
    (piece : pieceAt before b (t ++ r) = (p, t.length)) (bytes : p.bytes = b :: t)
    (content : p.isContent = true) (part : Part ps (pieces (before.behind b p) r))
    (ended : pieces (before.behind b p) r = ps → tail = []) :
    pieceAt before b (t ++ (layout (b :: t).getLast? false ps ++ tail)) = (p, t.length) := by
  by_cases hr : r = []
  · rw [hr, pieces] at part ended
    obtain rfl := part.eq_nil
    rw [layout, ended rfl, List.append_nil, ← hr]
    exact piece
  have notComment : ¬ ∃ bs, p = .comment bs := by
    rintro ⟨bs, rfl⟩
    cases content
  by_cases opening : (b :: t).getLast? = some (ascii '(')
  · -- only the parenthesis itself ends so, and it needs no look ahead
    cases p with
    | other c =>
      obtain ⟨rfl, rfl⟩ : c = b ∧ [] = t := List.cons.inj bytes
      obtain rfl : c = ascii '(' := Option.some.inj opening
      exact pieceAt_of_isSafe (by decide) _ _
    | quoted bs =>
      obtain ⟨c, quote, last⟩ := getLast?_of_pieceAt piece hr
      rw [List.getLast?_cons, last] at opening
      obtain rfl : c = ascii '(' := Option.some.inj opening
      exact absurd quote (by decide)
    | _ => cases content
  · obtain ⟨c, last⟩ : ∃ c, (b :: t).getLast? = some c := ⟨_, List.getLast?_cons⟩
    rw [last] at opening ⊢
    refine pieceAt_agree piece (agree_layout small apart part fun e => opening (congrArg some e)) ?_
      fun comment => absurd comment notComment
    exact fun e => absurd e hr

/-- The normal layout of pieces is cut into the same pieces again, but for gaps. Without a gap the
layout is read behind what the script is read behind; a gap is read as a space, or stands where a
parenthesis opens or the text starts, and there neither of the two has anything before it. Something can
follow the layout only if a semicolon follows the pieces. -/
lemma pieces_layout {before before' : Before} {bs : List UInt8} {last : Option UInt8} {gap : Bool}
    (part : Part ps (pieces before bs)) (direct : gap = false → before' = before)
    (gapped : gap = true → before = .nothing)
    (opened : last = none ∨ last = some (ascii '(') → before' = .nothing)
    (ended : pieces before bs = ps → tail = []) :
    pieces before' (layout last gap ps ++ tail) = relaid last gap ps ++ pieces .nothing tail := by
  induction before, bs using pieces_induction generalizing before' ps last gap with
  | nil before =>
    rw [pieces] at part
    rw [part.eq_nil]
    exact pieces_of_ends apart.ends before'
  | cons before b t r p piece bytes ih =>
    rw [pieces_cons piece] at part ended
    obtain rfl | ⟨ps, rfl, noSemicolon, part⟩ := part.cases
    · exact pieces_of_ends apart.ends before'
    have small' : ∀ b, .other b ∈ ps → b < 0x80 := fun b hb => small b (List.mem_cons_of_mem _ hb)
    have ended' : pieces (before.behind b p) r = ps → tail = [] := fun e => ended (congrArg _ e)
    by_cases content : p.isContent = true
    · have text : p.text? = some (b :: t) := by
        rw [← bytes]
        cases p with
        | other c => exact text?_other (small c List.mem_cons_self)
        | quoted bs => rfl
        | _ => cases content
      have written := pieceAt_layout small' apart piece bytes content part ended'
      have behind : (b :: t).getLast? = none ∨ (b :: t).getLast? = some (ascii '(') →
          before.behind b p = .nothing := by
        cases p with
        | other c =>
          obtain ⟨rfl, rfl⟩ : c = b ∧ [] = t := List.cons.inj bytes
          rintro (none | opening)
          · cases none
          · obtain rfl : c = ascii '(' := Option.some.inj opening
            rfl
        | _ => exact fun _ => rfl
      have next := @ih ps small' (before.behind b p) _ false part (fun _ => rfl) (fun h => by cases h)
        behind ended'
      have kept (x : Before) (h : x = before ∨ b ∈ Text.bytes "),") :
          pieces x (b :: t ++ layout (b :: t).getLast? false ps ++ tail) =
            p :: (relaid (b :: t).getLast? false ps ++ pieces .nothing tail) := by
        rw [← next, List.append_assoc, List.cons_append]
        rcases h with rfl | mark
        · exact pieces_cons written
        · have table : ∀ b : UInt8, b ∈ Text.bytes ")," → isSafe b = true ∧ isWordByte b = false :=
            forall_byte (by decide)
          obtain ⟨safe, noWord⟩ := table b mark
          obtain rfl : p = .other b :=
            congrArg Prod.fst (piece.symm.trans (pieceAt_of_isSafe safe before _))
          have nothing (y : Before) : y.behind b (.other b) = .nothing := by
            simp [Before.behind, Before.push, noWord]
          rw [pieces_cons (pieceAt_other written x), nothing, nothing]
      rw [layout, relaid, text]
      dsimp only
      cases last with
      | none =>
        refine kept before' (.inl ?_)
        cases gap with
        | false => exact direct rfl
        | true => rw [gapped rfl, opened (.inl rfl)]
      | some l =>
        dsimp only
        split
        · next spaced =>
          obtain ⟨rfl, -⟩ := Bool.and_eq_true_iff.1 spaced
          rw [List.append_assoc, List.append_assoc, List.singleton_append, pieces_space,
            ← List.append_assoc, kept .nothing (.inl (gapped rfl).symm)]
          rfl
        · next unspaced =>
          refine kept before' ?_
          cases gap with
          | false => exact .inl (direct rfl)
          | true =>
            simp only [isTight, Bool.true_and, Bool.not_eq_true', Bool.not_eq_false,
              Bool.or_eq_true, beq_iff_eq] at unspaced
            rcases unspaced with (rfl | e) | e
            · exact .inl (by rw [gapped rfl, opened (.inr rfl)])
            · rw [(List.cons.inj e).1]
              exact .inr (by decide)
            · rw [(List.cons.inj e).1]
              exact .inr (by decide)
    · have gapAgain : p.text? = none := by
        cases p with
        | other c => exact absurd rfl content
        | quoted bs => exact absurd rfl content
        | _ => rfl
      have nothing : before.behind b p = .nothing := by
        cases p with
        | other c => exact absurd rfl content
        | _ => rfl
      rw [layout, relaid, gapAgain]
      exact @ih ps small' _ last true part (fun h => by cases h) (fun _ => nothing) opened ended'

/-- The normal layout of a statement is cut into its pieces. -/
lemma pieces_statement {bs : List UInt8} (part : Part ps (pieces .nothing bs))
    (ended : pieces .nothing bs = ps → tail = []) : pieces .nothing (layout none false ps ++ tail) =
      relaid none false ps ++ pieces .nothing tail :=
  pieces_layout small apart part (fun _ => rfl) (fun _ => rfl) (fun _ => rfl) ended

end Layout

/-- The pieces of a normal layout are those of the script, but for blanks. -/
lemma filter_relaid (last : Option UInt8) (gap : Bool) (ps : List Piece) :
    (relaid last gap ps).filter (!·.isBlank) = ps.filter (·.isContent) := by
  induction ps generalizing last gap with
  | nil => rfl
  | cons p ps ih =>
    rw [relaid]
    split
    · next none =>
      have layoutOnly : p.isContent = false := by
        cases p with
        | other => cases none
        | quoted => cases none
        | _ => rfl
      rw [ih, List.filter_cons, layoutOnly]
      rfl
    · next text written =>
      have content : p.isContent = true ∧ p.isBlank = false := by
        cases p with
        | other => exact ⟨rfl, rfl⟩
        | quoted => exact ⟨rfl, rfl⟩
        | _ => cases written
      have space (spaced : Bool) :
          (if spaced then [Piece.blank (ascii ' ')] else []).filter (!·.isBlank) = [] := by
        cases spaced <;> rfl
      rw [List.filter_append, space, List.filter_cons, List.filter_cons, content.1, content.2, ih]
      rfl

/-- The normal layout of a statement, without its blanks, is the content of the statement. -/
lemma unspaced_layout {bs : List UInt8} {ps : List Piece} (part : Part ps (pieces .nothing bs))
    (small : ∀ b, .other b ∈ ps → b < 0x80) :
    unspaced .nothing (layout none false ps) = content ps := by
  have cut := pieces_statement small apart_nil part fun _ => rfl
  rw [pieces, List.append_nil, List.append_nil] at cut
  rw [unspaced, content, cut, filter_relaid]

/-! ### Plain statements -/

/-- A piece of a script was found where it starts, in front of the pieces behind it. -/
lemma exists_pieceAt_of_append {before : Before} {script : List UInt8} {ps more : List Piece} {p : Piece}
    (h : pieces before script = ps ++ p :: more) :
    ∃ before b t r, pieceAt before b (t ++ r) = (p, t.length) ∧ p.bytes = b :: t ∧
      pieces (before.behind b p) r = more := by
  induction before, script using pieces_induction generalizing ps with
  | nil before =>
    rw [pieces] at h
    exact absurd h.symm (List.append_ne_nil_of_right_ne_nil ps (List.cons_ne_nil p more))
  | cons before b t r q piece bytes ih =>
    rw [pieces_cons piece] at h
    cases ps with
    | nil =>
      obtain ⟨rfl, behind⟩ := List.cons.inj h
      exact ⟨before, b, t, r, piece, bytes, behind⟩
    | cons q ps => exact ih (List.cons.inj h).2

lemma exists_pieceAt_of_mem {before : Before} {script : List UInt8} {p : Piece}
    (h : p ∈ pieces before script) :
    ∃ before b t r, pieceAt before b (t ++ r) = (p, t.length) ∧ p.bytes = b :: t := by
  obtain ⟨ps, more, cut⟩ := List.append_of_mem h
  obtain ⟨before, b, t, r, piece, bytes, -⟩ := exists_pieceAt_of_append cut
  exact ⟨before, b, t, r, piece, bytes⟩

lemma quote_of_mem_pieces {before : Before} {script bs : List UInt8}
    (h : .quoted bs ∈ pieces before script) : ∃ b t, bs = b :: t ∧ b ∈ Text.bytes "'\"$" := by
  obtain ⟨before, b, t, r, piece, bytes⟩ := exists_pieceAt_of_mem h
  exact ⟨b, t, bytes, quote_of_pieceAt piece⟩

/-- A byte of ASCII can be trimmed within ASCII. -/
lemma trimmable_singleton {b : UInt8} (small : b < 0x80) : Trimmable [b] := by
  by_cases space : isAsciiSpace b = true
  · exact .of_space (by simpa using space)
  · refine .of_solid small space ?_
    intro e he pre
    rw [List.reverse_singleton, List.dropWhile_cons, if_neg space] at pre
    refine SpaceEncodings.not_mem spaceEncodings_back he small space ?_
    obtain ⟨c, e, rfl⟩ := List.exists_cons_of_ne_nil (SpaceEncodings.ne_nil spaceEncodings_back he)
    rw [(List.cons_prefix_cons.1 pre).1]
    exact List.mem_cons_self

/-- The text of a plain piece. -/
lemma trimmable_text? {before : Before} {script text : List UInt8} {p : Piece}
    (mem : p ∈ pieces before script) (plain : p.IsPlain) (h : p.text? = some text) :
    Trimmable text := by
  cases p with
  | other b =>
    rw [text?_other plain] at h
    obtain rfl := Option.some.inj h
    exact trimmable_singleton plain
  | quoted bs =>
    obtain rfl : bs = text := Option.some.inj h
    obtain ⟨b, t, rfl, quote⟩ := quote_of_mem_pieces mem
    have table : ∀ b : UInt8, b ∈ Text.bytes "'\"$" → b < 0x80 ∧ ¬ isAsciiSpace b = true :=
      forall_byte (by decide)
    obtain ⟨small, solid⟩ := table b quote
    exact .of_solid small solid (endsPlain_of_trimBytes small solid plain)
  | _ => cases h

lemma trimmable_layout {before : Before} {script : List UInt8} {ps : List Piece}
    (sub : ps ⊆ pieces before script) (plain : ∀ p ∈ ps, p.IsPlain) (last : Option UInt8) (gap : Bool) :
    Trimmable (layout last gap ps) := by
  induction ps generalizing last gap with
  | nil => exact .of_space (List.forall_mem_nil _)
  | cons p ps ih =>
    have rest := ih (fun q hq => sub (List.mem_cons_of_mem p hq)) fun q hq =>
      plain q (List.mem_cons_of_mem p hq)
    rw [layout]
    split
    · exact rest last true
    · next text written =>
      have own := trimmable_text? (sub List.mem_cons_self) (plain p List.mem_cons_self) written
      have space (spaced : Bool) : ∀ b ∈ if spaced then [ascii ' '] else [], isAsciiSpace b = true := by
        cases spaced with
        | true =>
          intro b hb
          rw [List.mem_singleton.1 hb]
          decide
        | false => exact List.forall_mem_nil _
      exact .append (.append (.of_space (space _)) own) (rest _ _)

/-- The pieces behind a semicolon are those of a script of its own. -/
lemma exists_pieces_behind {before : Before} {script : List UInt8} {ps qs : List Piece}
    (h : pieces before script = ps ++ .semicolon :: qs) : ∃ rest, qs = pieces .nothing rest := by
  induction before, script using pieces_induction generalizing ps with
  | nil before =>
    rw [pieces] at h
    simp at h
  | cons before b t r p piece bytes ih =>
    rw [pieces_cons piece] at h
    cases ps with
    | nil =>
      obtain ⟨rfl, rest⟩ := List.cons.inj h
      exact ⟨r, rest.symm⟩
    | cons q ps => exact ih (List.cons.inj h).2

/-- The statements of a script stand at the start of scripts. -/
lemma exists_part_of_mem_splitList {script : List UInt8} {ps : List Piece}
    (h : ps ∈ Text.splitList .semicolon (pieces .nothing script)) :
    ∃ rest, Part ps (pieces .nothing rest) ∧ ps ⊆ pieces .nothing script := by
  generalize hn : (pieces .nothing script).length = n
  induction n using Nat.strong_induction_on generalizing script with
  | h n ih =>
    by_cases mem : .semicolon ∈ pieces .nothing script
    · obtain ⟨pre, post, e, first⟩ := List.eq_append_cons_of_mem mem
      rw [e, splitList_append first] at h
      rcases List.mem_cons.1 h with rfl | h
      · refine ⟨script, ⟨first, _, e, ?_⟩, ?_⟩
        · rintro p ⟨⟩
          rfl
        · rw [e]
          exact List.subset_append_left _ _
      · obtain ⟨rest, rfl⟩ := exists_pieces_behind e
        have shorter : (pieces .nothing rest).length < n := by
          rw [← hn, e, List.length_append, List.length_cons]
          omega
        obtain ⟨more, part, sub⟩ := ih _ shorter h rfl
        refine ⟨more, part, fun p hp => ?_⟩
        rw [e]
        exact List.mem_append_right _ (List.mem_cons_of_mem _ (sub hp))
    · rw [splitList_of_not_mem mem, List.mem_singleton] at h
      subst h
      exact ⟨script, ⟨mem, [], (List.append_nil _).symm, nofun⟩, List.Subset.refl _⟩

/-- The statements of a plain script, without their blanks, are its contents: what stands between two
semicolons, without comments and blanks. Nothing else is lost and nothing is changed. -/
theorem normalize_keeps_content {script : List UInt8} (plain : IsPlain script) :
    (normalize script).map (unspaced .nothing) = contents script := by
  have each : ∀ ps ∈ Text.splitList .semicolon (pieces .nothing script),
      unspaced .nothing (Text.trimBytes (layout none false ps)) = trimAscii (content ps) ∧
      (Text.trimBytes (layout none false ps)).isEmpty = (trimAscii (content ps)).isEmpty := by
    intro ps hps
    obtain ⟨rest, part, sub⟩ := exists_part_of_mem_splitList hps
    have trimmable := trimmable_layout sub (fun p hp => plain p (sub hp)) none false
    have kept := unspaced_layout part fun b hb => plain _ (sub hb)
    rw [trimBytes_eq_trimAscii trimmable.front trimmable.back, ← kept]
    refine ⟨unspaced_trimAscii _, ?_⟩
    rw [Bool.eq_iff_iff, List.isEmpty_iff, List.isEmpty_iff, trimAscii_eq_nil_iff, unspaced_trimAscii]
  rw [normalize, contents, List.filter_map, List.filter_map, List.map_map]
  have same : (Text.splitList .semicolon (pieces .nothing script)).filter
        ((fun text => !text.isEmpty) ∘ fun ps => Text.trimBytes (layout none false ps)) =
      (Text.splitList .semicolon (pieces .nothing script)).filter
        ((fun text => !text.isEmpty) ∘ fun ps => trimAscii (content ps)) :=
    List.filter_congr fun ps hps => congrArg (!·) (each ps hps).2
  rw [same]
  exact List.map_congr_left fun ps hps => (each ps (List.mem_of_mem_filter hps)).1

/-- A script with comments, strings and a dollar-quoted body. -/
theorem normalize_keeps_content_of_mixed :
    IsPlain (Text.bytes "a -- b\n ( 'c ; ' ) ; /* d */ $$ e ; $$") ∧
    (normalize (Text.bytes "a -- b\n ( 'c ; ' ) ; /* d */ $$ e ; $$")).map (unspaced .nothing) =
      [Text.bytes "a('c ; ')", Text.bytes "$$ e ; $$"] := by
  have plain : IsPlain (Text.bytes "a -- b\n ( 'c ; ' ) ; /* d */ $$ e ; $$") := by decide +kernel
  refine ⟨plain, (normalize_keeps_content plain).trans ?_⟩
  decide +kernel

/-- A letter beyond ASCII outside quotes is taken for two others, and white space beyond ASCII at the
end of a run that is left open is lost. -/
theorem normalize_alters_content :
    (normalize (Text.bytes "SELECT é")).map (unspaced .nothing) ≠ contents (Text.bytes "SELECT é") ∧
    (normalize (Text.bytes "SELECT 'a\u2003")).map (unspaced .nothing) ≠
      contents (Text.bytes "SELECT 'a\u2003") := by
  constructor <;> decide +kernel

end ErdSql.Script
