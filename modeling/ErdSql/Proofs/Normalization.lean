import ErdSql.Ddl.Output
import ErdSql.Proofs.Phrase

/-!
# Normal layout of a script

The statements of a script that is made of phrases and comments.

* `Script.normalize_of_chunks`: the statements are the phrases, as they were written.
* `Ddl.chunk_of_terminated`: a rendered statement is a phrase or, if it is disabled, a comment.
* `Ddl.chunk_banner`: the banner is a comment.
-/

namespace ErdSql

/-! ### Trimming -/

namespace Text

/-- White space around bytes starts and ends with no visible byte. -/
lemma dropEncodings_of_visible {encodings : List (List UInt8)}
    (h : ∀ e ∈ encodings, ∃ b ∈ e.head?, ¬ (32 < b ∧ b < 128)) {bs : List UInt8} {b : UInt8}
    (hb : bs.head? = some b) (visible : 32 < b ∧ b < 128) : dropEncodings encodings bs = bs := by
  cases bs with
  | nil => cases hb
  | cons c rest =>
    obtain rfl : c = b := Option.some.inj hb
    have none : encodings.find? (·.isPrefixOf (c :: rest)) = none := by
      rw [List.find?_eq_none]
      intro e he
      obtain ⟨x, hx, hidden⟩ := h e he
      cases e with
      | nil => cases hx
      | cons y ys =>
        obtain rfl : y = x := Option.some.inj hx
        have : y ≠ c := fun same => hidden (same ▸ visible)
        simp [List.isPrefixOf, this]
    rw [dropEncodings, none]

/-- Bytes that start and end with visible bytes are trimmed already. -/
lemma trimBytes_of_visible {bs : List UInt8} {b c : UInt8} (hb : bs.head? = some b)
    (first : 32 < b ∧ b < 128) (hc : bs.getLast? = some c) (last : 32 < c ∧ c < 128) :
    trimBytes bs = bs := by
  have front : ∀ e ∈ spaceEncodings, ∃ b ∈ e.head?, ¬ (32 < b ∧ b < 128) := by decide
  have back : ∀ e ∈ spaceEncodings.map List.reverse, ∃ b ∈ e.head?, ¬ (32 < b ∧ b < 128) := by
    decide
  rw [trimBytes, dropEncodings_of_visible front hb first,
    dropEncodings_of_visible back (by rw [List.head?_reverse]; exact hc) last, List.reverse_reverse]

end Text

namespace Script

open Text (ascii)

/-! ### Statements between semicolons -/

/-- A list is cut at its first separator. -/
lemma splitList_append {α : Type} [BEq α] [LawfulBEq α] {separator : α} {xs : List α}
    (h : separator ∉ xs) (ys : List α) :
    Text.splitList separator (xs ++ separator :: ys) = xs :: Text.splitList separator ys := by
  induction xs with
  | nil => simp [Text.splitList]
  | cons x xs ih =>
    rw [List.mem_cons, not_or] at h
    rw [List.cons_append, Text.splitList, if_neg (by simpa using Ne.symm h.1), ih h.2]

/-- A list without separator is one part. -/
lemma splitList_of_not_mem {α : Type} [BEq α] [LawfulBEq α] {separator : α} {xs : List α}
    (h : separator ∉ xs) : Text.splitList separator xs = [xs] := by
  induction xs with
  | nil => rfl
  | cons x xs ih =>
    rw [List.mem_cons, not_or] at h
    rw [Text.splitList, if_neg (by simpa using Ne.symm h.1), ih h.2]

/-- The statements that pieces hold. -/
def statementsOf (ps : List Piece) : List (List UInt8) :=
  ((Text.splitList .semicolon ps).map fun ps => Text.trimBytes (layout none false ps)).filter
    fun text => !text.isEmpty

/-- Pieces that write nothing and end no statement. -/
def Gaps (ps : List Piece) : Prop :=
  ∀ p ∈ ps, p.text? = none ∧ p ≠ .semicolon

lemma Gaps.append {gs gs' : List Piece} (h : Gaps gs) (h' : Gaps gs') : Gaps (gs ++ gs') := by
  intro p hp
  exact (List.mem_append.1 hp).elim (h p) (h' p)

lemma gaps_blank (b : UInt8) : Gaps [.blank b] := by
  intro p hp
  rw [List.mem_singleton.1 hp]
  exact ⟨rfl, nofun⟩

lemma gaps_comment (bs : List UInt8) : Gaps [.comment bs] := by
  intro p hp
  rw [List.mem_singleton.1 hp]
  exact ⟨rfl, nofun⟩

/-- A gap at the start of a statement does not matter. -/
lemma layout_none (gap : Bool) (ps : List Piece) : layout none gap ps = layout none false ps := by
  cases ps with
  | nil => rfl
  | cons p ps =>
    rw [layout, layout]

/-- Gaps at the start of a statement are left out. -/
lemma layout_gaps {gs : List Piece} (h : Gaps gs) (ps : List Piece) :
    layout none false (gs ++ ps) = layout none false ps := by
  induction gs with
  | nil => rfl
  | cons g gs ih =>
    rw [List.cons_append, layout, (h g List.mem_cons_self).1]
    dsimp only
    rw [layout_none]
    exact ih fun p hp => h p (List.mem_cons_of_mem g hp)

/-- Gaps alone hold no statement. -/
lemma statementsOf_gaps {gs : List Piece} (h : Gaps gs) : statementsOf gs = [] := by
  have closed : Piece.semicolon ∉ gs := fun mem => (h _ mem).2 rfl
  have empty : layout none false gs = [] := by
    have := layout_gaps h []
    rwa [List.append_nil] at this
  rw [statementsOf, splitList_of_not_mem closed, List.map_singleton, empty]
  simp [Text.trimBytes, Text.dropEncodings]

/-- A phrase up to its semicolon is a statement. -/
lemma statementsOf_phrase {gs ps rest : List Piece} {bs : List UInt8} {ws : List Word}
    (h : Gaps gs) (lays : Lays ps bs) (phrase : Phrase bs ws) :
    statementsOf (gs ++ ps ++ .semicolon :: rest) = bs :: statementsOf rest := by
  have closed : Piece.semicolon ∉ gs ++ ps := by
    rw [List.mem_append, not_or]
    exact ⟨fun mem => (h _ mem).2 rfl, lays.closed⟩
  have laid : layout none false (gs ++ ps) = bs := by
    have := lays.laid none false [] nofun
    rw [layout_gaps h]
    simpa [layout] using this
  obtain ⟨b, hb, first⟩ := phrase.exists_head
  obtain ⟨c, hc, solid⟩ := phrase.exists_getLast
  have table : ∀ b : UInt8, isSolid b = true → 32 < b ∧ b < 128 := forall_byte (by decide)
  rw [statementsOf, splitList_append closed, List.map_cons, laid,
    Text.trimBytes_of_visible hb first hc (table c solid), List.filter_cons, if_pos]
  · rfl
  · simpa using phrase.ne_nil

/-! ### Chunks -/

/-- A line of a comment without its line feed. -/
def IsComment (line : List UInt8) : Prop :=
  (∃ rest, line = ascii '-' :: ascii '-' :: rest) ∧ ascii '\n' ∉ line

/-- A part of a script: a phrase with its semicolon, which is a statement, or some lines of
comments. -/
inductive Chunk : List UInt8 → Option (List UInt8) → Prop
  | statement {bs : List UInt8} {ws : List Word} (phrase : Phrase bs ws) :
      Chunk (bs ++ [ascii ';', ascii '\n']) (some bs)
  | comments {lines : List (List UInt8)} (all : ∀ line ∈ lines, IsComment line) :
      Chunk (lines.flatMap (· ++ [ascii '\n'])) none

/-- A line feed is a gap. -/
lemma pieces_lineFeed (before : Before) (rest : List UInt8) :
    pieces before (ascii '\n' :: rest) = .blank (ascii '\n') :: pieces .nothing rest :=
  pieces_blank (by decide) before rest

/-- A line of a comment is a gap. -/
lemma pieces_comment {line : List UInt8} (h : IsComment line) (rest : List UInt8) :
    pieces .nothing (line ++ ascii '\n' :: rest) =
      .comment line :: .blank (ascii '\n') :: pieces .nothing rest := by
  obtain ⟨⟨body, rfl⟩, noFeed⟩ := h
  have length : ((ascii '-' :: body ++ ascii '\n' :: rest).takeWhile (· != ascii '\n')).length =
      (ascii '-' :: body).length := by
    refine Word.length_takeWhile_append (fun b hb => ?_) ?_
    · rw [bne_iff_ne]
      rintro rfl
      exact noFeed (List.mem_cons_of_mem _ hb)
    · rintro _ ⟨⟩
      decide
  have piece : pieceAt .nothing (ascii '-') (ascii '-' :: body ++ ascii '\n' :: rest) =
      (.comment (ascii '-' :: (ascii '-' :: body ++ ascii '\n' :: rest).take (ascii '-' :: body).length),
        (ascii '-' :: body).length) := by
    rw [← length]
    rfl
  rw [List.cons_append, pieces, piece, List.take_left' rfl]
  dsimp only
  rw [List.drop_left' rfl]
  exact congrArg (_ :: ·) (pieces_lineFeed _ rest)

/-- Lines of comments are gaps. -/
lemma pieces_comments {lines : List (List UInt8)} (all : ∀ line ∈ lines, IsComment line)
    (rest : List UInt8) : ∃ gs, Gaps gs ∧
      pieces .nothing (lines.flatMap (· ++ [ascii '\n']) ++ rest) = gs ++ pieces .nothing rest := by
  induction lines with
  | nil => exact ⟨[], nofun, rfl⟩
  | cons line lines ih =>
    obtain ⟨gs, gaps, cut⟩ := ih fun l hl => all l (List.mem_cons_of_mem line hl)
    refine ⟨[.comment line] ++ ([.blank (ascii '\n')] ++ gs),
      (gaps_comment line).append ((gaps_blank _).append gaps), ?_⟩
    · rw [List.flatMap_cons, List.append_assoc, List.append_assoc, List.singleton_append,
        pieces_comment (all line List.mem_cons_self), cut]
      rfl

/-- The statements of a script of chunks are its phrases. -/
theorem normalize_of_chunks {chunks : List (List UInt8)} {texts : List (Option (List UInt8))}
    (h : List.Forall₂ Chunk chunks texts) : normalize chunks.flatten = texts.filterMap id := by
  -- gaps before a statement are carried along, since they belong to the statement that follows
  have carried : ∀ gs, Gaps gs →
      statementsOf (gs ++ pieces .nothing chunks.flatten) = texts.filterMap id := by
    induction h with
    | nil =>
      intro gs gaps
      rw [List.flatten_nil, pieces, List.append_nil]
      exact statementsOf_gaps gaps
    | @cons chunk text chunks texts first rest ih =>
      intro gs gaps
      rw [List.flatten_cons]
      cases first with
      | statement phrase =>
        obtain ⟨ps, lays, cut⟩ := phrase.exists_pieces
        rw [List.append_assoc, List.cons_append, List.singleton_append,
          cut _ (stops_cons (by decide) _), pieces_semicolon, pieces_lineFeed, ← List.append_assoc,
          statementsOf_phrase gaps lays phrase]
        exact congrArg (_ :: ·) (ih _ (gaps_blank _))
      | comments all =>
        obtain ⟨more, gaps', cut⟩ := pieces_comments all chunks.flatten
        rw [cut, ← List.append_assoc]
        exact ih _ (gaps.append gaps')
  exact carried [] (List.forall_mem_nil _)

end Script

namespace Text

lemma toList_join_cons {separator : String} {c : Char} (hs : separator.toList = [c]) (x y : String)
    (xs : List String) : (join separator (x :: y :: xs)).toList =
      x.toList ++ c :: (join separator (y :: xs)).toList := by
  rw [join, String.toList_append, String.toList_append, List.append_assoc, hs]
  rfl

lemma splitAt_of_not_mem {c : Char} {x : String} (h : c ∉ x.toList) : splitAt c x = [x] := by
  rw [splitAt, Script.splitList_of_not_mem h, List.map_singleton, String.ofList_toList]

/-- A text is cut where it was joined. -/
lemma splitAt_join {separator : String} {c : Char} (hs : separator.toList = [c]) {xs : List String}
    (ne : xs ≠ []) (h : ∀ x ∈ xs, c ∉ x.toList) : splitAt c (join separator xs) = xs := by
  induction xs with
  | nil => exact absurd rfl ne
  | cons x xs ih =>
    have first := h x List.mem_cons_self
    cases xs with
    | nil => exact splitAt_of_not_mem first
    | cons y ys =>
      have rest := ih (List.cons_ne_nil y ys) fun z hz => h z (List.mem_cons_of_mem x hz)
      rw [splitAt] at rest
      rw [splitAt, toList_join_cons hs, Script.splitList_append first, List.map_cons, rest,
        String.ofList_toList]

/-- A text whose first byte is one of ASCII starts with the character of that byte. -/
lemma exists_head_of_bytes {cs : List Char} {b : UInt8} (h : (encode cs).head? = some b) (small : b < 128) :
    ∃ c, cs.head? = some c ∧ c.toNat = b.toNat := by
  cases cs with
  | nil => cases h
  | cons c cs =>
    refine ⟨c, rfl, ?_⟩
    rw [encode_cons, List.head?_append] at h
    by_cases hc : c.toNat < 0x80
    · rw [utf8EncodeChar_of_lt hc] at h
      obtain rfl : ascii c = b := Option.some.inj h
      exact (toNat_ascii hc).symm
    · obtain ⟨x, xs, e⟩ := List.exists_cons_of_ne_nil (@String.utf8EncodeChar_ne_nil c)
      rw [e] at h
      obtain rfl : x = b := Option.some.inj h
      have := le_of_mem_utf8EncodeChar (Nat.le_of_not_lt hc) (e ▸ List.mem_cons_self : x ∈ _)
      exact absurd small (by simpa using this)

/-- A text whose last byte is one of ASCII ends with the character of that byte. -/
lemma exists_getLast_of_bytes {cs : List Char} {b : UInt8} (h : (encode cs).getLast? = some b)
    (small : b < 128) : ∃ c, cs.getLast? = some c ∧ c.toNat = b.toNat := by
  cases cs using List.reverseRecOn with
  | nil => cases h
  | append_singleton cs c =>
    refine ⟨c, List.getLast?_concat, ?_⟩
    have one : encode [c] = String.utf8EncodeChar c := by simp [encode]
    rw [encode_append, one, List.getLast?_append_of_ne_nil _ String.utf8EncodeChar_ne_nil] at h
    by_cases hc : c.toNat < 0x80
    · rw [utf8EncodeChar_of_lt hc] at h
      obtain rfl : ascii c = b := Option.some.inj h
      exact (toNat_ascii hc).symm
    · have := le_of_mem_utf8EncodeChar (Nat.le_of_not_lt hc) (List.mem_of_getLast? h)
      exact absurd small (by simpa using this)

/-- Nothing is taken off a list whose last element stays. -/
lemma dropWhileEnd_of_getLast {α : Type} {p : α → Bool} {xs : List α} {x : α}
    (h : xs.getLast? = some x) (hp : p x = false) : dropWhileEnd p xs = xs := by
  rw [← List.head?_reverse] at h
  rw [dropWhileEnd]
  cases hr : xs.reverse with
  | nil => rw [hr] at h; cases h
  | cons y ys =>
    rw [hr] at h
    obtain rfl : y = x := Option.some.inj h
    rw [List.dropWhile_cons, if_neg (by simp [hp]), ← hr, List.reverse_reverse]

/-- What stands up to an element that stays is not taken off the end. -/
lemma dropWhileEnd_append_cons {α : Type} {p : α → Bool} {y : α} (hp : p y = false) (xs zs : List α) :
    dropWhileEnd p (xs ++ y :: zs) = xs ++ y :: dropWhileEnd p zs := by
  rw [dropWhileEnd, dropWhileEnd, List.reverse_append, List.reverse_cons, List.append_assoc,
    List.dropWhile_append]
  split
  · next none =>
    rw [List.isEmpty_iff] at none
    rw [none, List.singleton_append, List.dropWhile_cons, if_neg (by simp [hp])]
    simp
  · simp

/-- What is taken off the end leaves only elements of the list. -/
lemma dropWhileEnd_subset {α : Type} (p : α → Bool) (xs : List α) : dropWhileEnd p xs ⊆ xs := by
  intro x hx
  rw [dropWhileEnd, List.mem_reverse] at hx
  exact List.mem_reverse.1 ((List.dropWhile_suffix p).subset hx)

end Text

namespace Ddl

open Script
open Text (ascii)

/-- A phrase starts with no white space and ends with nothing that is dropped at the end of a
statement. -/
lemma firm_ends_of_phrase {s : String} {ws : List Word} (h : Phrase (Text.bytes s) ws) :
    (∃ c, s.toList.head? = some c ∧ Text.isSpace c = false) ∧
      ∃ c, s.toList.getLast? = some c ∧ Text.isSpace c = false ∧ isTrailing c = false := by
  obtain ⟨b, hb, first⟩ := h.exists_head
  obtain ⟨c, hc, solid⟩ := h.exists_getLast
  have table : ∀ b : UInt8, isSolid b = true → 32 < b ∧ b < 128 ∧ b ≠ ascii ';' :=
    forall_byte (by decide)
  obtain ⟨d, hd, dn⟩ := Text.exists_head_of_bytes hb first.2
  obtain ⟨e, he, en⟩ := Text.exists_getLast_of_bytes hc (table c solid).2.1
  have visible {c : Char} {b : UInt8} (hn : c.toNat = b.toNat) (hb : 32 < b ∧ b < 128) :
      Text.isSpace c = false := by
    rw [UInt8.lt_iff_toNat_lt, UInt8.lt_iff_toNat_lt] at hb
    simp at hb
    have ne : c ≠ ' ' := by
      rintro rfl
      simp at hn
      omega
    rw [Text.isSpace, if_pos (by omega)]
    simp [ne]
    omega
  have space := visible en ⟨(table c solid).1, (table c solid).2.1⟩
  refine ⟨⟨d, hd, visible dn first⟩, e, he, space, ?_⟩
  have semicolon : e ≠ ';' := by
    rintro rfl
    exact (table c solid).2.2 (UInt8.toNat_inj.1 en.symm)
  have blank : e ≠ ' ' ∧ e ≠ '\t' ∧ e ≠ '\n' := by
    refine ⟨?_, ?_, ?_⟩ <;> (rintro rfl; revert space; decide)
  simp [isTrailing, semicolon, blank]

/-- A phrase keeps its ends when it is rendered. -/
lemma trimmed_of_phrase {s : String} {ws : List Word} (h : Phrase (Text.bytes s) ws) :
    Text.trimEndWhere isTrailing (Text.trim s) = s := by
  obtain ⟨⟨d, hd, first⟩, e, he, space, trailing⟩ := firm_ends_of_phrase h
  have front : s.toList.dropWhile Text.isSpace = s.toList := by
    cases hs : s.toList with
    | nil => rfl
    | cons x xs =>
      rw [hs] at hd
      obtain rfl : x = d := Option.some.inj hd
      rw [List.dropWhile_cons, if_neg (by simp [first])]
  rw [Text.trim, Text.trimChars, front, Text.dropWhileEnd_of_getLast he space, String.ofList_toList,
    Text.trimEndWhere, Text.dropWhileEnd_of_getLast he trailing, String.ofList_toList]

/-- A line cut out of a text has no line feed. -/
lemma not_mem_of_mem_splitList {α : Type} [BEq α] [LawfulBEq α] {separator : α} {xs part : List α}
    (h : part ∈ Text.splitList separator xs) : separator ∉ part := by
  induction xs generalizing part with
  | nil =>
    rw [Text.splitList, List.mem_singleton] at h
    simp [h]
  | cons x xs ih =>
    rw [Text.splitList] at h
    split at h
    · rcases List.mem_cons.1 h with rfl | h
      · simp
      · exact ih h
    · next ne =>
      have ne : separator ≠ x := fun e => ne (by simp [e])
      split at h
      · rw [List.mem_singleton.1 h]
        simpa using ne
      · next first more cut =>
        rw [cut] at ih
        rcases List.mem_cons.1 h with rfl | h
        · simp [ne, ih List.mem_cons_self]
        · exact ih (List.mem_cons_of_mem first h)

/-- The lines of a text have no line feed. -/
lemma not_mem_of_mem_lines {s line : String} (h : line ∈ Text.lines s) : '\n' ∉ line.toList := by
  obtain ⟨part, hp, rfl⟩ := List.mem_map.1 h
  rw [String.toList_ofList]
  exact not_mem_of_mem_splitList hp

/-- A text without line feed has no byte of a line feed. -/
lemma lineFeed_not_mem_bytes {s : String} (h : '\n' ∉ s.toList) : ascii '\n' ∉ Text.bytes s := by
  intro mem
  obtain ⟨c, hc, hb⟩ := List.mem_flatMap.1 mem
  rw [Text.eq_of_ascii_mem_utf8EncodeChar (by decide) hb] at hc
  exact h hc

/-- A commented line is a comment. -/
lemma isComment_commentLine {line : String} (h : '\n' ∉ line.toList) :
    IsComment (Text.bytes (commentLine line)) := by
  unfold commentLine
  split
  · next start =>
    rw [Text.startsWith, List.isPrefixOf_iff_prefix] at start
    obtain ⟨rest, e⟩ := start
    refine ⟨⟨Text.encode rest, ?_⟩, lineFeed_not_mem_bytes h⟩
    rw [Text.bytes, ← e, Text.encode_append]
    rfl
  · refine ⟨⟨ascii ' ' :: Text.bytes line, ?_⟩, ?_⟩
    · rw [Text.bytes_append]
      rfl
    · refine lineFeed_not_mem_bytes ?_
      rw [String.toList_append, List.mem_append, not_or]
      exact ⟨by decide, h⟩

/-- Lines that are joined and closed by line feeds. -/
lemma bytes_join_lineFeed {xs : List String} (ne : xs ≠ []) :
    Text.bytes (Text.join "\n" xs ++ "\n") = (xs.map Text.bytes).flatMap (· ++ [ascii '\n']) := by
  induction xs with
  | nil => exact absurd rfl ne
  | cons x xs ih =>
    cases xs with
    | nil =>
      rw [Text.join, Text.bytes_append]
      simp
      rfl
    | cons y ys =>
      rw [Text.join, String.append_assoc, Text.bytes_append, Text.bytes_append, ih (by simp),
        List.map_cons, List.flatMap_cons]
      rfl

/-- A cut list has at least one part. -/
lemma splitList_ne_nil {α : Type} [BEq α] (separator : α) (xs : List α) :
    Text.splitList separator xs ≠ [] := by
  cases xs with
  | nil => simp [Text.splitList]
  | cons x xs =>
    rw [Text.splitList]
    split
    · simp
    · split <;> simp

/-- A rendered statement is a chunk: a comment if it is disabled, and else a statement. -/
lemma chunk_of_terminated {s : String} {ws : List Word} (h : Phrase (Text.bytes s) ws)
    (disabled : Bool) : Chunk (Text.bytes (terminated s disabled ++ "\n"))
      (if disabled then none else some (Text.bytes s)) := by
  rw [terminated, trimmed_of_phrase h]
  cases disabled with
  | false =>
    have : Text.bytes (s ++ ";" ++ "\n") = Text.bytes s ++ [ascii ';', ascii '\n'] := by
      rw [Text.bytes_append, Text.bytes_append, List.append_assoc]
      rfl
    rw [if_neg (by decide), if_neg (by decide), this]
    exact .statement h
  | true =>
    have ne : (Text.lines (s ++ ";")).map commentLine ≠ [] := by
      rw [Text.lines, Text.splitAt, List.map_map, Ne, List.map_eq_nil_iff]
      exact splitList_ne_nil _ _
    rw [if_pos rfl, if_pos rfl, bytes_join_lineFeed ne]
    refine .comments fun line hl => ?_
    obtain ⟨x, hx, rfl⟩ := List.mem_map.1 hl
    obtain ⟨y, hy, rfl⟩ := List.mem_map.1 hx
    exact isComment_commentLine (not_mem_of_mem_lines hy)

/-- The bytes of texts one after another. -/
lemma bytes_join (xs : List String) : Text.bytes (String.join xs) = xs.flatMap Text.bytes := by
  rw [Text.bytes, String.toList_join, Text.encode, List.flatMap_assoc]
  rfl

/-- A line of the banner is a comment. -/
lemma isComment_bannerLine {line : String} (h : '\n' ∉ line.toList) :
    IsComment (Text.bytes (Text.trimEndWhere (· == ' ') ("-- " ++ line))) := by
  have start : ("-- " ++ line).toList = ['-'] ++ '-' :: ' ' :: line.toList := by
    rw [String.toList_append]
    rfl
  rw [Text.trimEndWhere, start, Text.dropWhileEnd_append_cons (by decide)]
  refine ⟨⟨Text.encode (Text.dropWhileEnd (· == ' ') (' ' :: line.toList)), ?_⟩,
    lineFeed_not_mem_bytes ?_⟩
  · rw [Text.bytes, String.toList_ofList]
    rfl
  rw [String.toList_ofList]
  intro mem
  have rest := Text.dropWhileEnd_subset _ _ ((List.mem_cons.1 ((List.mem_cons.1 mem).resolve_left
    (by decide))).resolve_left (by decide))
  exact h ((List.mem_cons.1 rest).resolve_left (by decide))

/-- The banner of a script is a comment. -/
lemma chunk_banner (header : String) : Chunk (Text.bytes (banner header)) none := by
  unfold banner
  split
  · exact @Chunk.comments [] nofun
  · have lines : Text.bytes (String.join
        ((Text.lines (Text.trimEndWhere (· == '\n') header)).map fun line =>
          Text.trimEndWhere (· == ' ') ("-- " ++ line) ++ "\n")) =
        ((Text.lines (Text.trimEndWhere (· == '\n') header)).map fun line =>
          Text.bytes (Text.trimEndWhere (· == ' ') ("-- " ++ line))).flatMap (· ++ [ascii '\n']) := by
      rw [bytes_join, List.flatMap_map, List.flatMap_map]
      simp only [Text.bytes_append]
      rfl
    rw [lines]
    refine .comments fun bs hb => ?_
    obtain ⟨line, hl, rfl⟩ := List.mem_map.1 hb
    exact isComment_bannerLine (not_mem_of_mem_lines hl)

/-- A script is its banner and its statements, each with a line feed. -/
lemma bytes_script (header : String) (rendered : List String) :
    Text.bytes (script header rendered) =
      (Text.bytes (banner header) :: rendered.map fun r => Text.bytes (r ++ "\n")).flatten := by
  rw [script, Text.bytes_append, bytes_join, List.flatten_cons, List.flatMap_map, List.flatMap_def]

end Ddl

end ErdSql
