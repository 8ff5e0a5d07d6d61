import ErdSql.Proofs.Boundaries
import ErdSql.Proofs.Resumption
import ErdSql.Proofs.Snippets

/-!
# Carets

A window prints the line of its place and below it a caret. Columns count characters, but the caret is
moved in byte by byte, with a tab for each byte that is one. So there are as many blanks as characters in
front of the column, and the tabs among them are in their places exactly if none of them stands behind a
character of several bytes.

* `Text.LeadsTo`: the place of a text that a line and a column lead to.
* `Scan.exists_split_of_reports`: what a scan reports stands on a character of its line, or at the end.
* `Snippet.exists_getElem?_fileLines`: the line of such a place, as a window shows it.
* `Snippet.blanks_eq_iff`: the blanks made from bytes are those made from characters.
* `Snippet.caret_under_column_iff`: what is printed for a place that a scan reports.
-/

namespace ErdSql

/-! ### Places of a text -/

namespace Text

/-- A line and a column lead to a place of a text: behind some lines, and on its line behind some
characters. -/
structure LeadsTo (cs : List Char) (line column : Nat) (above front after : List Char) : Prop where
  whole : cs = above ++ front ++ after
  lines : Scan.EndsLine above
  noFeed : '\n' ∉ front
  line : line = 1 + above.count '\n'
  column : column = 1 + front.length

/-- The place behind some characters, by its line and column. -/
lemma exists_leadsTo (before after : List Char) : ∃ above front,
    LeadsTo (before ++ after) (Position.start.advanceBy before).line
      (Position.start.advanceBy before).column above front after := by
  let back := before.reverse.takeWhile (· != '\n')
  let up := before.reverse.dropWhile (· != '\n')
  have cut : before = up.reverse ++ back.reverse := by
    rw [← List.reverse_append, List.takeWhile_append_dropWhile, List.reverse_reverse]
  have noFeed : '\n' ∉ back.reverse := by
    rw [List.mem_reverse]
    intro mem
    simpa using List.mem_takeWhile_imp mem
  refine ⟨up.reverse, back.reverse, by rw [← cut], fun c hc => ?_, noFeed, ?_, ?_⟩
  · have first := List.head?_dropWhile_not (· != '\n') before.reverse
    rw [List.getLast?_reverse] at hc
    rw [Option.mem_def.1 hc] at first
    simpa using first
  · rw [Position.line_advanceBy]
    conv_lhs => rw [cut, List.count_append, List.count_eq_zero.2 noFeed]
    rfl
  · rw [Position.column_start_advanceBy, List.length_reverse]

end Text

/-! ### What a scan reports -/

namespace Scan

/-- A line and a column at which a scan has a token or a fault. -/
def Reports (scan : Scan) (line column : Nat) : Prop :=
  (∃ t ∈ scan.tokens, t.line = line ∧ t.column = column) ∨
    ∃ e ∈ scan.errors, e.line = line ∧ e.column = column

/-- A fault stands on a character of its line. -/
lemma ne_feed_of_fault {opens : Bool} {c : Char} {cs : List Char} {fault : ScanFault} {before more : Nat}
    (h : step opens c cs = .fault fault before more) : (c :: cs)[before]? ≠ some '\n' := by
  intro feed
  obtain ⟨-, rfl, -⟩ | ⟨-, le, noFeed, -⟩ := resume_of_step h
  · obtain rfl : c = '\n' := Option.some.inj feed
    cases h
  · refine noFeed (List.mem_of_getElem? (i := 0) ?_)
    rw [List.getElem?_drop, Nat.add_zero, ← List.take_succ_cons, List.getElem?_take,
      if_pos (Nat.lt_succ_of_le le)]
    exact feed

/-- What is reported stands on a character of its line, or at the end of the text. -/
lemma exists_split_of_reports (opens : Bool) (front cs : List Char) {line column : Nat}
    (h : (scanFrom opens (Position.start.advanceBy front) cs).Reports line column) :
    ∃ before after, front ++ cs = before ++ after ∧ after.head? ≠ some '\n' ∧
      line = (Position.start.advanceBy before).line ∧
      column = (Position.start.advanceBy before).column := by
  generalize place : Position.start.advanceBy front = p at h
  -- what a step takes goes to the front
  have whole (front : List Char) (c : Char) (cs : List Char) (more : Nat) :
      front ++ c :: cs = front ++ c :: cs.take more ++ cs.drop more := by
    rw [List.append_assoc, List.cons_append, List.take_append_drop]
  fun_induction scanFrom opens p cs generalizing front with
  | case1 opens p =>
    obtain ⟨t, ht, rfl, rfl⟩ | ⟨e, he, -⟩ := h
    · subst place
      rw [List.mem_singleton.1 ht]
      exact ⟨front, [], rfl, by simp, rfl, rfl⟩
    · cases he
  | case2 opens p c cs more _ ih =>
    subst place
    rw [whole front c cs more]
    exact ih _ (Position.advanceBy_append ..) h
  | case3 opens p c cs kind spelling more found next token rest ih =>
    subst place
    have later := ih _ (Position.advanceBy_append ..)
    rw [← whole front c cs more] at later
    obtain ⟨t, ht, rfl, rfl⟩ | fault := h
    · obtain rfl | ht := List.mem_cons.1 ht
      · refine ⟨front, c :: cs, rfl, ?_, rfl, rfl⟩
        rintro ⟨⟩
        exact absurd ((solid_of_step found).first '\n' rfl) (by decide)
      · exact later (.inl ⟨t, ht, rfl, rfl⟩)
    · exact later (.inr fault)
  | case4 opens p c cs fault before more found here rest ih =>
    subst place
    have later := ih _ (Position.advanceBy_append ..)
    rw [← whole front c cs more] at later
    obtain token | ⟨e, he, rfl, rfl⟩ := h
    · exact later (.inl token)
    · obtain rfl | he := List.mem_cons.1 he
      · refine ⟨front ++ (c :: cs).take before, (c :: cs).drop before, ?_, ?_, ?_, ?_⟩
        · rw [List.append_assoc, List.take_append_drop]
        · rw [List.head?_drop]
          exact ne_feed_of_fault found
        · rw [Position.advanceBy_append]
        · rw [Position.advanceBy_append]
      · exact later (.inr ⟨e, he, rfl, rfl⟩)

end Scan

/-! ### The line of a place -/

namespace Text

/-- Behind lines that end starts a line of its own. -/
lemma getElem?_splitList {above : List Char} (line : Scan.EndsLine above) (cs : List Char) :
    (splitList '\n' (above ++ cs))[above.count '\n']? = (splitList '\n' cs).head? := by
  obtain rfl | ⟨up, c, rfl⟩ := above.eq_nil_or_concat'
  · rw [List.nil_append, List.count_nil, List.head?_eq_getElem?]
  · obtain rfl : c = '\n' := line c List.getLast?_concat
    have length : (up ++ ['\n']).count '\n' = (splitList '\n' up).length := by
      rw [List.count_append, length_splitList]
      rfl
    rw [List.append_assoc, List.singleton_append, Script.splitList_append_cons, length,
      List.getElem?_append_right le_rfl, Nat.sub_self, List.head?_eq_getElem?]

/-- Characters without a line feed stand in front of the first piece. -/
lemma exists_splitList_append {xs : List Char} (noFeed : '\n' ∉ xs) (ys : List Char) :
    ∃ more pieces, splitList '\n' (xs ++ ys) = (xs ++ more) :: pieces := by
  induction xs with
  | nil =>
    obtain ⟨piece, pieces, split⟩ : ∃ piece pieces, splitList '\n' ys = piece :: pieces :=
      List.exists_cons_of_length_pos (by simp [length_splitList])
    exact ⟨piece, pieces, split⟩
  | cons c cs ih =>
    rw [List.mem_cons, not_or] at noFeed
    obtain ⟨more, pieces, split⟩ := ih noFeed.2
    refine ⟨more, pieces, ?_⟩
    rw [List.cons_append, splitList, if_neg (by simpa using Ne.symm noFeed.1), split]
    rfl

end Text

namespace Snippet

lemma dropReturns_append {xs : List Char} (line : Scan.EndsLine xs) (ys : List Char) :
    dropReturns (xs ++ ys) = dropReturns xs ++ dropReturns ys := by
  fun_induction dropReturns xs with
  | case1 => rfl
  | case2 c =>
    obtain rfl : c = '\n' := line c rfl
    cases ys with
    | nil => rfl
    | cons d ds =>
      rw [List.singleton_append, dropReturns, if_neg (by simp)]
      rfl
  | case3 c d rest both ih =>
    rw [List.cons_append, List.cons_append, dropReturns, if_pos both, ← List.cons_append, ih line.tail]
  | case4 c d rest other ih =>
    rw [List.cons_append, List.cons_append, dropReturns, if_neg other, ← List.cons_append, ih line.tail]
    rfl

lemma getLast?_dropReturns (cs : List Char) : (dropReturns cs).getLast? = cs.getLast? := by
  fun_induction dropReturns cs with
  | case1 => rfl
  | case2 c => rfl
  | case3 c d rest _ ih => rw [ih, List.getLast?_cons_cons]
  | case4 c d rest _ ih => rw [List.getLast?_cons, ih, ← List.getLast?_cons]

lemma dropReturns_cons {c : Char} {cs : List Char} (next : cs.head? ≠ some '\n') :
    dropReturns (c :: cs) = c :: dropReturns cs := by
  cases cs with
  | nil => rfl
  | cons d ds =>
    have other : d ≠ '\n' := fun h => next (congrArg some h)
    rw [dropReturns, if_neg (by simp [other])]

/-- In front of a place that is not the end of a line nothing is left out. -/
lemma dropReturns_of_front {front after : List Char} (noFeed : '\n' ∉ front)
    (next : after.head? ≠ some '\n') : dropReturns (front ++ after) = front ++ dropReturns after := by
  induction front with
  | nil => rfl
  | cons c cs ih =>
    rw [List.mem_cons, not_or] at noFeed
    have next' : (cs ++ after).head? ≠ some '\n' := by
      cases cs with
      | nil => exact next
      | cons d ds => exact fun h => noFeed.2 (Option.some.inj h ▸ List.mem_cons_self)
    rw [List.cons_append, dropReturns_cons next', ih noFeed.2, List.cons_append]

/-- The line of a place that is not its end. -/
lemma exists_getElem?_fileLines {cs above front after : List Char} {line column : Nat}
    (place : Text.LeadsTo cs line column above front after) (next : after.head? ≠ some '\n') :
    ∃ more, (fileLines (String.ofList cs))[line - 1]? = some (String.ofList (front ++ more)) := by
  obtain ⟨more, pieces, split⟩ := Text.exists_splitList_append place.noFeed (dropReturns after)
  have ends : Scan.EndsLine (dropReturns above) := fun c hc =>
    place.lines c (getLast?_dropReturns above ▸ hc)
  have index : line - 1 = (dropReturns above).count '\n' := by
    rw [place.line, Nat.add_sub_cancel_left, count_feed_dropReturns]
  refine ⟨more, ?_⟩
  rw [fileLines, String.toList_ofList, List.getElem?_map, place.whole, List.append_assoc,
    dropReturns_append place.lines, dropReturns_of_front place.noFeed next, index,
    Text.getElem?_splitList ends, split]
  rfl

/-! ### Blanks -/

/-- What stands in front of the caret for a character. -/
def blank (c : Char) : Char :=
  if c == '\t' then '\t' else ' '

/-- What stands in front of the caret for a byte. -/
def byteBlank (b : UInt8) : Char :=
  if b == 9 then '\t' else ' '

lemma byteBlank_eq_tab {b : UInt8} : byteBlank b = '\t' ↔ b = Text.ascii '\t' := by
  have tab : Text.ascii '\t' = 9 := by decide
  rw [byteBlank, tab]
  split <;> simp_all

lemma byteBlank_ascii {c : Char} (plain : c.toNat < 0x80) : byteBlank (Text.ascii c) = blank c := by
  have tab : Text.ascii c = 9 ↔ c = '\t' := Text.ascii_inj (d := '\t') plain (by decide)
  simp [byteBlank, blank, tab]

lemma tab_mem_map_blank {cs : List Char} : '\t' ∈ cs.map blank ↔ '\t' ∈ cs := by
  have tab (c : Char) : blank c = '\t' ↔ c = '\t' := by
    rw [blank]
    split <;> simp_all
  simp [tab]

lemma tab_mem_encode {cs : List Char} : Text.ascii '\t' ∈ Text.encode cs ↔ '\t' ∈ cs := by
  rw [Text.encode, List.mem_flatMap]
  constructor
  · rintro ⟨c, mem, tab⟩
    rwa [← Text.eq_of_ascii_mem_utf8EncodeChar (q := '\t') (by decide) tab]
  · exact fun mem => ⟨'\t', mem, by decide⟩

lemma length_le_encode (cs : List Char) : cs.length ≤ (Text.encode cs).length := by
  induction cs with
  | nil => exact Nat.zero_le _
  | cons c cs ih =>
    have first := c.utf8Size_pos
    rw [Text.encode_cons, List.length_append, String.length_utf8EncodeChar, List.length_cons]
    omega

lemma two_le_utf8Size {c : Char} (beyond : ¬ c.toNat < 0x80) : 2 ≤ c.utf8Size := by
  have other : c.utf8Size ≠ 1 := by
    rw [Ne, Char.utf8Size_eq_one_iff, UInt32.le_iff_toNat_le]
    have := c.toNat_val
    simp
    omega
  have := c.utf8Size_pos
  omega

/-- Where there is no tab, all blanks are spaces. -/
lemma blanks_of_not_mem {cs : List Char} (none : '\t' ∉ cs) :
    ((Text.encode cs).take cs.length).map byteBlank = cs.map blank := by
  have chars : cs.map blank = List.replicate cs.length ' ' := by
    refine List.map_eq_replicate_iff.2 fun c hc => ?_
    have other : c ≠ '\t' := fun tab => none (tab ▸ hc)
    simp [blank, other]
  have length : ((Text.encode cs).take cs.length).length = cs.length :=
    List.length_take_of_le (length_le_encode cs)
  have bytes : ((Text.encode cs).take cs.length).map byteBlank =
      List.replicate ((Text.encode cs).take cs.length).length ' ' := by
    refine List.map_eq_replicate_iff.2 fun b hb => ?_
    have other : b ≠ 9 := by
      rintro rfl
      exact none (tab_mem_encode.1 (List.mem_of_mem_take hb))
    simp [byteBlank, other]
  rw [bytes, length, chars]

/-- Behind a character of several bytes the blanks made from bytes are those made from characters exactly if
there is no tab. -/
lemma blanks_eq_iff_of_beyond {c : Char} (beyond : ¬ c.toNat < 0x80) (cs : List Char) :
    ((Text.encode (c :: cs)).take (cs.length + 1)).map byteBlank = (c :: cs).map blank ↔ '\t' ∉ cs := by
  have noTab : '\t' ≠ c := by
    rintro rfl
    exact beyond (by decide)
  constructor
  · intro same mem
    obtain ⟨near, far, rfl, none⟩ := List.eq_append_cons_of_mem mem
    -- the blank for the first tab is made from a byte of a character in front of it
    have long : near.length + 2 ≤ (Text.encode (c :: near)).length := by
      have first := two_le_utf8Size beyond
      have more := length_le_encode near
      rw [Text.encode_cons, List.length_append, String.length_utf8EncodeChar]
      omega
    have front := congrArg (List.take (near.length + 2)) same
    rw [← List.map_take, List.take_take, ← List.map_take, ← List.cons_append, Text.encode_append,
      Nat.min_eq_left (by rw [List.length_append, List.length_cons]; omega),
      List.take_append_of_le_length long] at front
    have tab : '\t' ∈ ((c :: near ++ '\t' :: far).take (near.length + 2)).map blank := by
      rw [tab_mem_map_blank, List.take_append, List.mem_append]
      right
      simp
    rw [← front, List.mem_map] at tab
    obtain ⟨b, hb, tab⟩ := tab
    rw [byteBlank_eq_tab] at tab
    have inside := tab_mem_encode.1 (tab ▸ List.mem_of_mem_take hb)
    rcases List.mem_cons.1 inside with here | there
    · exact noTab here
    · exact none there
  · intro none
    have chars : '\t' ∉ c :: cs := by
      rw [List.mem_cons, not_or]
      exact ⟨noTab, none⟩
    exact blanks_of_not_mem chars

/-- The blanks made from bytes are those made from characters exactly if no tab stands behind a character of
several bytes. -/
lemma blanks_eq_iff (cs : List Char) :
    ((Text.encode cs).take cs.length).map byteBlank = cs.map blank ↔
      cs.Pairwise fun c d => d = '\t' → c.toNat < 0x80 := by
  induction cs with
  | nil => exact iff_of_true rfl .nil
  | cons c cs ih =>
    rw [List.pairwise_cons, ← ih, List.length_cons]
    by_cases plain : c.toNat < 0x80
    · rw [Text.encode_cons, Text.utf8EncodeChar_of_lt plain, List.singleton_append, List.take_succ_cons,
        List.map_cons, List.map_cons, byteBlank_ascii plain, List.cons_inj_right]
      exact (and_iff_right fun _ _ _ => plain).symm
    · rw [blanks_eq_iff_of_beyond plain]
      constructor
      · exact fun none => ⟨fun d mem tab => absurd (tab ▸ mem) none, blanks_of_not_mem none⟩
      · exact fun h mem => plain (h.1 '\t' mem rfl)

/-! ### What is printed -/

/-- What stands in front of the line of a place: a mark, its number and a bar. -/
def label (s : Snippet) : String :=
  ">" ++ " " ++ Text.padLeft (toString (s.startLine + s.lines.length - 1)).length (toString s.errorLine) ++
    " | "

/-- The line of a place, and below it a caret that is moved in. -/
def marked (label text indent : String) : String :=
  label ++ text ++ "\n" ++ Text.replicate label.length ' ' ++ indent ++ "^\n"

lemma length_toString_mono {m n : Nat} (le : m ≤ n) :
    (toString (m : Int)).length ≤ (toString (n : Int)).length := by
  have digits (k : Nat) : toString (k : Int) = k.repr := rfl
  have some : 0 < n.repr.length := by
    rw [Nat.repr_eq_ofList_toDigits, String.length_ofList]
    exact Nat.length_toDigits_pos
  rw [digits, digits, Nat.length_repr_le_iff some]
  exact lt_of_le_of_lt le ((Nat.length_repr_le_iff some).1 le_rfl)

/-- The numbers of the lines stand in a column. -/
lemma length_label {s : Snippet} (first : 0 ≤ s.errorLine)
    (last : s.errorLine ≤ s.startLine + s.lines.length - 1) :
    s.label.length = (toString (s.startLine + s.lines.length - 1)).length + 5 := by
  obtain ⟨m, number⟩ := Int.eq_ofNat_of_zero_le first
  obtain ⟨n, greatest⟩ := Int.eq_ofNat_of_zero_le (first.trans last)
  have le : m ≤ n := by omega
  have width := length_toString_mono le
  rw [label, greatest, number, Text.padLeft, Text.replicate]
  simp only [String.length_append, String.length_ofList, List.length_replicate]
  rw [Nat.sub_add_cancel width]
  have mark : ">".length + " ".length = 2 := rfl
  have bar : " | ".length = 3 := rfl
  omega

lemma getLast?_renderLine (s : Snippet) (width : Nat) (number : Int) (line : String) :
    (renderLine s width number line).toList.getLast? = some '\n' := by
  rw [renderLine]
  split <;>
  · rw [String.toList_append, List.getLast?_append]
    rfl

/-- A window shows the line of its place with the caret below it, between the other lines. -/
lemma exists_render {s : Snippet} {i : Nat} {text : String} (shown : s.lines[i]? = some text)
    (number : s.startLine + i = s.errorLine) (first : 1 ≤ s.startLine) (column : 1 ≤ s.errorColumn) :
    ∃ before behind, s.render = before ++ marked s.label text (caretIndent text s.errorColumn) ++ behind ∧
      Scan.EndsLine before.toList := by
  obtain ⟨lt, at_⟩ := List.getElem?_eq_some_iff.1 shown
  let width := (toString (s.startLine + s.lines.length - 1)).length
  let print (i : Nat) (line : String) := renderLine s width (s.startLine + i) line
  have split : s.lines = s.lines.take i ++ text :: s.lines.drop (i + 1) := by
    rw [← at_, ← List.drop_eq_getElem_cons lt, List.take_append_drop]
  have here : print i text = marked s.label text (caretIndent text s.errorColumn) := by
    have gutter : s.label.length = width + 5 := length_label (by omega) (by omega)
    rw [marked, gutter]
    simp only [print, renderLine, number, beq_self_eq_true, Bool.true_and, decide_eq_true column, if_true]
    rfl
  refine ⟨String.join ((s.lines.take i).mapIdx print),
    String.join ((s.lines.drop (i + 1)).mapIdx fun j => print (j + 1 + i)), ?_, fun c hc => ?_⟩
  · have length : (s.lines.take i).length = i := List.length_take_of_le lt.le
    change String.join (s.lines.mapIdx print) = _
    conv_lhs => rw [split]
    rw [List.mapIdx_append, String.join_append, length, List.mapIdx_cons, String.join_cons, Nat.zero_add, here,
      ← String.append_assoc]
  · -- the last of the lines above ends
    rw [String.toList_join, List.getLast?_flatMap] at hc
    obtain ⟨line, mem, last⟩ := List.exists_of_findSome?_eq_some hc
    obtain ⟨j, inside, rfl⟩ := List.mem_mapIdx.1 (List.mem_reverse.1 mem)
    rw [getLast?_renderLine] at last
    exact (Option.some.inj last).symm

/-- What stands in front of the caret on a line: as many blanks as characters, in the places of the tabs
exactly if none of them stands behind a character of several bytes. -/
lemma exists_caretIndent (front more : List Char) : ∃ indent,
    caretIndent (String.ofList (front ++ more)) (1 + front.length : Nat) = String.ofList indent ∧
      indent.length = front.length ∧
      (indent = front.map blank ↔ front.Pairwise fun c d => d = '\t' → c.toNat < 0x80) := by
  refine ⟨((Text.encode front).take front.length).map byteBlank, ?_, ?_, blanks_eq_iff front⟩
  · have columns : ((1 + front.length : Nat) - 1 : Int).toNat = front.length := by omega
    rw [caretIndent, Text.bytes_ofList, Text.encode_append, columns,
      List.take_append_of_le_length (length_le_encode front)]
    rfl
  · rw [List.length_map, List.length_take, Nat.min_eq_left (length_le_encode front)]

/-- **A caret under a column.** Whatever a scan of a document in UTF-8 reports, and however many lines around
it are asked for, up to the largest word, there is a window, and it prints the line of the place with a caret
below. Between the gutter and the caret stands one blank for each character of the line in front of the
column, and these are tabs where the line has tabs, and spaces elsewhere, if and only if no tab in front of
the column stands behind a character beyond ASCII. -/
theorem caret_under_column_iff {src : List UInt8} {cs : List Char} (valid : Text.decode? src = some cs)
    {line column : Nat} (reported : (Scan.ofBytes src).Reports line column) (around : Nat)
    (fits : line + around < 2 ^ 63) :
    ∃ window, extract (Text.ofBytes src) line column around = .ok window ∧
      ∃ above front after, Text.LeadsTo cs line column above front after ∧
        ∃ before more indent behind,
          (fileLines (Text.ofBytes src))[line - 1]? = some (String.ofList (front ++ more)) ∧
          window.render = before ++
            marked window.label (String.ofList (front ++ more)) (String.ofList indent) ++ behind ∧
          Scan.EndsLine before.toList ∧ indent.length = front.length ∧
          (indent = front.map blank ↔ front.Pairwise fun c d => d = '\t' → c.toNat < 0x80) := by
  have text : Text.ofBytes src = String.ofList cs := by
    rw [Text.ofBytes, valid]
    rfl
  rw [Scan.ofBytes, valid] at reported
  obtain ⟨upper, after, whole, next, rfl, rfl⟩ := Scan.exists_split_of_reports false [] cs reported
  rw [List.nil_append] at whole
  subst whole
  obtain ⟨above, front, place⟩ := Text.exists_leadsTo upper after
  rw [text]
  generalize (Position.start.advanceBy upper).line = line at place fits ⊢
  generalize (Position.start.advanceBy upper).column = column at place ⊢
  obtain ⟨more, shown⟩ := exists_getElem?_fileLines place next
  obtain ⟨lt, at_⟩ := List.getElem?_eq_some_iff.1 shown
  have first : 1 ≤ line := place.line ▸ Nat.le_add_right ..
  obtain ⟨window, extracted, shows⟩ : ∃ window,
      extract (String.ofList (upper ++ after)) line column around = .ok window ∧
        Shows (String.ofList (upper ++ after)) line column around window :=
    exists_shows (by omega) (by omega) column around (by exact_mod_cast fits)
  obtain ⟨lower, higher, part, start⟩ := shows.part
  have bounds := shows.starts
  have ends := shows.ends
  -- the line of the place among those of the window
  have inside : window.lines[line - 1 - lower.length]? = some (String.ofList (front ++ more)) := by
    rw [part, List.append_assoc, List.getElem?_append_right (by omega),
      List.getElem?_append_left (by omega)] at shown
    exact shown
  have number : window.startLine + (line - 1 - lower.length : Nat) = window.errorLine := by
    rw [shows.errorLine]
    omega
  obtain ⟨before, behind, printed, lines⟩ := exists_render inside number (by omega)
    (by rw [shows.errorColumn, place.column]; omega)
  obtain ⟨indent, blanks, length, tabs⟩ := exists_caretIndent front more
  rw [shows.errorColumn, place.column, blanks] at printed
  exact ⟨window, extracted, above, front, after, place, before, more, indent, behind, shown, printed, lines,
    length, tabs⟩

/-- A tab behind a character of ASCII is in its place. -/
theorem caret_under_column_iff_of_tab :
    Text.decode? (Text.bytes "a\tb") = some "a\tb".toList ∧ (Scan.ofBytes (Text.bytes "a\tb")).Reports 1 3 ∧
      1 + 2 < 2 ^ 63 ∧ ∃ window, extract (Text.ofBytes (Text.bytes "a\tb")) 1 3 2 = .ok window ∧
        ∃ above front after, Text.LeadsTo "a\tb".toList 1 3 above front after ∧
          ∃ before more indent behind,
            (fileLines (Text.ofBytes (Text.bytes "a\tb")))[0]? = some (String.ofList (front ++ more)) ∧
            window.render = before ++
              marked window.label (String.ofList (front ++ more)) (String.ofList indent) ++ behind ∧
            Scan.EndsLine before.toList ∧ indent.length = front.length ∧
            (indent = front.map blank ↔ front.Pairwise fun c d => d = '\t' → c.toNat < 0x80) := by
  have reported : (Scan.ofBytes (Text.bytes "a\tb")).Reports 1 3 := by
    rw [Scan.Reports, Scan.ofBytes_bytes]
    decide +kernel
  have fits : 1 + 2 < 2 ^ 63 := by decide
  exact ⟨Text.decode?_bytes _, reported, fits, caret_under_column_iff (Text.decode?_bytes _) reported 2 fits⟩

/-- A tab behind a character of two bytes is missing, so the caret is not under the column. -/
theorem caret_beside_column :
    (Scan.ofBytes (Text.bytes "'é'\tx")).Reports 1 5 ∧
      Text.LeadsTo "'é'\tx".toList 1 5 [] ['\'', 'é', '\'', '\t'] ['x'] ∧
      ∃ window, extract (Text.ofBytes (Text.bytes "'é'\tx")) 1 5 0 = .ok window ∧
        window.render = marked "> 1 | " "'é'\tx" "    " ∧
        ['\'', 'é', '\'', '\t'].map blank = [' ', ' ', ' ', '\t'] := by
  have reported : (Scan.ofBytes (Text.bytes "'é'\tx")).Reports 1 5 := by
    rw [Scan.Reports, Scan.ofBytes_bytes]
    decide +kernel
  have text : Text.ofBytes (Text.bytes "'é'\tx") = "'é'\tx" := by
    rw [Text.ofBytes, Text.decode?_bytes]
    rfl
  have above : Scan.EndsLine [] := fun _ last => by cases last
  refine ⟨reported, ⟨by decide, above, by decide, rfl, rfl⟩, ⟨["'é'\tx"], 1, 1, 5⟩, ?_, ?_, by decide⟩
  · rw [text]
    decide +kernel
  · decide +kernel

end Snippet

end ErdSql
