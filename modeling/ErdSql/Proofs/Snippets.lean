import ErdSql.Diagnostic.Render
import ErdSql.Proofs.Coordinates

/-!
# Windows of lines

A file has one line more than it has line feeds, whatever its bytes are, and for each of its lines there is
a window that shows it. The bounds of a window are words, so a window may ask for any number of lines that
leads to a word.

* `Text.count_feed_ofBytes`: a file has as many line feeds as bytes that are one.
* `Snippet.Shows`: a window has lines of a file that stand together, and among them a given one.
* `Snippet.exists_shows`: every line of a file is shown, with any number of lines around it that fits.
* `Diagnostic.Style.exists_renderAll`: without lines around them, diagnostics are always shown.
-/

namespace ErdSql

namespace Text

/-- The first character of some bytes is encoded by the first ones. -/
lemma eq_append_of_firstChar? {bs : List UInt8} {c : Char} (h : firstChar? bs = some c) :
    bs = String.utf8EncodeChar c ++ bs.drop c.utf8Size := by
  obtain ⟨k, -, found⟩ := List.exists_of_findSome?_eq_some h
  split at found
  · next d read =>
    cases found
    have front : bs.take k = String.utf8EncodeChar c := by
      rw [← encode_of_decode? read, encode_cons]
      exact List.append_nil _
    have whole : bs = String.utf8EncodeChar c ++ bs.drop k := by rw [← front, List.take_append_drop]
    have size : c.utf8Size = (String.utf8EncodeChar c).length := (String.length_utf8EncodeChar c).symm
    conv_rhs => rw [whole, size, List.drop_left]
    exact whole
  · cases found

/-- A line feed is a character, whatever follows it. -/
lemma firstChar?_feed (bs : List UInt8) : firstChar? (ascii '\n' :: bs) = some '\n' := by
  have alone : decode? [ascii '\n'] = some ['\n'] := by decide +kernel
  rw [firstChar?, List.findSome?_cons]
  simp only [List.take_succ_cons, List.take_zero, alone]

lemma count_feed_decodeLossy (bs : List UInt8) :
    (decodeLossy bs).count '\n' = bs.count (ascii '\n') := by
  fun_induction decodeLossy bs with
  | case1 => rfl
  | case2 b rest c found ih =>
    have size : c.utf8Size = c.utf8Size - 1 + 1 := (Nat.sub_add_cancel c.utf8Size_pos).symm
    conv_rhs => rw [eq_append_of_firstChar? found, size, List.drop_succ_cons, List.count_append,
      count_feed_utf8EncodeChar, ← ih]
    rw [← List.count_append]
    rfl
  | case3 b rest none ih =>
    have other : b ≠ ascii '\n' := by
      rintro rfl
      rw [firstChar?_feed] at none
      cases none
    rw [List.count_cons_of_ne (by decide), List.count_cons_of_ne other, ih]

/-- A text has the line feeds of its bytes. -/
lemma count_feed_ofBytes (bs : List UInt8) : (ofBytes bs).toList.count '\n' = bs.count (ascii '\n') := by
  rw [ofBytes, String.toList_ofList]
  cases valid : decode? bs with
  | none => exact count_feed_decodeLossy bs
  | some cs =>
    rw [← encode_of_decode? valid, count_feed_encode]
    rfl

/-- There is one piece more than there are separators. -/
lemma length_splitList {α : Type} [BEq α] [LawfulBEq α] (separator : α) (xs : List α) :
    (splitList separator xs).length = xs.count separator + 1 := by
  fun_induction splitList separator xs with
  | case1 => rfl
  | case2 x xs found ih =>
    rw [eq_of_beq found, List.count_cons_self, List.length_cons, ih]
  | case3 x xs other none ih =>
    rw [none] at ih
    cases ih
  | case4 x xs other piece pieces split ih =>
    rw [split] at ih
    rw [List.count_cons_of_ne (by simpa using other), ← ih]
    rfl

end Text

namespace Snippet

lemma count_feed_dropReturns (cs : List Char) : (dropReturns cs).count '\n' = cs.count '\n' := by
  fun_induction dropReturns cs with
  | case1 => rfl
  | case2 c => rfl
  | case3 c d rest both ih =>
    have returned : c = '\r' := by
      rw [Bool.and_eq_true, beq_iff_eq] at both
      exact both.1
    have other : '\r' ≠ '\n' := by decide
    rw [ih, returned, List.count_cons_of_ne other]
  | case4 c d rest _ ih => rw [List.count_cons, List.count_cons, ih]

/-- A file has one line more than it has line feeds. -/
lemma length_fileLines (file : String) : (fileLines file).length = 1 + file.toList.count '\n' := by
  rw [fileLines, List.length_map, Text.length_splitList, count_feed_dropReturns, Nat.add_comm]

/-- A window has lines of a file that stand together, at most so many on either side of a line that is
among them, and points at a column of that line. -/
structure Shows (file : String) (line column : Int) (around : Nat) (window : Snippet) : Prop where
  part : ∃ before after, fileLines file = before ++ window.lines ++ after ∧
    window.startLine = before.length + 1
  starts : window.startLine ≤ line ∧ line ≤ window.startLine + around
  ends : line < window.startLine + window.lines.length ∧
    window.startLine + window.lines.length ≤ line + around + 1
  errorLine : window.errorLine = line
  errorColumn : window.errorColumn = column

/-- Every line of a file is shown, with any number of lines around it that leads to a word. -/
lemma exists_shows {file : String} {line : Int} (first : 1 ≤ line) (last : line ≤ (fileLines file).length)
    (column : Int) (around : Nat) (fits : line + around < 2 ^ 63) :
    ∃ window, extract file line column around = .ok window ∧ Shows file line column around window := by
  have inside : ¬(line < 1 || line > (fileLines file).length) = true := by simp; omega
  have low : Word.ofInt (line - around) = line - around := Word.ofInt_of_fits (by omega) (by omega)
  have high : Word.ofInt (line + around) = line + around := Word.ofInt_of_fits (by omega) (by omega)
  obtain ⟨k, start⟩ : ∃ k : Nat, max 1 (line - around) - 1 = k :=
    ⟨(max 1 (line - around) - 1).toNat, by omega⟩
  obtain ⟨m, stop⟩ : ∃ m : Nat, min ((fileLines file).length : Int) (line + around) = m :=
    ⟨(min ((fileLines file).length : Int) (line + around)).toNat, by omega⟩
  have extracted : extract file line column around =
      .ok ⟨((fileLines file).take m).drop k, k + 1, line, column⟩ := by
    rw [extract, if_neg inside]
    dsimp only
    rw [low, high, start, stop, if_neg (by omega), Int.toNat_natCast, Int.toNat_natCast]
  have size : (((fileLines file).take m).drop k).length = m - k := by
    rw [List.length_drop, List.length_take]
    omega
  refine ⟨_, extracted, ⟨((fileLines file).take m).take k, (fileLines file).drop m, ?_, ?_⟩, ?_, ?_, rfl, rfl⟩
  · rw [List.take_append_drop, List.take_append_drop]
  · rw [List.length_take, List.length_take]
    dsimp only
    omega
  · dsimp only
    omega
  · dsimp only
    rw [size]
    omega

end Snippet

namespace Diagnostic.Style

variable {style : Style} (alone : style.contextLines = 0)
  (sized : ∀ source ∈ style.sources, (Snippet.fileLines source.2).length < 2 ^ 63)
include alone sized

lemma exists_snippet (d : Diagnostic) : ∃ text, style.snippet d = .ok text := by
  rw [snippet]
  cases found : style.sources.lookup d.location.path with
  | none => exact ⟨_, rfl⟩
  | some file =>
    dsimp only
    split
    · by_cases inside : 1 ≤ d.location.line ∧ d.location.line ≤ (Snippet.fileLines file).length
      · obtain ⟨first, last⟩ := inside
        obtain ⟨before, after, split, -⟩ := List.lookup_eq_some_iff.1 found
        have short : (Snippet.fileLines file).length < 2 ^ 63 :=
          sized (d.location.path, file) (by simp [split])
        obtain ⟨window, extracted, -⟩ := Snippet.exists_shows first last d.location.column 0 (by omega)
        rw [alone, ← Int.natCast_zero, extracted]
        exact ⟨_, rfl⟩
      · have outside : (d.location.line < 1 || d.location.line > (Snippet.fileLines file).length) = true := by
          simp
          omega
        rw [Snippet.extract, if_pos outside]
        exact ⟨_, rfl⟩
    · exact ⟨_, rfl⟩

/-- Without lines around them, diagnostics are always shown. -/
lemma exists_renderAll (ds : List Diagnostic) : ∃ text, style.renderAll ds = .ok text := by
  obtain ⟨texts, rendered⟩ : ∃ texts, ds.mapM style.render = .ok texts := by
    induction ds with
    | nil => exact ⟨[], rfl⟩
    | cons d ds ih =>
      obtain ⟨shown, snippet⟩ := exists_snippet alone sized d
      obtain ⟨texts, rendered⟩ := ih
      rw [List.mapM_cons, render, snippet, rendered]
      exact ⟨_, rfl⟩
  exact ⟨String.join texts, by rw [renderAll, rendered]; rfl⟩

end Diagnostic.Style

end ErdSql
