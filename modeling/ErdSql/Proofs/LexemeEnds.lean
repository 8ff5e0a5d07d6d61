import ErdSql.Proofs.Extents

/-!
# Where lexemes end

A name, a number, a string or a list ends on the line that it starts on, and an expression ends with a
bracket. So in a text that ends with a line, a lexeme ends in front of the end of a line, and the scanner
finds its end without a look behind the text.

* `Scan.EndsLine`: a text that ends with a line.
* `Scan.exprEnd_append`: the end of an expression does not depend on what stands behind the text.
* `Scan.feed_mem_drop_exprEnd`: behind an expression, its line ends.
-/

namespace ErdSql

namespace Scan

/-- A text that ends with a line, or has none. -/
def EndsLine (cs : List Char) : Prop :=
  ∀ c ∈ cs.getLast?, c = '\n'

namespace EndsLine

variable {c : Char} {cs : List Char}

lemma of_getLast? (h : cs.getLast? = some '\n') : EndsLine cs := by
  intro c hc
  rw [h, Option.mem_some_iff] at hc
  exact hc.symm

lemma drop (h : EndsLine cs) (n : Nat) : EndsLine (cs.drop n) := by
  intro d hd
  rw [List.getLast?_drop] at hd
  split at hd
  · cases hd
  · exact h d hd

lemma tail (h : EndsLine (c :: cs)) : EndsLine cs :=
  h.drop 1

lemma feed_mem_of_ne_nil (h : EndsLine cs) (ne : cs ≠ []) : '\n' ∈ cs := by
  rw [← h _ (List.getLast?_eq_some_getLast ne)]
  exact List.getLast_mem ne

/-- Behind a character that does not end a line there is the end of one. -/
lemma feed_mem (h : EndsLine (c :: cs)) (ne : c ≠ '\n') : '\n' ∈ cs :=
  (List.mem_cons.1 (h.feed_mem_of_ne_nil (List.cons_ne_nil _ _))).resolve_left (Ne.symm ne)

end EndsLine

/-! ### Lexemes end on their line -/

lemma feed_mem_drop_cons {n m : Nat} {cs : List Char} (h : '\n' ∈ cs.drop (m - (n + 1))) (c : Char) :
    '\n' ∈ (c :: cs).drop (m - n) := by
  by_cases here : n < m
  · rwa [show m - n = m - (n + 1) + 1 by omega, List.drop_succ_cons]
  · rw [Nat.sub_eq_zero_of_le (Nat.le_of_not_lt here)]
    exact List.mem_cons_of_mem c (List.mem_of_mem_drop h)

section Lines
variable {cs : List Char} (feed : '\n' ∈ cs) (after : List Char)
include feed

lemma takeWhile_append_of_feed {p : Char → Bool} (stop : p '\n' = false) :
    (cs ++ after).takeWhile p = cs.takeWhile p := by
  induction cs with
  | nil => cases feed
  | cons c cs ih =>
    rw [List.cons_append, List.takeWhile_cons, List.takeWhile_cons]
    by_cases line : c = '\n'
    · rw [line, stop]
      rfl
    · rw [ih ((List.mem_cons.1 feed).resolve_left (Ne.symm line))]

lemma lineLength_append : lineLength (cs ++ after) = lineLength cs := by
  rw [lineLength, lineLength, takeWhile_append_of_feed feed after (by decide)]

lemma digitsLength_append_of_feed : digitsLength (cs ++ after) = digitsLength cs := by
  rw [digitsLength, digitsLength, takeWhile_append_of_feed feed after (by decide)]

lemma startsName_append_of_feed : startsName (cs ++ after) = startsName cs := by
  cases cs with
  | nil => cases feed
  | cons c cs => rfl

lemma nameLength_append_of_feed : nameLength (cs ++ after) = nameLength cs := by
  induction cs with
  | nil => cases feed
  | cons c cs ih =>
    by_cases line : c = '\n'
    · subst line
      rfl
    · have rest : '\n' ∈ cs := (List.mem_cons.1 feed).resolve_left (Ne.symm line)
      rw [List.cons_append, nameLength, nameLength, ih rest, startsName_append_of_feed rest]

/-- Digits do not reach the end of the line. -/
lemma feed_mem_drop_digitsLength : '\n' ∈ cs.drop (digitsLength cs) := by
  induction cs with
  | nil => cases feed
  | cons c cs ih =>
    by_cases digit : c.isDigit = true
    · have line : '\n' ≠ c := by
        rintro rfl
        cases digit
      have more : digitsLength (c :: cs) = digitsLength cs + 1 := by
        simp [digitsLength, digit]
      rw [more, List.drop_succ_cons]
      exact ih ((List.mem_cons.1 feed).resolve_left line)
    · have none : digitsLength (c :: cs) = 0 := by
        simp [digitsLength, digit]
      rw [none]
      exact feed

lemma numberLength_append_of_feed : numberLength (cs ++ after) = numberLength cs := by
  have behind := feed_mem_drop_digitsLength feed
  rw [numberLength, numberLength, digitsLength_append_of_feed feed,
    List.drop_append_of_le_length (digitsLength_le cs)]
  generalize cs.drop (digitsLength cs) = rest at behind
  cases rest with
  | nil => cases behind
  | cons c rest =>
    by_cases point : c = '.'
    · subst point
      have fraction : '\n' ∈ rest := (List.mem_cons.1 behind).resolve_left (by decide)
      cases rest with
      | nil => cases fraction
      | cons d rest =>
        have same := digitsLength_append_of_feed fraction after
        rw [List.cons_append] at same
        simp only [List.cons_append, same]
    · simp [point]

lemma feed_mem_drop_nameLength : '\n' ∈ cs.drop (nameLength cs) := by
  induction cs with
  | nil => cases feed
  | cons c cs ih =>
    by_cases line : c = '\n'
    · subst line
      exact feed
    · have rest := ih ((List.mem_cons.1 feed).resolve_left (Ne.symm line))
      rw [nameLength]
      split
      · exact rest
      · split
        · exact rest
        · exact feed

lemma feed_mem_drop_numberLength : '\n' ∈ cs.drop (numberLength cs) := by
  have behind := feed_mem_drop_digitsLength feed
  unfold numberLength
  dsimp only
  split
  · next d rest found =>
    rw [found] at behind
    have fraction : '\n' ∈ d :: rest := (List.mem_cons.1 behind).resolve_left (by decide)
    split
    · rw [← List.drop_drop, ← List.drop_drop, found]
      exact feed_mem_drop_digitsLength fraction
    · rw [found]
      exact behind
  · exact behind

lemma feed_mem_drop_stringLength? {quote : Char} {n : Nat} (found : stringLength? quote cs = some n) :
    '\n' ∈ cs.drop n := by
  fun_induction stringLength? quote cs generalizing n with
  | case1 => cases feed
  | case2 => cases found
  | case3 c line close =>
    rw [List.mem_singleton] at feed
    exact absurd feed.symm (by simpa using line)
  | case4 c line close d ds again ih =>
    obtain ⟨m, inner, rfl⟩ := Option.map_eq_some_iff.1 found
    exact ih (by grind) inner
  | case5 c line close d ds once =>
    cases found
    exact (List.mem_cons.1 feed).resolve_left (by grind)
  | case6 c cs line inside ih =>
    obtain ⟨m, inner, rfl⟩ := Option.map_eq_some_iff.1 found
    exact ih (by grind) inner

lemma feed_mem_drop_listEnd {n depth m : Nat} {inside : Option (Char × Nat)}
    (found : listEnd n depth inside cs = .closed m) : '\n' ∈ cs.drop (m - n) := by
  fun_induction listEnd n depth inside cs with
  | case1 => cases found
  | case2 => cases found
  | case3 => cases found
  | case4 => cases found
  | case5 n depth c quote before line close d ds again ih =>
    exact feed_mem_drop_cons (feed_mem_drop_cons (ih (by grind) found) d) c
  | case6 n depth c quote before line close d ds once ih =>
    exact feed_mem_drop_cons (ih (by grind) found) c
  | case7 n depth c cs quote before line inside ih => exact feed_mem_drop_cons (ih (by grind) found) c
  | case8 => cases found
  | case9 n depth c cs line quote ih => exact feed_mem_drop_cons (ih (by grind) found) c
  | case10 n depth c cs line noQuote opening ih => exact feed_mem_drop_cons (ih (by grind) found) c
  | case11 n c cs line noQuote noOpening closing =>
    cases found
    rw [Nat.add_sub_cancel_left]
    exact (List.mem_cons.1 feed).resolve_left (by grind)
  | case12 n c cs line noQuote noOpening closing depth ih =>
    exact feed_mem_drop_cons (ih (by grind) found) c
  | case13 n depth c cs line noQuote noOpening noClosing ih =>
    exact feed_mem_drop_cons (ih (by grind) found) c

lemma stringLength?_append_of_feed (quote : Char) :
    stringLength? quote (cs ++ after) = stringLength? quote cs := by
  fun_induction stringLength? quote cs with
  | case1 => cases feed
  | case2 c cs line =>
    rw [List.cons_append, stringLength?.eq_def]
    simp [line]
  | case3 c line close =>
    rw [List.mem_singleton] at feed
    exact absurd feed.symm (by simpa using line)
  | case4 c line close d ds again ih =>
    have rest : '\n' ∈ ds := by grind
    rw [List.cons_append, List.cons_append, stringLength?, if_neg line, if_pos close]
    simp only [again, if_true, ih rest]
  | case5 c line close d ds once =>
    rw [List.cons_append, List.cons_append, stringLength?, if_neg line, if_pos close]
    simp [once]
  | case6 c cs line inside ih =>
    have rest : '\n' ∈ cs := by grind
    rw [List.cons_append, stringLength?.eq_def]
    simp only [line, inside, Bool.false_eq_true, if_false, ih rest]

lemma listEnd_append_of_feed (n depth : Nat) (inside : Option (Char × Nat)) :
    listEnd n depth inside (cs ++ after) = listEnd n depth inside cs := by
  fun_induction listEnd n depth inside cs with
  | case1 => cases feed
  | case2 => cases feed
  | case3 n depth c cs quote before line =>
    rw [List.cons_append, listEnd.eq_def]
    simp [line]
  | case4 n depth c quote before line close =>
    rw [List.mem_singleton] at feed
    exact absurd feed.symm (by simpa using line)
  | case5 n depth c quote before line close d ds again ih =>
    have rest : '\n' ∈ ds := by grind
    rw [List.cons_append, List.cons_append, listEnd]
    simp [line, close, again, ih rest]
  | case6 n depth c quote before line close d ds once ih =>
    have rest : '\n' ∈ d :: ds := by grind
    rw [List.cons_append, List.cons_append, listEnd]
    simpa [line, close, once] using ih rest
  | case7 n depth c cs quote before line inside ih =>
    have rest : '\n' ∈ cs := by grind
    rw [List.cons_append, listEnd.eq_def]
    simp [line, inside, ih rest]
  | case8 n depth c cs line =>
    rw [List.cons_append, listEnd.eq_def]
    simp [line]
  | case9 n depth c cs line quote ih =>
    have rest : '\n' ∈ cs := by grind
    rw [List.cons_append, listEnd.eq_def]
    simp only [line, quote, Bool.false_eq_true, if_false, if_true]
    exact ih rest
  | case10 n depth c cs line noQuote opening ih =>
    have rest : '\n' ∈ cs := by grind
    rw [List.cons_append, listEnd.eq_def]
    simp only [line, noQuote, opening, Bool.false_eq_true, if_false, if_true]
    exact ih rest
  | case11 n c cs line noQuote noOpening closing =>
    rw [List.cons_append, listEnd, if_neg line, if_neg noQuote, if_neg noOpening, if_pos closing]
  | case12 n c cs line noQuote noOpening closing depth ih =>
    have rest : '\n' ∈ cs := by grind
    rw [List.cons_append, listEnd, if_neg line, if_neg noQuote, if_neg noOpening, if_pos closing]
    exact ih rest
  | case13 n depth c cs line noQuote noOpening noClosing ih =>
    have rest : '\n' ∈ cs := by grind
    rw [List.cons_append, listEnd.eq_def]
    simp only [line, noQuote, noOpening, noClosing, Bool.false_eq_true, if_false]
    exact ih rest

end Lines

/-! ### Expressions -/

/-- An expression that is closed, or faulty, inside a text is so whatever stands behind the text. A
string that is open in front of the text must end in it. -/
lemma exprEnd_append {n : Nat} {stack : List Char} {inside : Option (Char × Nat)} {cs : List Char}
    (line : EndsLine cs) (string : inside.isSome = true → cs ≠ [])
    (closed : exprEnd n stack inside cs ≠ .unclosed) (after : List Char) :
    exprEnd n stack inside (cs ++ after) = exprEnd n stack inside cs := by
  fun_induction exprEnd n stack inside cs with
  | case1 => exact absurd rfl (string rfl)
  | case2 => exact absurd rfl closed
  | case3 n stack c cs quote before feed =>
    rw [List.cons_append, exprEnd.eq_def]
    simp [feed]
  | case4 n stack c quote before feed close => exact absurd rfl closed
  | case5 n stack c quote before feed close d ds again ih =>
    have rest : '\n' ∈ ds := by
      have := line.feed_mem (by simpa using feed)
      grind
    have same := ih line.tail.tail (fun _ => List.ne_nil_of_mem rest) closed
    rw [List.cons_append, List.cons_append, exprEnd.eq_def]
    simp only [feed, close, again, Bool.false_eq_true, if_false, if_true, same]
  | case6 n stack c quote before feed close d ds once ih =>
    have same := ih line.tail (fun none => absurd none Bool.false_ne_true) closed
    rw [List.cons_append, List.cons_append, exprEnd.eq_def]
    simp only [feed, close, once, Bool.false_eq_true, if_false, if_true]
    exact same
  | case7 n stack c cs quote before feed inside ih =>
    have rest := line.feed_mem (by simpa using feed)
    have same := ih line.tail (fun _ => List.ne_nil_of_mem rest) closed
    rw [List.cons_append, exprEnd.eq_def]
    simp only [feed, inside, Bool.false_eq_true, if_false, same]
  | case8 n stack c cs quote ih =>
    have rest : '\n' ∈ cs := line.feed_mem (by rintro rfl; simp at quote)
    have same := ih line.tail (fun _ => List.ne_nil_of_mem rest) closed
    rw [List.cons_append, exprEnd.eq_def]
    simp only [quote, if_true, same]
  | case9 n stack c cs noQuote opening ih =>
    have same := ih line.tail (fun none => absurd none Bool.false_ne_true) closed
    rw [List.cons_append, exprEnd.eq_def]
    simp only [noQuote, opening, Bool.false_eq_true, if_false, if_true, same]
  | case10 n c cs noQuote noOpening closing =>
    rw [List.cons_append, exprEnd.eq_def]
    simp only [noQuote, noOpening, closing, Bool.false_eq_true, if_false, if_true]
  | case11 n c cs noQuote noOpening closing bracket outer same last =>
    rw [List.cons_append, exprEnd.eq_def]
    simp only [noQuote, noOpening, closing, same, last, Bool.false_eq_true, if_false, if_true]
  | case12 n c cs noQuote noOpening closing bracket outer same more ih =>
    have rest := ih line.tail (fun none => absurd none Bool.false_ne_true) closed
    rw [List.cons_append, exprEnd.eq_def]
    simp only [noQuote, noOpening, closing, same, more, Bool.false_eq_true, if_false, if_true, rest]
  | case13 n c cs noQuote noOpening closing bracket outer other =>
    rw [List.cons_append, exprEnd.eq_def]
    simp only [noQuote, noOpening, closing, other, Bool.false_eq_true, if_false, if_true]
  | case14 n stack c cs noQuote noOpening noClosing ih =>
    have same := ih line.tail (fun none => absurd none Bool.false_ne_true) closed
    rw [List.cons_append, exprEnd.eq_def]
    simp only [noQuote, noOpening, noClosing, Bool.false_eq_true, if_false, same]

/-- The place of the bracket or quote that decides how an expression ends. -/
def Enclosed.place? : Enclosed → Option Nat
  | closed length => some (length - 1)
  | unclosed => none
  | openString before | unexpected before _ => some before

/-- What is at fault in an expression is a character that stands on the line of its place. -/
lemma place_exprEnd {n before : Nat} {stack : List Char} {inside : Option (Char × Nat)} {cs : List Char}
    (fault : (exprEnd n stack inside cs).place? = some before) :
    (∃ quote, inside = some (quote, before)) ∨ ∃ c, n ≤ before ∧ cs[before - n]? = some c ∧ c ≠ '\n' := by
  -- a place behind some characters is a place behind the first one, too
  have next {n : Nat} (c : Char) {cs : List Char}
      (h : ∃ d, n + 1 ≤ before ∧ cs[before - (n + 1)]? = some d ∧ d ≠ '\n') :
      ∃ d, n ≤ before ∧ (c :: cs)[before - n]? = some d ∧ d ≠ '\n' := by
    obtain ⟨d, le, at_, ne⟩ := h
    refine ⟨d, by omega, ?_, ne⟩
    rwa [show before - n = before - (n + 1) + 1 by omega, List.getElem?_cons_succ]
  have here {n : Nat} {c : Char} (cs : List Char) (ne : c ≠ '\n') :
      ∃ d, n ≤ n ∧ (c :: cs)[n - n]? = some d ∧ d ≠ '\n' := ⟨c, le_rfl, by rw [Nat.sub_self]; rfl, ne⟩
  fun_induction exprEnd n stack inside cs with
  | case1 n stack quote place =>
    cases fault
    exact .inl ⟨quote, rfl⟩
  | case2 => cases fault
  | case3 n stack c cs quote place feed =>
    cases fault
    exact .inl ⟨quote, rfl⟩
  | case4 => cases fault
  | case5 n stack c quote place feed close d ds again ih =>
    exact (ih fault).imp id fun h => next c (next d h)
  | case6 n stack c quote place feed close d ds once ih =>
    exact .inr (next c ((ih fault).resolve_left (by simp)))
  | case7 n stack c cs quote place feed inside ih => exact (ih fault).imp id (next c)
  | case8 n stack c cs quote ih =>
    rcases ih fault with ⟨_, same⟩ | later
    · cases same
      exact .inr (here cs (by rintro rfl; simp at quote))
    · exact .inr (next c later)
  | case9 n stack c cs noQuote opening ih => exact .inr (next c ((ih fault).resolve_left (by simp)))
  | case10 n c cs noQuote noOpening closing =>
    cases fault
    exact .inr (here cs (by rintro rfl; simp at closing))
  | case11 n c cs noQuote noOpening closing =>
    cases fault
    exact .inr (here cs (by rintro rfl; simp at closing))
  | case12 n c cs noQuote noOpening closing bracket outer same more ih =>
    exact .inr (next c ((ih fault).resolve_left (by simp)))
  | case13 n c cs noQuote noOpening closing bracket outer other =>
    cases fault
    exact .inr (here cs (by rintro rfl; simp at closing))
  | case14 n stack c cs noQuote noOpening noClosing ih =>
    exact .inr (next c ((ih fault).resolve_left (by simp)))

/-- Behind the last bracket of an expression, and behind its fault, the line ends. -/
lemma feed_mem_drop_exprEnd {n before : Nat} {stack : List Char} {inside : Option (Char × Nat)}
    {cs : List Char} (line : EndsLine cs)
    (string : ∀ quote place, inside = some (quote, place) → cs ≠ [] ∧ place < n)
    (fault : (exprEnd n stack inside cs).place? = some before) :
    '\n' ∈ cs.drop (before + 1 - n) := by
  fun_induction exprEnd n stack inside cs with
  | case1 n stack quote place => exact absurd rfl (string quote place rfl).1
  | case2 => cases fault
  | case3 n stack c cs quote place feed =>
    cases fault
    rw [Nat.sub_eq_zero_of_le (string quote before rfl).2, beq_iff_eq.1 feed]
    exact List.mem_cons_self
  | case4 => cases fault
  | case5 n stack c quote place feed close d ds again ih =>
    have rest : '\n' ∈ ds := by
      have := line.feed_mem (by simpa using feed)
      grind
    refine feed_mem_drop_cons (feed_mem_drop_cons (ih line.tail.tail ?_ fault) d) c
    rintro _ _ ⟨⟩
    exact ⟨List.ne_nil_of_mem rest, Nat.lt_add_right 2 (string quote place rfl).2⟩
  | case6 n stack c quote place feed close d ds once ih =>
    exact feed_mem_drop_cons (ih line.tail (by rintro _ _ ⟨⟩) fault) c
  | case7 n stack c cs quote place feed inside ih =>
    have rest := line.feed_mem (by simpa using feed)
    refine feed_mem_drop_cons (ih line.tail ?_ fault) c
    rintro _ _ ⟨⟩
    exact ⟨List.ne_nil_of_mem rest, Nat.lt_succ_of_lt (string quote place rfl).2⟩
  | case8 n stack c cs quote ih =>
    have rest : '\n' ∈ cs := line.feed_mem (by rintro rfl; simp at quote)
    refine feed_mem_drop_cons (ih line.tail ?_ fault) c
    rintro _ _ ⟨⟩
    exact ⟨List.ne_nil_of_mem rest, Nat.lt_succ_self n⟩
  | case9 n stack c cs noQuote opening ih => exact feed_mem_drop_cons (ih line.tail (by rintro _ _ ⟨⟩) fault) c
  | case10 n c cs noQuote noOpening closing =>
    cases fault
    rw [Nat.add_sub_cancel_left]
    exact line.feed_mem (by rintro rfl; simp at closing)
  | case11 n c cs noQuote noOpening closing bracket outer same last =>
    cases fault
    rw [Nat.add_sub_cancel, Nat.add_sub_cancel_left]
    exact line.feed_mem (by rintro rfl; simp at closing)
  | case12 n c cs noQuote noOpening closing bracket outer same more ih =>
    exact feed_mem_drop_cons (ih line.tail (by rintro _ _ ⟨⟩) fault) c
  | case13 n c cs noQuote noOpening closing bracket outer other =>
    cases fault
    rw [Nat.add_sub_cancel_left]
    exact line.feed_mem (by rintro rfl; simp at closing)
  | case14 n stack c cs noQuote noOpening noClosing ih =>
    exact feed_mem_drop_cons (ih line.tail (by rintro _ _ ⟨⟩) fault) c

end Scan

end ErdSql
