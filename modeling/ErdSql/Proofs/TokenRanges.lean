import ErdSql.Proofs.Extents

/-!
# What one step of the scanner reads

A step skips white space or a comment, makes a token of what stands in front, or reports a fault.

* `Scan.Gap`: text that consists of white space and comments, in front of some other text.
* `Scan.gap_of_step`: what a step skips is such a text.
* `Token.Reads`: how the text of a token comes from what it stands for.
* `Scan.reads_of_step`: a step makes a token that reads the characters it takes.
* `Scan.solid_of_step`: they neither start nor end with white space.
-/

namespace ErdSql

/-! ### Gaps -/

namespace Scan

/-- White space and comments, in front of a text. A comment starts with `#` or `;;` and goes on up to
the next line feed, which is no part of it. -/
inductive Gap : List Char → List Char → Prop where
  | nil {after} :
    Gap [] after
  | space {c gap after} :
    Text.isSpace c = true →
    Gap gap after →
    Gap (c :: gap) after
  | comment {mark body gap after} :
    mark = ['#'] ∨ mark = [';', ';'] →
    '\n' ∉ body →
    (∀ c ∈ (gap ++ after).head?, c = '\n') →
    Gap gap after →
    Gap (mark ++ body ++ gap) after

/-- A text is its first line and what follows from the line feed on. -/
lemma exists_line (cs : List Char) : ∃ body rest, cs = body ++ rest ∧ lineLength cs = body.length ∧
    '\n' ∉ body ∧ ∀ c ∈ rest.head?, c = '\n' := by
  refine ⟨cs.takeWhile (· != '\n'), cs.dropWhile (· != '\n'), List.takeWhile_append_dropWhile.symm, rfl,
    ?_, ?_⟩
  · intro mem
    simpa using List.mem_takeWhile_imp mem
  · intro c hc
    have first := List.head?_dropWhile_not (· != '\n') cs
    rw [Option.mem_def.1 hc] at first
    simpa using first

/-- A comment in front of a gap is a gap. -/
lemma gap_comment {mark : List Char} (starts : mark = ['#'] ∨ mark = [';', ';']) {cs gap after : List Char}
    (rest : cs.drop (lineLength cs) = gap ++ after) (h : Gap gap after) :
    Gap (mark ++ cs.take (lineLength cs) ++ gap) after := by
  obtain ⟨body, behind, rfl, length, noFeed, feed⟩ := exists_line cs
  rw [length, List.drop_left' rfl] at rest
  rw [length, List.take_left' rfl]
  exact .comment starts noFeed (rest ▸ feed) h

/-- What a step skips is white space or a comment. -/
lemma gap_of_step {opens : Bool} {c : Char} {cs : List Char} {more : Nat}
    (h : step opens c cs = .skip more) {gap after : List Char} (rest : cs.drop more = gap ++ after)
    (behind : Gap gap after) : Gap (c :: cs.take more ++ gap) after := by
  cases takes_of_step h with
  | space space => exact .space space behind
  | comment mark =>
    rcases mark with rfl | ⟨rfl, first⟩
    · exact gap_comment (.inl rfl) rest behind
    · obtain ⟨cs, rfl⟩ := List.head?_eq_some_iff.1 first
      have inner : lineLength (';' :: cs) = lineLength cs + 1 := rfl
      rw [inner, List.drop_succ_cons] at rest
      rw [inner, List.take_succ_cons]
      exact gap_comment (.inr rfl) rest behind

end Scan

/-! ### Tokens -/

/-- How the text of a token comes from the characters that it stands for. -/
def Token.Reads (t : Token) (range : List Char) : Prop :=
  match t.kind with
  | .entity => range = ':' :: t.text.toList
  | .field c => range = c.sigil :: '.' :: t.text.toList
  | .keyword _ => t.text = Text.upper (String.ofList range)
  | .expr => ∃ inner, range = '(' :: inner ++ [')'] ∧ t.text = Text.trim (String.ofList inner)
  | _ => t.text = String.ofList range

namespace Scan

/-- A keyword is the upper-case form of what spells it. -/
lemma word_of_ofText? {s : String} {k : Keyword} (h : Keyword.ofText? s = some k) :
    k.word = Text.upper s := by
  unfold Keyword.ofText? at h
  have same := List.find?_some h
  exact beq_iff_eq.1 same

/-- The bracket that closes an expression is a parenthesis. -/
lemma getElem?_of_exprEnd {n m : Nat} {stack front : List Char} {inside : Option (Char × Nat)}
    {cs : List Char} (h : exprEnd n stack inside cs = .closed m) (outer : stack = front ++ ['(']) :
    cs[m - n - 1]? = some ')' := by
  -- the closing bracket stands behind every character that is read before it
  have next {n : Nat} (c : Char) (cs : List Char) (lt : n + 1 < m) :
      (c :: cs)[m - n - 1]? = cs[m - (n + 1) - 1]? := by
    obtain ⟨k, hk⟩ : ∃ k, m - n - 1 = k + 1 := ⟨m - n - 2, by omega⟩
    rw [hk, List.getElem?_cons_succ]
    congr 1
    omega
  fun_induction exprEnd n stack inside cs generalizing front with
  | case1 => cases h
  | case2 => cases h
  | case3 => cases h
  | case4 => cases h
  | case5 n stack c q before _ closes d ds again ih =>
    have lt := (exprEnd_le h).1
    rw [next c _ (by omega), next d _ lt]
    exact ih h outer
  | case6 n stack c q before _ closes d ds _ ih =>
    rw [next c _ (exprEnd_le h).1]
    exact ih h outer
  | case7 n stack c cs q before _ other ih =>
    rw [next c _ (exprEnd_le h).1]
    exact ih h outer
  | case8 n stack c cs opens ih =>
    rw [next c _ (exprEnd_le h).1]
    exact ih h outer
  | case9 n stack c cs _ opens ih =>
    rw [next c _ (exprEnd_le h).1]
    exact ih h (by rw [outer, List.cons_append] : c :: stack = (c :: front) ++ ['('])
  | case10 => cases h
  | case11 n c cs _ _ closing bracket outer' same last =>
    cases h
    -- the last open bracket is the parenthesis that opens the expression
    obtain rfl : bracket = '(' := by
      cases front with
      | nil => simpa using (List.cons.inj outer).1
      | cons b front => simp_all
    have round : c = ')' := by
      rw [Bool.or_eq_true, beq_iff_eq, beq_iff_eq] at closing
      rcases closing with rfl | rfl
      · rfl
      · exact absurd same (by decide)
    rw [show n + 1 - n - 1 = 0 by omega, round]
    rfl
  | case12 n c cs _ _ closes bracket rest same more ih =>
    obtain ⟨front, rfl⟩ : ∃ f, front = bracket :: f := by
      cases front with
      | nil => simp_all
      | cons b f => exact ⟨f, by simp_all⟩
    rw [next c _ (exprEnd_le h).1]
    exact ih h (by simpa using outer : rest = front ++ ['('])
  | case13 => cases h
  | case14 n stack c cs noQuote noOpen noClose ih =>
    rw [next c _ (exprEnd_le h).1]
    exact ih h outer

/-- An expression that is closed is the text between its parentheses and the closing one. -/
lemma take_of_exprEnd {cs : List Char} {n : Nat} (h : exprEnd 0 ['('] none cs = .closed n) :
    cs.take n = cs.take (n - 1) ++ [')'] := by
  have last := getElem?_of_exprEnd h (List.nil_append _).symm
  obtain ⟨k, rfl⟩ : ∃ k, n = k + 1 := Nat.exists_eq_add_one_of_ne_zero (exprEnd_le h).1.ne'
  rw [show k + 1 - 0 - 1 = k by omega] at last
  rw [List.take_add_one, last]
  rfl

/-- A step makes a token that reads the characters that it takes. -/
lemma reads_of_step {opens : Bool} {c : Char} {cs : List Char} {more : Nat} {t : Token}
    (h : step opens c cs = .token t.kind t.spelling more) : t.Reads (c :: cs.take more) := by
  generalize kind : t.kind = k at h
  generalize spelling : t.spelling = s at h
  -- the text of a token is its spelling, but for keywords
  have text (plain : ∀ k, t.kind ≠ .keyword k) : t.text = s := by
    rw [Token.text]
    split
    · next k keyword => exact absurd keyword (plain k)
    · exact spelling
  rw [Token.Reads, kind]
  cases takes_of_step h with
  | entity colon => rw [text (by simp [kind]), String.toList_ofList, colon]
  | @field cardinality rest sigil behind =>
    dsimp only
    rw [text (by simp [kind]), String.toList_ofList, sigil, behind, List.take_succ_cons]
  | expr opening _ closed =>
    refine ⟨cs.take (more - 1), by rw [opening, take_of_exprEnd closed, List.cons_append], ?_⟩
    rw [text (by simp [kind]), Text.trim, String.toList_ofList]
  | keyword _ found =>
    dsimp only
    rw [Token.text, kind]
    exact word_of_ofText? found
  | _ => exact text (by simp [kind])

/-! ### Ends of tokens -/

/-- The characters of the name at the front. -/
lemma of_mem_take_nameLength {cs : List Char} {c : Char} (h : c ∈ cs.take (nameLength cs)) :
    isNamePart c = true ∨ c = '/' ∨ c = '.' := by
  induction cs with
  | nil => cases h
  | cons d ds ih =>
    rw [nameLength] at h
    split at h
    · next part =>
      rcases List.mem_cons.1 h with rfl | h
      · exact .inl part
      · exact ih h
    · split at h
      · next divider =>
        rw [Bool.and_eq_true, Bool.or_eq_true, beq_iff_eq, beq_iff_eq] at divider
        rcases List.mem_cons.1 h with rfl | h
        · exact .inr divider.1
        · exact ih h
      · cases h

/-- A name has no white space. -/
lemma isSpace_of_mem_take_nameLength {cs : List Char} {c : Char} (h : c ∈ cs.take (nameLength cs)) :
    Text.isSpace c = false := by
  obtain part | rfl | rfl := of_mem_take_nameLength h
  · exact isSpace_of_isNamePart part
  · decide
  · decide

lemma isSpace_of_isDigit {c : Char} (h : c.isDigit = true) : Text.isSpace c = false := by
  have table : ∀ c : Char, c.toNat < 0x80 → c.isDigit = true → Text.isSpace c = false :=
    Text.forall_ascii (by decide)
  refine table c ?_ h
  rw [Char.isDigit, Bool.and_eq_true, decide_eq_true_eq, decide_eq_true_eq] at h
  have le : c.val ≤ 57 := h.2
  exact Nat.lt_of_le_of_lt (UInt32.le_iff_toNat_le.1 le) (by decide)

lemma isSpace_of_mem_take_digitsLength {cs : List Char} {c : Char} (h : c ∈ cs.take (digitsLength cs)) :
    Text.isSpace c = false := by
  refine isSpace_of_isDigit (List.mem_takeWhile_imp (l := cs) ?_)
  rwa [digitsLength, ← List.prefix_iff_eq_take.1 (List.takeWhile_prefix _)] at h

/-- A number has no white space. -/
lemma isSpace_of_mem_take_numberLength {cs : List Char} {c : Char} (h : c ∈ cs.take (numberLength cs)) :
    Text.isSpace c = false := by
  unfold numberLength at h
  dsimp only at h
  split at h
  · next d rest behind =>
    split at h
    · rw [Nat.add_assoc, List.take_add, behind, Nat.add_comm, List.take_succ_cons] at h
      rcases List.mem_append.1 h with h | h
      · exact isSpace_of_mem_take_digitsLength h
      · rcases List.mem_cons.1 h with rfl | h
        · decide
        · exact isSpace_of_mem_take_digitsLength h
    · exact isSpace_of_mem_take_digitsLength h
  · exact isSpace_of_mem_take_digitsLength h

lemma numberLength_pos {c : Char} (digit : c.isDigit = true) (cs : List Char) :
    0 < numberLength (c :: cs) := by
  have pos : 0 < digitsLength (c :: cs) := by simp [digitsLength, digit]
  unfold numberLength
  dsimp only
  split
  · split <;> omega
  · exact pos

/-- A string ends with its quote. -/
lemma getElem?_of_stringLength? {quote : Char} {cs : List Char} {n : Nat}
    (h : stringLength? quote cs = some n) : 0 < n ∧ cs[n - 1]? = some quote := by
  fun_induction stringLength? quote cs generalizing n with
  | case1 => cases h
  | case2 => cases h
  | case3 c feed close =>
    cases h
    exact ⟨Nat.one_pos, congrArg some (beq_iff_eq.1 close)⟩
  | case4 c feed close d ds again ih =>
    obtain ⟨m, inner, rfl⟩ := Option.map_eq_some_iff.1 h
    obtain ⟨pos, last⟩ := ih inner
    refine ⟨by omega, ?_⟩
    rw [show m + 2 - 1 = (m - 1) + 1 + 1 by omega, List.getElem?_cons_succ, List.getElem?_cons_succ, last]
  | case5 c feed close d ds once =>
    cases h
    exact ⟨Nat.one_pos, congrArg some (beq_iff_eq.1 close)⟩
  | case6 c cs feed inside ih =>
    obtain ⟨m, inner, rfl⟩ := Option.map_eq_some_iff.1 h
    obtain ⟨pos, last⟩ := ih inner
    refine ⟨by omega, ?_⟩
    rw [show m + 1 - 1 = (m - 1) + 1 by omega, List.getElem?_cons_succ, last]

/-- A list ends with its bracket. -/
lemma getElem?_of_listEnd {n depth m : Nat} {inside : Option (Char × Nat)} {cs : List Char}
    (h : listEnd n depth inside cs = .closed m) : cs[m - n - 1]? = some ']' := by
  -- the closing bracket stands behind every character that is read before it
  have next {n : Nat} (c : Char) (cs : List Char) (lt : n + 1 < m) :
      (c :: cs)[m - n - 1]? = cs[m - (n + 1) - 1]? := by
    rw [show m - n - 1 = (m - (n + 1) - 1) + 1 by omega, List.getElem?_cons_succ]
  fun_induction listEnd n depth inside cs with
  | case1 => cases h
  | case2 => cases h
  | case3 => cases h
  | case4 => cases h
  | case5 n depth c quote before feed close d ds again ih =>
    have lt := (listEnd_le h).1
    rw [next c _ (by omega), next d _ lt, ih h]
  | case6 n depth c quote before feed close d ds once ih => rw [next c _ (listEnd_le h).1, ih h]
  | case7 n depth c cs quote before feed inside ih => rw [next c _ (listEnd_le h).1, ih h]
  | case8 => cases h
  | case9 n depth c cs feed quote ih => rw [next c _ (listEnd_le h).1, ih h]
  | case10 n depth c cs feed noQuote opening ih => rw [next c _ (listEnd_le h).1, ih h]
  | case11 n c cs feed noQuote noOpening closing =>
    cases h
    rw [show n + 1 - n - 1 = 0 by omega, beq_iff_eq.1 closing]
    rfl
  | case12 n c cs feed noQuote noOpening closing depth ih => rw [next c _ (listEnd_le h).1, ih h]
  | case13 n depth c cs feed noQuote noOpening noClosing ih => rw [next c _ (listEnd_le h).1, ih h]

/-- Characters that neither start nor end with white space. -/
structure Solid (cs : List Char) : Prop where
  ne_nil : cs ≠ []
  first : ∀ c ∈ cs.head?, Text.isSpace c = false
  last : ∀ c ∈ cs.getLast?, Text.isSpace c = false

/-- What stands between two characters that are no white space does not matter. -/
lemma solid_enclosed {c d : Char} (first : Text.isSpace c = false) (last : Text.isSpace d = false)
    (cs : List Char) : Solid (c :: (cs ++ [d])) := by
  refine ⟨List.cons_ne_nil _ _, ?_, fun e he => ?_⟩
  · rintro e ⟨⟩
    exact first
  · rw [← List.cons_append, List.getLast?_concat] at he
    cases he
    exact last

lemma getLast?_cons_take {c d : Char} {cs : List Char} {n : Nat} (pos : 0 < n) (h : cs[n - 1]? = some d) :
    (c :: cs.take n).getLast? = some d := by
  obtain ⟨n, rfl⟩ := Nat.exists_eq_add_one_of_ne_zero pos.ne'
  rw [Nat.add_sub_cancel] at h
  rw [List.take_add_one, h, Option.toList_some, ← List.cons_append, List.getLast?_concat]

/-- What a token stands for neither starts nor ends with white space. -/
lemma solid_of_step {opens : Bool} {c : Char} {cs : List Char} {kind : Token.Kind} {spelling : String}
    {more : Nat} (h : step opens c cs = .token kind spelling more) : Solid (c :: cs.take more) := by
  have first : Text.isSpace c = false := by
    by_contra space
    rw [Bool.not_eq_false] at space
    rw [step, if_pos space] at h
    cases h
  -- a token without white space, and one that ends with a closing character
  have plain (all : ∀ d ∈ cs.take more, Text.isSpace d = false) : Solid (c :: cs.take more) := by
    refine ⟨List.cons_ne_nil _ _, by simpa using first, fun d hd => ?_⟩
    rcases List.mem_cons.1 (List.mem_of_mem_getLast? hd) with rfl | mem
    · exact first
    · exact all d mem
  have closed {d : Char} (pos : 0 < more) (last : cs[more - 1]? = some d) (solid : Text.isSpace d = false) :
      Solid (c :: cs.take more) := by
    refine ⟨List.cons_ne_nil _ _, by simpa using first, fun e he => ?_⟩
    rw [getLast?_cons_take pos last] at he
    cases he
    exact solid
  cases takes_of_step h with
  | entity => exact plain fun d => isSpace_of_mem_take_nameLength
  | field _ behind =>
    subst behind
    refine plain fun d hd => ?_
    rcases List.mem_cons.1 hd with rfl | hd
    · decide
    · exact isSpace_of_mem_take_nameLength hd
  | string quote found =>
    obtain ⟨pos, last⟩ := getElem?_of_stringLength? found
    exact closed pos last first
  | list _ found => exact closed (listEnd_le found).1 (getElem?_of_listEnd found) (by decide)
  | expr _ _ found =>
    exact closed (exprEnd_le found).1 (getElem?_of_exprEnd found (List.nil_append _).symm) (by decide)
  | keyword => exact plain fun d => isSpace_of_mem_take_nameLength
  | identifier => exact plain fun d => isSpace_of_mem_take_nameLength
  | number digit =>
    refine plain fun d hd => ?_
    have inside : d ∈ (c :: cs).take (numberLength (c :: cs)) := by
      obtain ⟨n, hn⟩ : ∃ n, numberLength (c :: cs) = n + 1 :=
        Nat.exists_eq_add_one_of_ne_zero (numberLength_pos digit cs).ne'
      rw [hn, Nat.add_sub_cancel] at hd
      rw [hn, List.take_succ_cons]
      exact List.mem_cons_of_mem c hd
    exact isSpace_of_mem_take_numberLength inside
  | symbol => exact plain (by simp)

end Scan

end ErdSql
