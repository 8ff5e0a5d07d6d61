import ErdSql.Token.Scanner
import Mathlib

/-!
# Lexemes

The texts that the scanner takes for one name, number, string or list, and what they are made of.

* `Scan.chars_of_isName`: a name has only letters, digits, underscores, slashes and dots.
* `Scan.digits_of_isNumber`: a number is digits, with or without a fraction.
* `Scan.body_of_isString`: a string is its body with each quote doubled, between quotes.
-/

namespace ErdSql.Text

/-- A property that holds of the 128 characters of ASCII, by pairs of hexadecimal digits. -/
lemma forall_ascii {p : Char → Prop} (h : ∀ (m : Fin 8) (n : Fin 16), p (Char.ofNat (16 * m + n))) :
    ∀ c : Char, c.toNat < 0x80 → p c := by
  intro c hc
  have digits : Char.ofNat (16 * (c.toNat / 16) + c.toNat % 16) = c := by
    rw [Nat.div_add_mod, Char.ofNat_toNat]
  rw [← digits]
  exact h ⟨c.toNat / 16, by omega⟩ ⟨c.toNat % 16, by omega⟩

/-! ### Classes of characters -/

/-- Whether two runs of code points have none in common. -/
def apart (r s : CodeRange) : Bool :=
  Nat.blt r.2 s.1 || Nat.blt s.2 r.1

/-- No code point lies in two classes whose runs are all apart. -/
lemma inRanges_eq_false_of_apart {rs ss : Array CodeRange}
    (h : rs.toList.all (fun r => ss.toList.all (apart r)) = true) {n : Nat}
    (hn : inRanges rs n = true) : inRanges ss n = false := by
  rw [inRanges, Array.any_eq_true'] at hn
  obtain ⟨r, hr, low⟩ := hn
  rw [inRanges, Array.any_eq_false']
  intro s hs high
  have two := List.all_eq_true.1 (List.all_eq_true.1 h r hr.val) s hs.val
  simp only [apart, Bool.or_eq_true, Nat.blt_eq, Bool.and_eq_true, decide_eq_true_eq] at two low high
  omega

lemma inRanges_append (rs ss : Array CodeRange) (n : Nat) :
    inRanges (rs ++ ss) n = (inRanges rs n || inRanges ss n) := by
  simp only [inRanges, Array.any_append]

/-- White space beyond ASCII is in no name. -/
lemma inRanges_spaceRanges_eq_false {n : Nat}
    (h : inRanges letterRanges n = true ∨ inRanges digitRanges n = true) :
    inRanges spaceRanges n = false := by
  rw [letterRanges] at h
  simp only [inRanges_append, Bool.or_eq_true] at h
  rcases h with (((h | h) | h) | h) | h
  · exact inRanges_eq_false_of_apart (by decide) h
  · exact inRanges_eq_false_of_apart (by decide) h
  · exact inRanges_eq_false_of_apart (by decide) h
  · exact inRanges_eq_false_of_apart (by decide) h
  · exact inRanges_eq_false_of_apart (by decide) h

end ErdSql.Text

namespace ErdSql.Scan

/-! ### Texts that are one token -/

/-- Whether a text is one name. -/
def isName (s : String) : Bool :=
  startsName s.toList && nameLength s.toList == s.toList.length

/-- Whether a text is one number. -/
def isNumber (s : String) : Bool :=
  s.toList.head?.any Char.isDigit && numberLength s.toList == s.toList.length

/-- Whether a text is one string. -/
def isString (s : String) : Bool :=
  match s.toList with
  | q :: cs => (q == '\'' || q == '"') && stringLength? q cs == some cs.length
  | [] => false

/-! ### Names -/

/-- The characters of names are not white space. -/
lemma isSpace_of_isNamePart {c : Char} (h : isNamePart c = true) : Text.isSpace c = false := by
  have table : ∀ c : Char, c.toNat < 0x80 → isNamePart c = true → Text.isSpace c = false :=
    Text.forall_ascii (by decide)
  by_cases hc : c.toNat < 0x80
  · exact table c hc h
  · rw [Text.isSpace, if_neg hc]
    apply Text.inRanges_spaceRanges_eq_false
    have mark : (c == '_') = false := by
      rw [beq_eq_false_iff_ne]
      rintro rfl
      exact hc (by decide)
    simpa [isNamePart, isNameStart, mark, Text.isLetter, Text.isDigit, hc] using h

lemma nameLength_le (cs : List Char) : nameLength cs ≤ cs.length := by
  induction cs with
  | nil => exact le_rfl
  | cons c cs ih =>
    rw [nameLength]
    split
    · simpa using ih
    · split
      · simpa using ih
      · simp

/-- The first character of a name and the length of the rest. -/
lemma nameLength_cons_eq {c : Char} {cs : List Char} (h : nameLength (c :: cs) = (c :: cs).length) :
    (isNamePart c = true ∨ ((c = '/' ∨ c = '.') ∧ startsName cs = true)) ∧
      nameLength cs = cs.length := by
  rw [nameLength] at h
  split at h
  · next part => exact ⟨.inl part, by simpa using h⟩
  · split at h
    · next divider =>
      rw [Bool.and_eq_true, Bool.or_eq_true, beq_iff_eq, beq_iff_eq] at divider
      exact ⟨.inr divider, by simpa using h⟩
    · simp at h

/-- The characters of a name. -/
lemma chars_of_isName {s : String} (h : isName s = true) {c : Char} (hc : c ∈ s.toList) :
    isNamePart c = true ∨ c = '/' ∨ c = '.' := by
  rw [isName, Bool.and_eq_true, beq_iff_eq] at h
  have all : ∀ cs : List Char, nameLength cs = cs.length → ∀ c ∈ cs,
      isNamePart c = true ∨ c = '/' ∨ c = '.' := by
    intro cs
    induction cs with
    | nil => exact fun _ c hc => nomatch hc
    | cons d ds ih =>
      intro length c hc
      obtain ⟨first, rest⟩ := nameLength_cons_eq length
      rcases List.mem_cons.1 hc with rfl | hc
      · rcases first with part | ⟨divider, -⟩
        · exact .inl part
        · exact .inr divider
      · exact ih rest c hc
  exact all s.toList h.2 c hc

/-- A name has no NUL character. -/
lemma nul_not_mem_of_isName {s : String} (h : isName s = true) : '\x00' ∉ s.toList := by
  intro mem
  have := chars_of_isName h mem
  revert this
  decide

/-! ### Numbers -/

/-- The number of digits at the front is at most the length. -/
lemma digitsLength_le (cs : List Char) : digitsLength cs ≤ cs.length :=
  (List.takeWhile_sublist _).length_le

lemma isDigit_of_digitsLength {cs : List Char} (h : digitsLength cs = cs.length) :
    ∀ c ∈ cs, c.isDigit = true := by
  have whole : cs.takeWhile Char.isDigit = cs :=
    (List.takeWhile_prefix _).eq_of_length h
  intro c hc
  rw [← whole] at hc
  exact List.mem_takeWhile_imp hc

/-- A number is digits, with or without a fraction. -/
lemma digits_of_isNumber {s : String} (h : isNumber s = true) :
    (∃ c cs, s.toList = c :: cs ∧ ∀ d ∈ c :: cs, d.isDigit = true) ∨
      ∃ c cs d ds, s.toList = (c :: cs) ++ '.' :: d :: ds ∧ (∀ x ∈ c :: cs, x.isDigit = true) ∧
        ∀ x ∈ d :: ds, x.isDigit = true := by
  rw [isNumber, Bool.and_eq_true, beq_iff_eq] at h
  obtain ⟨start, length⟩ := h
  cases e : s.toList with
  | nil =>
    rw [e] at start
    cases start
  | cons c cs =>
    rw [e] at start length
    have first : c.isDigit = true := by simpa using start
    -- the digits at the front, and what stands behind them
    have front : ∀ x ∈ (c :: cs).takeWhile Char.isDigit, x.isDigit = true :=
      fun x hx => List.mem_takeWhile_imp hx
    have split := (List.takeWhile_append_dropWhile (p := Char.isDigit) (l := c :: cs))
    have behind : (c :: cs).drop (digitsLength (c :: cs)) = (c :: cs).dropWhile Char.isDigit := by
      conv_lhs => arg 2; rw [← split]
      exact List.drop_left' rfl
    have count := congrArg List.length split
    rw [List.length_append] at count
    unfold numberLength at length
    dsimp only at length
    rw [behind] at length
    split at length
    · next d rest eq =>
      split at length
      · next digit =>
        have total : digitsLength (d :: rest) = (d :: rest).length := by
          rw [eq] at count
          rw [← count] at length
          simp only [digitsLength, List.length_cons] at length ⊢
          omega
        rw [List.takeWhile_cons, if_pos first] at front split
        refine .inr ⟨c, cs.takeWhile Char.isDigit, d, rest, ?_, front, isDigit_of_digitsLength total⟩
        rw [← eq]
        exact split.symm
      · exact .inl ⟨c, cs, rfl, isDigit_of_digitsLength length⟩
    · exact .inl ⟨c, cs, rfl, isDigit_of_digitsLength length⟩

/-! ### Strings -/

/-- What stands behind the opening quote of a string: its body with each quote doubled, and the
closing quote. -/
lemma body_of_stringLength? {q : Char} {cs : List Char} (h : stringLength? q cs = some cs.length) :
    ∃ body, cs = Text.doubleChar q body ++ [q] := by
  induction cs using stringLength?.induct q with
  | case1 => simp [stringLength?] at h
  | case2 c cs feed =>
    rw [stringLength?.eq_def] at h
    simp [feed] at h
  | case3 c noFeed close =>
    rw [beq_iff_eq] at close
    exact ⟨[], by rw [close]; rfl⟩
  | case4 c noFeed close d ds again ih =>
    rw [stringLength?, if_neg noFeed, if_pos close] at h
    simp only [again, if_true, Option.map_eq_some_iff, List.length_cons] at h
    obtain ⟨n, hn, e⟩ := h
    obtain ⟨body, rfl⟩ := ih (by rw [hn]; congr 1; omega)
    rw [beq_iff_eq] at close again
    refine ⟨q :: body, ?_⟩
    rw [close, again]
    simp [Text.doubleChar]
  | case5 c noFeed close d ds once =>
    rw [stringLength?, if_neg noFeed, if_pos close] at h
    simp [once] at h
  | case6 c cs noFeed inside ih =>
    rw [stringLength?.eq_def] at h
    simp only [noFeed, inside, Bool.false_eq_true, if_false, Option.map_eq_some_iff,
      List.length_cons] at h
    obtain ⟨n, hn, e⟩ := h
    obtain ⟨body, rfl⟩ := ih (by rw [hn]; congr 1; omega)
    rw [beq_iff_eq] at inside
    refine ⟨c :: body, ?_⟩
    simp [Text.doubleChar, inside]

/-- A string is its body with each quote doubled, between quotes. -/
lemma body_of_isString {s : String} (h : isString s = true) :
    ∃ q body, (q = '\'' ∨ q = '"') ∧ s.toList = q :: Text.doubleChar q body ++ [q] := by
  unfold isString at h
  split at h
  · next q cs e =>
    rw [Bool.and_eq_true, Bool.or_eq_true, beq_iff_eq, beq_iff_eq, beq_iff_eq] at h
    obtain ⟨body, rfl⟩ := body_of_stringLength? h.2
    exact ⟨q, body, h.1, e⟩
  · cases h

end ErdSql.Scan
