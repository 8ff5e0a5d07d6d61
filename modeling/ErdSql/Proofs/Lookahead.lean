import ErdSql.Proofs.Resumption

/-!
# What a step looks at

A step takes some characters and looks at one or two behind them, to see that a name, a number or a
string goes no further. So another text may stand there if it starts in the same way, or if a comment
starts in the one text where the other one has the end of a line.

* `Scan.StartsAlike`, `Scan.StandsFor`: such texts.
* `Scan.step_token_congr`: a step makes the same token in front of such a text.
* `Scan.step_fault_congr`: and reports the same fault.
-/

namespace ErdSql.Scan

/-! ### Texts that start alike -/

/-- Whether a comment starts at the front of a text. -/
def startsComment : List Char → Bool
  | c :: cs => c == '#' || (c == ';' && cs.head? == some ';')
  | [] => false

/-- A text that starts with the same character as another one, or with the end of a line where the other
one starts with a comment. -/
def StartsAlike (cs xs : List Char) : Prop :=
  xs.head? = cs.head? ∨ startsComment cs = true ∧ ∀ x ∈ xs.head?, x = '\n'

/-- A text that starts as another one does, with what follows a mark inside a name or number. -/
structure StandsFor (cs xs : List Char) : Prop where
  first : StartsAlike cs xs
  second : ∀ d ds, cs = d :: ds → d = '.' ∨ d = '/' → ∃ ys, xs = d :: ys ∧ StartsAlike ds ys

namespace StartsAlike

variable {cs xs : List Char} (h : StartsAlike cs xs)
include h

/-- A test that fails for ends of lines and marks of comments cannot tell them apart. -/
lemma any_head? {test : Char → Bool} (feed : test '\n' = false) (hash : test '#' = false)
    (semicolon : test ';' = false) : xs.head?.any test = cs.head?.any test := by
  obtain same | ⟨comment, line⟩ := h
  · rw [same]
  · have here : cs.head?.any test = false := by
      cases cs with
      | nil => rfl
      | cons c cs =>
        obtain rfl | ⟨rfl, -⟩ : c = '#' ∨ c = ';' ∧ cs.head? = some ';' := by
          simpa [startsComment] using comment
        · exact hash
        · exact semicolon
    have there : xs.head?.any test = false := by
      cases xs with
      | nil => rfl
      | cons x xs =>
        rw [line x rfl]
        exact feed
    rw [here, there]

lemma startsName_eq : startsName xs = startsName cs := by
  have head (ys : List Char) : startsName ys = ys.head?.any isNameStart := by cases ys <;> rfl
  rw [head, head, h.any_head? (by decide) (by decide) (by decide)]

/-- No other character stands for one that ends no line. -/
lemma head_ne {d : Char} (feed : d ≠ '\n') (other : cs.head? ≠ some d) : xs.head? ≠ some d := by
  obtain same | ⟨-, line⟩ := h
  · rwa [same]
  · exact fun first => feed (line d first)

lemma eq_nil (none : cs = []) : xs = [] := by
  subst none
  obtain same | ⟨comment, -⟩ := h
  · exact List.head?_eq_none_iff.1 same
  · cases comment

end StartsAlike

/-! ### Names and numbers -/

/-- Behind a name stands no more of it. -/
lemma nameLength_drop (cs : List Char) : nameLength (cs.drop (nameLength cs)) = 0 := by
  induction cs with
  | nil => rfl
  | cons c cs ih =>
    by_cases part : isNamePart c = true
    · rw [nameLength, if_pos part]
      exact ih
    by_cases divider : ((c == '/' || c == '.') && startsName cs) = true
    · rw [nameLength, if_neg part, if_pos divider]
      exact ih
    · have zero : nameLength (c :: cs) = 0 := by rw [nameLength, if_neg part, if_neg divider]
      rw [zero, List.drop_zero, zero]

lemma digitsLength_take_append {cs xs : List Char} (stop : ∀ x ∈ xs.head?, x.isDigit = false) :
    digitsLength (cs.take (digitsLength cs) ++ xs) = digitsLength cs := by
  have digits : ∀ c ∈ cs.take (digitsLength cs), c.isDigit = true := by
    intro c hc
    rw [digitsLength, ← List.prefix_iff_eq_take.1 (List.takeWhile_prefix _)] at hc
    exact List.mem_takeWhile_imp hc
  rw [digitsLength_append digits stop, List.length_take, Nat.min_eq_left (digitsLength_le cs)]

/-- Behind digits stands none. -/
lemma head?_drop_digitsLength (cs : List Char) :
    ∀ c ∈ (cs.drop (digitsLength cs)).head?, c.isDigit = false := by
  have behind : cs.drop (digitsLength cs) = cs.dropWhile Char.isDigit := by
    nth_rewrite 2 [← List.takeWhile_append_dropWhile (p := Char.isDigit) (l := cs)]
    exact List.drop_left' rfl
  intro c hc
  have first := List.head?_dropWhile_not Char.isDigit cs
  rw [← behind, Option.mem_def.1 hc] at first
  simpa using first

namespace StandsFor

variable {cs xs : List Char} (h : StandsFor cs xs)
include h

lemma head_isDigit (none : ∀ c ∈ cs.head?, c.isDigit = false) : ∀ x ∈ xs.head?, x.isDigit = false := by
  have same := h.first.any_head? (by decide) (by decide) (by decide : Char.isDigit ';' = false)
  have here : cs.head?.any Char.isDigit = false := by
    cases cs with
    | nil => rfl
    | cons c cs => exact none c rfl
  intro x hx
  rw [here, Option.mem_def.1 hx] at same
  exact same

lemma nameLength_eq_zero (zero : nameLength cs = 0) : nameLength xs = 0 := by
  cases cs with
  | nil => rw [h.first.eq_nil rfl, nameLength]
  | cons d ds =>
    have part : isNamePart d = false := by
      by_contra part
      rw [nameLength, if_pos (by simpa using part)] at zero
      cases zero
    obtain same | ⟨-, line⟩ := h.first
    · obtain ⟨ys, rfl⟩ := List.head?_eq_some_iff.1 same
      rw [nameLength, part] at zero ⊢
      by_cases mark : (d == '/' || d == '.') = true
      · have divides : d = '.' ∨ d = '/' := by
          rw [Bool.or_eq_true, beq_iff_eq, beq_iff_eq] at mark
          exact mark.symm
        obtain ⟨_, eq, alike⟩ := h.second d ds rfl divides
        obtain ⟨-, rfl⟩ := List.cons.inj eq
        rw [mark, Bool.true_and, alike.startsName_eq]
        rw [mark, Bool.true_and] at zero
        by_contra more
        rw [if_neg (by decide)] at zero more
        split at zero
        · cases zero
        · next none => exact more (if_neg none)
      · rw [if_neg (by decide), if_neg (by simp [mark])]
    · cases xs with
      | nil => rfl
      | cons x xs =>
        rw [line x rfl]
        rfl

/-- No fraction starts behind a text where none starts behind the other. -/
lemma fraction {d : Char} {rest : List Char} (point : xs = '.' :: d :: rest) (digit : d.isDigit = true) :
    ∃ e more, cs = '.' :: e :: more ∧ e.isDigit = true := by
  obtain same | ⟨-, line⟩ := h.first
  · rw [point] at same
    obtain ⟨ds, rfl⟩ := List.head?_eq_some_iff.1 same.symm
    obtain ⟨ys, eq, alike⟩ := h.second '.' ds rfl (.inl rfl)
    rw [point] at eq
    obtain ⟨-, rfl⟩ := List.cons.inj eq
    have first := alike.any_head? (by decide) (by decide) (by decide : Char.isDigit ';' = false)
    cases ds with
    | nil => simp [digit] at first
    | cons e more => exact ⟨e, more, rfl, by simpa [digit] using first.symm⟩
  · exact absurd (line '.' (by rw [point]; rfl)) (by decide)

end StandsFor

/-- The number at the front ends where no number goes on. -/
lemma numberLength_take_append {cs xs : List Char} (rest : StandsFor (cs.drop (numberLength cs)) xs) :
    numberLength (cs.take (numberLength cs) ++ xs) = numberLength cs := by
  have whole (ys : List Char) (stop : ∀ y ∈ ys.head?, y.isDigit = false) :
      digitsLength (cs.take (digitsLength cs) ++ ys) = digitsLength cs ∧
        (cs.take (digitsLength cs) ++ ys).drop (digitsLength cs) = ys :=
    ⟨digitsLength_take_append stop,
      List.drop_left' (by rw [List.length_take, Nat.min_eq_left (digitsLength_le cs)])⟩
  by_cases fraction : ∃ d more, cs.drop (digitsLength cs) = '.' :: d :: more ∧ d.isDigit = true
  · obtain ⟨d, more, point, digit⟩ := fraction
    have length : numberLength cs = digitsLength cs + (digitsLength (d :: more) + 1) := by
      simp only [numberLength, point, digit, if_true]
      omega
    rw [length, ← List.drop_drop, point, List.drop_succ_cons] at rest
    have stop := rest.head_isDigit (head?_drop_digitsLength _)
    have part : digitsLength ((d :: more).take (digitsLength (d :: more)) ++ xs) = digitsLength (d :: more) :=
      digitsLength_take_append stop
    obtain ⟨n, hn⟩ : ∃ n, digitsLength (d :: more) = n + 1 := by
      simp [digitsLength, digit]
    rw [hn, List.take_succ_cons, List.cons_append] at part
    obtain ⟨front, behind⟩ := whole ('.' :: d :: (more.take n ++ xs)) (by rintro _ ⟨⟩; rfl)
    rw [length, hn, List.take_add, point, List.take_succ_cons, List.take_succ_cons, List.append_assoc,
      List.cons_append, List.cons_append, numberLength, front, behind]
    simp only [digit, if_true, part]
    omega
  · have length : numberLength cs = digitsLength cs := by
      unfold numberLength
      dsimp only
      split
      · next d more point => exact if_neg fun digit => fraction ⟨d, more, point, digit⟩
      · rfl
    rw [length] at rest ⊢
    obtain ⟨front, behind⟩ := whole xs (rest.head_isDigit (head?_drop_digitsLength cs))
    rw [numberLength, front, behind]
    split
    · next d more =>
      refine if_neg fun digit => fraction ?_
      exact rest.fraction rfl digit
    · rfl

/-! ### Literals and expressions -/

/-- The quote that closes a string is not doubled. -/
lemma head?_drop_stringLength? {quote : Char} {cs : List Char} {n : Nat}
    (h : stringLength? quote cs = some n) : (cs.drop n).head? ≠ some quote := by
  fun_induction stringLength? quote cs generalizing n with
  | case1 => cases h
  | case2 => cases h
  | case3 c feed close =>
    cases h
    simp
  | case4 c feed close d ds again ih =>
    obtain ⟨m, inner, rfl⟩ := Option.map_eq_some_iff.1 h
    exact ih inner
  | case5 c feed close d ds once =>
    cases h
    intro same
    exact once (beq_iff_eq.2 (Option.some.inj same))
  | case6 c cs feed inside ih =>
    obtain ⟨m, inner, rfl⟩ := Option.map_eq_some_iff.1 h
    exact ih inner

/-- An expression is closed by its bracket, whatever stands behind it. -/
lemma exprEnd_take_append {n m : Nat} {stack : List Char} {inside : Option (Char × Nat)} {cs : List Char}
    (h : exprEnd n stack inside cs = .closed m) (xs : List Char) :
    exprEnd n stack inside (cs.take (m - n) ++ xs) = .closed m := by
  have lt := (exprEnd_le h).1
  fun_induction exprEnd n stack inside cs with
  | case1 => cases h
  | case2 => cases h
  | case3 => cases h
  | case4 => cases h
  | case5 n stack c quote before feed close d ds again ih =>
    have lt' := (exprEnd_le h).1
    rw [take_sub_of_lt lt, take_sub_of_lt (by omega), List.cons_append, List.cons_append, exprEnd.eq_def]
    simp only [feed, close, again, Bool.false_eq_true, if_false, if_true, ih h lt']
  | case6 n stack c quote before feed close d ds once ih =>
    have lt' := (exprEnd_le h).1
    have same := ih h lt'
    rw [take_sub_of_lt lt', List.cons_append] at same
    rw [take_sub_of_lt lt, take_sub_of_lt lt', List.cons_append, List.cons_append, exprEnd.eq_def]
    simp only [feed, close, once, Bool.false_eq_true, if_false, if_true, same]
  | case7 n stack c cs quote before feed inside ih =>
    rw [take_sub_of_lt lt, List.cons_append, exprEnd.eq_def]
    simp only [feed, inside, Bool.false_eq_true, if_false, ih h (exprEnd_le h).1]
  | case8 n stack c cs quote ih =>
    rw [take_sub_of_lt lt, List.cons_append, exprEnd.eq_def]
    simp only [quote, if_true, ih h (exprEnd_le h).1]
  | case9 n stack c cs noQuote opening ih =>
    rw [take_sub_of_lt lt, List.cons_append, exprEnd.eq_def]
    simp only [noQuote, opening, Bool.false_eq_true, if_false, if_true, ih h (exprEnd_le h).1]
  | case10 => cases h
  | case11 n c cs noQuote noOpening closing bracket outer same last =>
    rw [take_sub_of_lt lt, List.cons_append, exprEnd.eq_def]
    simp only [noQuote, noOpening, closing, same, last, Bool.false_eq_true, if_false, if_true]
    exact h
  | case12 n c cs noQuote noOpening closing bracket outer same more ih =>
    rw [take_sub_of_lt lt, List.cons_append, exprEnd.eq_def]
    simp only [noQuote, noOpening, closing, same, more, Bool.false_eq_true, if_false, if_true,
      ih h (exprEnd_le h).1]
  | case13 => cases h
  | case14 n stack c cs noQuote noOpening noClosing ih =>
    rw [take_sub_of_lt lt, List.cons_append, exprEnd.eq_def]
    simp only [noQuote, noOpening, noClosing, Bool.false_eq_true, if_false, ih h (exprEnd_le h).1]

/-- Where an expression is open at the end of a line, what decides its end stands behind the line. -/
lemma le_place_of_unclosed {n before : Nat} {stack : List Char} {inside : Option (Char × Nat)}
    {cs after : List Char} (line : EndsLine cs) (string : inside.isSome = true → cs ≠ [])
    (unclosed : exprEnd n stack inside cs = .unclosed)
    (h : (exprEnd n stack inside (cs ++ after)).place? = some before) : n + cs.length ≤ before := by
  fun_induction exprEnd n stack inside cs with
  | case1 => exact absurd rfl (string rfl)
  | case2 n stack =>
    obtain ⟨_, ⟨⟩⟩ | ⟨_, le, -⟩ := place_exprEnd h
    exact le
  | case3 => cases unclosed
  | case4 n stack c quote place feed close => exact absurd (line c rfl) (by simpa using feed)
  | case5 n stack c quote place feed close d ds again ih =>
    have rest : '\n' ∈ ds := by
      have := line.feed_mem (by simpa using feed)
      grind
    rw [List.cons_append, List.cons_append, exprEnd.eq_def] at h
    simp only [feed, close, again, Bool.false_eq_true, if_false, if_true] at h
    have le := ih line.tail.tail (fun _ => List.ne_nil_of_mem rest) unclosed h
    simp only [List.length_cons]
    omega
  | case6 n stack c quote place feed close d ds once ih =>
    rw [List.cons_append, List.cons_append, exprEnd.eq_def] at h
    simp only [feed, close, once, Bool.false_eq_true, if_false, if_true] at h
    have le := ih line.tail (fun none => absurd none Bool.false_ne_true) unclosed h
    rw [List.length_cons]
    omega
  | case7 n stack c cs quote place feed inside ih =>
    have rest := line.feed_mem (by simpa using feed)
    rw [List.cons_append, exprEnd.eq_def] at h
    simp only [feed, inside, Bool.false_eq_true, if_false] at h
    have le := ih line.tail (fun _ => List.ne_nil_of_mem rest) unclosed h
    rw [List.length_cons]
    omega
  | case8 n stack c cs quote ih =>
    have rest : '\n' ∈ cs := line.feed_mem (by rintro rfl; simp at quote)
    rw [List.cons_append, exprEnd.eq_def] at h
    simp only [quote, if_true] at h
    have le := ih line.tail (fun _ => List.ne_nil_of_mem rest) unclosed h
    rw [List.length_cons]
    omega
  | case9 n stack c cs noQuote opening ih =>
    rw [List.cons_append, exprEnd.eq_def] at h
    simp only [noQuote, opening, Bool.false_eq_true, if_false, if_true] at h
    have le := ih line.tail (fun none => absurd none Bool.false_ne_true) unclosed h
    rw [List.length_cons]
    omega
  | case10 => cases unclosed
  | case11 => cases unclosed
  | case12 n c cs noQuote noOpening closing bracket outer same more ih =>
    rw [List.cons_append, exprEnd.eq_def] at h
    simp only [noQuote, noOpening, closing, same, more, Bool.false_eq_true, if_false, if_true] at h
    have le := ih line.tail (fun none => absurd none Bool.false_ne_true) unclosed h
    rw [List.length_cons]
    omega
  | case13 => cases unclosed
  | case14 n stack c cs noQuote noOpening noClosing ih =>
    rw [List.cons_append, exprEnd.eq_def] at h
    simp only [noQuote, noOpening, noClosing, Bool.false_eq_true, if_false] at h
    have le := ih line.tail (fun none => absurd none Bool.false_ne_true) unclosed h
    rw [List.length_cons]
    omega

/-! ### Steps -/

section Steps
variable {opens : Bool} {c : Char} {cs xs : List Char}

lemma step_colon (name : startsName cs = true) :
    step opens ':' cs =
      .token .entity (String.ofList (cs.take (nameLength cs))) (nameLength cs) := by
  have space : Text.isSpace ':' = false := by decide
  simp [step, space, name]

lemma step_sigil (cardinality : Cardinality) (name : startsName cs = true) :
    step opens cardinality.sigil ('.' :: cs) =
      .token (.field cardinality) (String.ofList (cs.take (nameLength cs))) (nameLength cs + 1) := by
  have space : Text.isSpace cardinality.sigil = false := by cases cardinality <;> decide
  have sigil : Cardinality.ofSigil? cardinality.sigil = some cardinality := by cases cardinality <;> rfl
  have other : cardinality.sigil ≠ '#' ∧ cardinality.sigil ≠ ';' ∧ cardinality.sigil ≠ ':' := by
    cases cardinality <;> decide
  simp [step, space, sigil, other, name]

lemma step_quote {n : Nat} (quote : c = '\'' ∨ c = '"') (found : stringLength? c cs = some n) :
    step opens c cs = .token .string (String.ofList (c :: cs.take n)) n := by
  have space : Text.isSpace '\'' = false ∧ Text.isSpace '"' = false := by decide
  rcases quote with rfl | rfl <;> simp [step, space, Cardinality.ofSigil?, found]

lemma step_bracket : step opens '[' cs = listStep cs := by
  have space : Text.isSpace '[' = false := by decide
  simp [step, space, Cardinality.ofSigil?]

lemma step_nameStart (start : isNameStart c = true) :
    step opens c cs = .token (nameToken (c :: cs.take (nameLength cs)))
      (String.ofList (c :: cs.take (nameLength cs))) (nameLength cs) := by
  have space : Text.isSpace c = false := isSpace_of_isNamePart (by simp [isNamePart, start])
  obtain ⟨comment, semicolon, colon, quote, double, bracket, parenthesis, sigil⟩ :=
    mark_of_isNameStart start
  simp [step, space, comment, semicolon, colon, quote, double, bracket, parenthesis, sigil, start]

lemma step_digit (digit : c.isDigit = true) :
    step opens c cs = .token .number (String.ofList (c :: cs.take (numberLength (c :: cs) - 1)))
      (numberLength (c :: cs) - 1) := by
  have table : ∀ d : Char, d.toNat < 0x80 → d.isDigit = true → Text.isSpace d = false ∧ d ≠ '#' ∧
      d ≠ ';' ∧ d ≠ ':' ∧ d ≠ '\'' ∧ d ≠ '"' ∧ d ≠ '[' ∧ d ≠ '(' ∧ Cardinality.ofSigil? d = none ∧
        isNameStart d = false := Text.forall_ascii (by decide)
  have small : c.toNat < 0x80 := by
    have bounds := Char.isDigit_iff_toNat.1 digit
    have nine : '9'.toNat < 0x80 := by decide
    omega
  obtain ⟨space, comment, semicolon, colon, quote, double, bracket, parenthesis, sigil, name⟩ :=
    table c small digit
  simp [step, space, comment, semicolon, colon, quote, double, bracket, parenthesis, sigil, name, digit]

/-- A choice that does not give what its first branch gives is the second branch. -/
lemma of_ite_eq {α : Type} {p : Prop} [Decidable p] {a b r : α} (h : (if p then a else b) = r) (ne : a ≠ r) :
    ¬p ∧ b = r :=
  (ite_eq_iff.1 h).resolve_left fun taken => ne taken.2

/-- A character that is a token on its own is one in front of any text that starts alike. -/
lemma step_symbol_congr {spelling : String} {more : Nat}
    (h : step opens c cs = .token .symbol spelling more) (rest : StandsFor cs xs) :
    step opens c xs = .token .symbol spelling more := by
  have point : (xs.head? == some '.') = (cs.head? == some '.') := by
    have head (ys : List Char) : (ys.head? == some '.') = ys.head?.any (· == '.') := by cases ys <;> simp
    rw [head, head, rest.first.any_head? (by decide) (by decide) (by decide)]
  have name : xs.head? = some '.' → startsName (xs.drop 1) = startsName (cs.drop 1) := by
    intro first
    rw [beq_iff_eq.2 first] at point
    obtain ⟨ds, rfl⟩ := List.head?_eq_some_iff.1 (beq_iff_eq.1 point.symm)
    obtain ⟨ys, rfl, alike⟩ := rest.second '.' ds rfl (.inl rfl)
    exact alike.startsName_eq
  unfold step at h ⊢
  dsimp only at h ⊢
  obtain ⟨space, h⟩ := of_ite_eq h (by simp)
  obtain ⟨comment, h⟩ := of_ite_eq h (by simp)
  obtain ⟨entity, h⟩ := of_ite_eq h (by simp)
  obtain ⟨field, h⟩ := of_ite_eq h (by simp)
  have comment' : ¬(c == '#' || (c == ';' && xs.head? == some ';')) = true := by
    simp only [Bool.or_eq_true, Bool.and_eq_true, beq_iff_eq, not_or, not_and] at comment ⊢
    exact ⟨comment.1, fun semicolon => rest.first.head_ne (by decide) (comment.2 semicolon)⟩
  have field' : ¬((Cardinality.ofSigil? c).isSome && xs.head? == some '.' && startsName (xs.drop 1)) =
      true := by
    intro marked
    simp only [Bool.and_eq_true, beq_iff_eq] at marked field
    rw [name marked.1.2] at marked
    refine field ⟨⟨marked.1.1, ?_⟩, marked.2⟩
    rw [beq_iff_eq.2 marked.1.2] at point
    exact beq_iff_eq.1 point.symm
  rw [if_neg space, if_neg comment', rest.first.startsName_eq, if_neg entity, if_neg field']
  obtain ⟨string, h⟩ := of_ite_eq h (by split <;> simp [faultAt])
  obtain ⟨list, h⟩ := of_ite_eq h (by rw [listStep]; split <;> simp [faultAt])
  obtain ⟨expr, h⟩ := of_ite_eq h (by rw [exprStep]; split <;> simp [faultAt])
  obtain ⟨start, h⟩ := of_ite_eq h (by rw [nameToken]; split <;> simp)
  obtain ⟨digit, h⟩ := of_ite_eq h (by simp)
  rw [if_neg string, if_neg list, if_neg expr, if_neg start, if_neg digit]
  exact h

/-- A step makes the same token in front of a text that starts as the rest does. -/
lemma step_token_congr {kind : Token.Kind} {spelling : String} {more : Nat}
    (h : step opens c cs = .token kind spelling more) (rest : StandsFor (cs.drop more) xs) :
    step opens c (cs.take more ++ xs) = .token kind spelling more := by
  have taken : more ≤ cs.length := (inside_of_step h).1
  have front {n : Nat} (le : n ≤ more) : (cs.take more ++ xs).take n = cs.take n := by
    rw [List.take_append_of_le_length (by rw [List.length_take]; omega), List.take_take,
      Nat.min_eq_left le]
  cases takes_of_step h with
  | entity colon name =>
    have length := nameLength_take_append (rest.nameLength_eq_zero (nameLength_drop cs)) cs
    rw [colon, step_colon (startsName_take_append (nameLength_pos_of_startsName name) name xs), length,
      front le_rfl]
  | @field cardinality ds sigil behind name =>
    subst behind
    rw [List.drop_succ_cons] at rest
    have length := nameLength_take_append (rest.nameLength_eq_zero (nameLength_drop ds)) ds
    have same := front (Nat.le_refl (nameLength ds + 1))
    rw [List.take_succ_cons, List.cons_append] at same ⊢
    rw [List.take_succ_cons] at same
    rw [sigil, step_sigil cardinality (startsName_take_append (nameLength_pos_of_startsName name) name xs),
      length, (List.cons.inj same).2]
  | string quote found =>
    have stop : xs.head? ≠ some c := by
      refine rest.first.head_ne ?_ (head?_drop_stringLength? found)
      rcases quote with rfl | rfl <;> decide
    rw [step_quote quote (stringLength?_take_append found stop), front le_rfl]
  | list bracket closed =>
    have same := listEnd_take_append closed xs
    rw [Nat.sub_zero] at same
    rw [bracket, step_bracket, listStep, same]
    dsimp only
    rw [front le_rfl]
  | expr opening opens closed =>
    have same := exprEnd_take_append closed xs
    rw [Nat.sub_zero] at same
    subst opens
    rw [opening, step_of_opens, exprStep, same]
    dsimp only
    rw [front (Nat.sub_le _ _)]
  | keyword start found =>
    have length := nameLength_take_append (rest.nameLength_eq_zero (nameLength_drop cs)) cs
    rw [step_nameStart start, length, front le_rfl, nameToken, found]
  | identifier start none =>
    have length := nameLength_take_append (rest.nameLength_eq_zero (nameLength_drop cs)) cs
    rw [step_nameStart start, length, front le_rfl, nameToken, none]
  | number digit =>
    obtain ⟨n, hn⟩ : ∃ n, numberLength (c :: cs) = n + 1 :=
      Nat.exists_eq_add_one_of_ne_zero (numberLength_pos digit cs).ne'
    have length : numberLength ((c :: cs).take (numberLength (c :: cs)) ++ xs) = numberLength (c :: cs) := by
      refine numberLength_take_append ?_
      rw [hn] at rest ⊢
      exact rest
    rw [hn, Nat.add_sub_cancel] at front ⊢
    rw [hn, List.take_succ_cons, List.cons_append] at length
    rw [step_digit digit, length, Nat.add_sub_cancel, front le_rfl]
  | symbol space =>
    rw [List.take_zero, List.nil_append]
    exact step_symbol_congr h rest

/-- Only an expression that is never closed gives the fault for it. -/
lemma unclosed_of_step {before more : Nat} (h : step opens c cs = .fault .openExpression before more) :
    c = '(' ∧ opens = true ∧ exprEnd 0 ['('] none cs = .unclosed := by
  generalize found : Step.fault .openExpression before more = s at h
  cases takes_of_step h with
  | openList _ kind =>
    cases found
    rcases kind with kind | kind <;> cases kind
  | openExpr opening opens inner =>
    cases found
    refine ⟨opening, opens, ?_⟩
    unfold exprStep at inner
    split at inner <;> first | assumption | cases inner
  | _ => cases found

/-- What is at fault in an expression stands in front of the place of the fault. -/
lemma place_of_exprStep {fault : ScanFault} {before more : Nat} (h : exprStep cs = .fault fault before more)
    (other : fault ≠ .openExpression) :
    ∃ place, (exprEnd 0 ['('] none cs).place? = some place ∧ place < before := by
  unfold exprStep at h
  split at h
  · cases h
  · cases h
    exact absurd rfl other
  · next place openString =>
    cases h
    exact ⟨place, by rw [openString]; rfl, Nat.lt_succ_self _⟩
  · next place bracket unexpected =>
    cases h
    exact ⟨place, by rw [unexpected]; rfl, Nat.lt_succ_self _⟩

/-- A step reports the same fault in front of a text that starts as the rest does. -/
lemma step_fault_congr {fault : ScanFault} {before more : Nat}
    (h : step opens c cs = .fault fault before more) (rest : StartsAlike (cs.drop more) xs) :
    step opens c (cs.take more ++ xs) = .fault fault before more := by
  cases split : cs.drop more with
  | nil =>
    have whole := List.take_append_drop more cs
    rw [split] at whole
    rw [rest.eq_nil split, whole]
    exact h
  | cons d below =>
    obtain ⟨-, -, rfl⟩ | ⟨other, le, -, feed⟩ := resume_of_step h
    · rw [List.drop_length] at split
      cases split
    obtain rfl : d = '\n' := feed d (by rw [split]; rfl)
    rw [split] at rest
    obtain ⟨ys, rfl⟩ : ∃ ys, xs = '\n' :: ys := by
      obtain same | ⟨comment, -⟩ := rest
      · exact List.head?_eq_some_iff.1 same
      · cases comment
    -- the step stays in front of the end of the line, with which both texts go on
    have short : more < cs.length := by
      by_contra long
      rw [List.drop_eq_nil_of_le (Nat.le_of_not_lt long)] at split
      cases split
    have line : EndsLine (cs.take more ++ ['\n']) := .of_getLast? List.getLast?_concat
    have line' : EndsLine (c :: (cs.take more ++ ['\n'])) :=
      .of_getLast? (by rw [← List.cons_append, List.getLast?_concat])
    have cut : cs = cs.take more ++ ['\n'] ++ below := by
      rw [List.append_assoc, List.singleton_append, ← split, List.take_append_drop]
    have closed : ∀ b m, step opens c (cs.take more ++ ['\n']) ≠ .fault .openExpression b m := by
      intro b m unclosed
      obtain ⟨rfl, rfl, open_⟩ := unclosed_of_step unclosed
      rw [step_of_opens] at h
      obtain ⟨place, found, lt⟩ := place_of_exprStep h other
      rw [cut] at found
      have beyond := le_place_of_unclosed line (by simp) open_ found
      rw [List.length_append, List.length_take, Nat.min_eq_left short.le, List.length_singleton] at beyond
      omega
    have same := step_append line' closed
    rw [List.append_cons, same, ← same below, ← cut]
    exact h

end Steps

end ErdSql.Scan
