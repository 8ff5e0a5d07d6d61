import ErdSql.Proofs.Balance

/-!
# The grammar of balanced expressions

The test of balance reads an expression once, with a count of the open parentheses and the quote it is
inside of. The grammar of balanced expressions says the same without counting. What the test accepts with
some parentheses open is a row of balanced expressions with a closing parenthesis behind each but the last.

* `Check.Closes`: a text that closes so many parentheses.
* `Check.Balanced.balancedFrom_append`: the test passes over a balanced expression.
* `Check.accepted_of_balancedFrom`: what the test accepts closes the open parentheses.
* `Check.balanced_iff`: the test accepts the language of the grammar.
-/

namespace ErdSql.Check

/-! ### What the grammar generates is accepted -/

section Steps
variable (depth : Nat) (bs : List UInt8)

lemma balancedFrom_opening : balancedFrom depth none (0x28 :: bs) = balancedFrom (depth + 1) none bs := by
  rw [balancedFrom.eq_def]
  rfl

/-- A text in quotes is passed over. -/
lemma balancedFrom_enclosed {q : UInt8} (quote : isQuote q = true) {text : List UInt8} (h : q ∉ text) :
    balancedFrom depth none (q :: (text ++ q :: bs)) = balancedFrom depth none bs := by
  rw [balancedFrom_quote _ _ quote, balancedFrom_quoted h, balancedFrom_quoted_cons,
    if_pos (beq_self_eq_true q)]

end Steps

/-- A balanced expression is passed over, whatever stands behind it and around it. -/
lemma Balanced.balancedFrom_append {front : List UInt8} (h : Balanced front) (depth : Nat)
    (bs : List UInt8) : balancedFrom depth none (front ++ bs) = balancedFrom depth none bs := by
  induction h generalizing depth bs with
  | nil => rfl
  | @plain b rest noQuote noOpening noClosing _ ih =>
    have plain : isPlain b = true := by
      simp [isPlain, noQuote, noOpening, noClosing]
    rw [List.cons_append, balancedFrom_plain_cons _ _ plain]
    exact ih depth bs
  | @paren inner rest _ _ ihInner ihRest =>
    rw [List.append_assoc, List.cons_append, List.cons_append, balancedFrom_opening, ihInner,
      balancedFrom_closing]
    exact ihRest depth bs
  | @quoted q text rest quote absent _ ih =>
    rw [List.append_assoc, List.cons_append, List.cons_append, balancedFrom_enclosed _ _ quote absent]
    exact ih depth bs

/-! ### What is accepted is generated by the grammar -/

/-- A text that closes `depth` parentheses opened in front of it: balanced expressions, each but the last
with a closing parenthesis behind it. -/
inductive Closes : Nat → List UInt8 → Prop where
  | done {bs : List UInt8} :
    Balanced bs →
    Closes 0 bs
  | closing {depth : Nat} {inner rest : List UInt8} :
    Balanced inner →
    Closes depth rest →
    Closes (depth + 1) (inner ++ 0x29 :: rest)

namespace Closes

variable {depth : Nat} {bs : List UInt8}

/-- What may stand in front of every balanced expression may stand in front of what closes
parentheses. -/
lemma prepend (front : List UInt8) (h : ∀ rest, Balanced rest → Balanced (front ++ rest))
    (closes : Closes depth bs) : Closes depth (front ++ bs) := by
  cases closes with
  | done balanced => exact .done (h _ balanced)
  | closing inner rest =>
    rw [← List.append_assoc]
    exact .closing (h _ inner) rest

lemma plain {b : UInt8} (noQuote : isQuote b = false) (noOpening : b ≠ 0x28) (noClosing : b ≠ 0x29)
    (closes : Closes depth bs) : Closes depth (b :: bs) :=
  closes.prepend [b] fun _ => .plain noQuote noOpening noClosing

lemma quoted {q : UInt8} (quote : isQuote q = true) {text : List UInt8} (h : q ∉ text)
    (closes : Closes depth bs) : Closes depth (q :: text ++ q :: bs) := by
  have whole := closes.prepend (q :: text ++ [q]) fun rest balanced => by
    rw [List.append_assoc]
    exact .quoted quote h balanced
  rwa [List.append_assoc] at whole

/-- An opening parenthesis takes the first of the closing ones. -/
lemma opening (closes : Closes (depth + 1) bs) : Closes depth (0x28 :: bs) := by
  cases closes with
  | @closing _ inner rest balanced closes =>
    have whole := closes.prepend (0x28 :: inner ++ [0x29]) fun rest after => by
      rw [List.append_assoc]
      exact .paren balanced after
    rwa [List.append_assoc] at whole

end Closes

/-- What may stand behind the start of an expression, with `depth` parentheses open. Inside quotes the
closing quote comes first. -/
def Accepted (depth : Nat) : Option UInt8 → List UInt8 → Prop
  | none, bs => Closes depth bs
  | some q, bs => ∃ text rest, q ∉ text ∧ bs = text ++ q :: rest ∧ Closes depth rest

/-- The induction follows the test byte by byte; what is behind a byte is accepted in the state behind
it. -/
lemma accepted_of_balancedFrom {depth : Nat} {quote : Option UInt8} {bs : List UInt8}
    (h : balancedFrom depth quote bs = true) : Accepted depth quote bs := by
  fun_induction balancedFrom depth quote bs with
  | case1 depth quote =>
    obtain ⟨zero, outside⟩ : depth = 0 ∧ quote = none := by simpa using h
    rw [zero, outside]
    exact .done .nil
  | case2 depth b bs q ih =>
    have behind := ih h
    by_cases same : b = q
    · rw [if_pos (beq_iff_eq.2 same)] at behind
      exact ⟨[], bs, List.not_mem_nil, by rw [same]; rfl, behind⟩
    · rw [if_neg (by simpa using same)] at behind
      obtain ⟨text, rest, absent, rfl, closes⟩ := behind
      exact ⟨b :: text, rest, by simp [absent, Ne.symm same], rfl, closes⟩
  | case3 depth b bs quote ih =>
    obtain ⟨text, rest, absent, rfl, closes⟩ := ih h
    exact closes.quoted quote absent
  | case4 depth b bs _ opening ih =>
    obtain rfl := eq_of_beq opening
    exact Closes.opening (ih h)
  | case5 => cases h
  | case6 b bs _ _ closing depth ih =>
    obtain rfl := eq_of_beq closing
    exact .closing .nil (ih h)
  | case7 depth b bs noQuote noOpening noClosing ih =>
    have plain : Closes depth bs := ih h
    exact plain.plain (by simpa using noQuote) (by simpa using noOpening) (by simpa using noClosing)

/-- **Balance is the language of its grammar.** The test of balance accepts an expression exactly if the
grammar generates it: nothing; a byte that is neither parenthesis nor quote, in front of a balanced
expression; a balanced expression in parentheses, in front of another one; a text in single or double
quotes that has no such quote, in front of one. -/
theorem balanced_iff (bs : List UInt8) : balanced bs = true ↔ Balanced bs := by
  constructor
  · intro accepted
    have closes : Closes 0 bs := accepted_of_balancedFrom accepted
    cases closes with
    | done balanced => exact balanced
  · intro balanced
    have passed := balanced.balancedFrom_append 0 []
    rw [List.append_nil] at passed
    rw [Check.balanced, passed]
    rfl

/-- A parenthesis in quotes does not count, and a quote inside the other ones does not close them. -/
example : balanced (Text.bytes "(a || ')') = \"it's (\"") = true := by
  decide

end ErdSql.Check
