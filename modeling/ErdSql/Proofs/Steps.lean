import ErdSql.Proofs.Grammar

/-!
# What a step of the scanner can do

The relation says everything that a step can do with the text in front, and when it does so. What holds
of every step is shown by the cases of the relation.

* `Scan.takes_step`: the step takes what the relation says.
-/

namespace ErdSql.Scan

lemma sigil_of_ofSigil? {c : Char} {cardinality : Cardinality}
    (h : Cardinality.ofSigil? c = some cardinality) : cardinality.sigil = c := by
  unfold Cardinality.ofSigil? at h
  split at h
  · next dollar =>
    cases h
    exact (beq_iff_eq.1 dollar).symm
  split at h
  · next arobase =>
    cases h
    exact (beq_iff_eq.1 arobase).symm
  split at h
  · next percent =>
    cases h
    exact (beq_iff_eq.1 percent).symm
  · cases h

/-- What a step does with the text `c :: cs`, and when. -/
inductive Takes (opens : Bool) (c : Char) (cs : List Char) : Step → Prop where
  | space :
    Text.isSpace c = true →
    Takes opens c cs (.skip 0)
  | comment :
    c = '#' ∨ c = ';' ∧ cs.head? = some ';' →
    Takes opens c cs (.skip (lineLength cs))
  | entity :
    c = ':' →
    startsName cs = true →
    Takes opens c cs (.token .entity (String.ofList (cs.take (nameLength cs))) (nameLength cs))
  | field {cardinality rest} :
    c = cardinality.sigil →
    cs = '.' :: rest →
    startsName rest = true →
    Takes opens c cs
      (.token (.field cardinality) (String.ofList (rest.take (nameLength rest))) (nameLength rest + 1))
  | string {n} :
    c = '\'' ∨ c = '"' →
    stringLength? c cs = some n →
    Takes opens c cs (.token .string (String.ofList (c :: cs.take n)) n)
  | openString :
    c = '\'' ∨ c = '"' →
    stringLength? c cs = none →
    Takes opens c cs (faultAt .openString 0 cs)
  | list {n} :
    c = '[' →
    listEnd 0 0 none cs = .closed n →
    Takes opens c cs (.token .list (String.ofList (c :: cs.take n)) n)
  | openList {fault} :
    c = '[' →
    fault = .openList ∨ fault = .openStringInList →
    Takes opens c cs (faultAt fault 0 cs)
  | expr {n} :
    c = '(' →
    opens = true →
    exprEnd 0 ['('] none cs = .closed n →
    Takes opens c cs (.token .expr (String.ofList (Text.trimChars (cs.take (n - 1)))) n)
  | openExpr {fault before more} :
    c = '(' →
    opens = true →
    exprStep cs = .fault fault before more →
    Takes opens c cs (.fault fault before more)
  | keyword {k} :
    isNameStart c = true →
    Keyword.ofText? (String.ofList (c :: cs.take (nameLength cs))) = some k →
    Takes opens c cs
      (.token (.keyword k) (String.ofList (c :: cs.take (nameLength cs))) (nameLength cs))
  | identifier :
    isNameStart c = true →
    Keyword.ofText? (String.ofList (c :: cs.take (nameLength cs))) = none →
    Takes opens c cs
      (.token .identifier (String.ofList (c :: cs.take (nameLength cs))) (nameLength cs))
  | number :
    c.isDigit = true →
    Takes opens c cs (.token .number (String.ofList (c :: cs.take (numberLength (c :: cs) - 1)))
      (numberLength (c :: cs) - 1))
  | symbol :
    Text.isSpace c = false →
    Takes opens c cs (.token .symbol (String.singleton c) 0)

lemma takes_exprStep (cs : List Char) : Takes true '(' cs (exprStep cs) := by
  cases found : exprEnd 0 ['('] none cs with
  | closed n =>
    have closed : exprStep cs =
        .token .expr (String.ofList (Text.trimChars (cs.take (n - 1)))) n := by
      rw [exprStep, found]
    rw [closed]
    exact .expr rfl rfl found
  | _ =>
    obtain ⟨fault, before, more, e⟩ : ∃ fault before more, exprStep cs = .fault fault before more := by
      rw [exprStep, found]
      exact ⟨_, _, _, rfl⟩
    rw [e]
    exact .openExpr rfl rfl e

/-- A step does what the relation says. -/
lemma takes_step (opens : Bool) (c : Char) (cs : List Char) : Takes opens c cs (step opens c cs) := by
  unfold step
  dsimp only
  refine iteInduction .space fun noSpace => ?_
  refine iteInduction (fun mark => ?_) fun _ => ?_
  · rw [Bool.or_eq_true, Bool.and_eq_true, beq_iff_eq, beq_iff_eq, beq_iff_eq] at mark
    exact .comment mark
  refine iteInduction (fun colon => ?_) fun _ => ?_
  · rw [Bool.and_eq_true, beq_iff_eq] at colon
    exact .entity colon.1 colon.2
  refine iteInduction (fun sigil => ?_) fun _ => ?_
  · rw [Bool.and_eq_true, Bool.and_eq_true, beq_iff_eq] at sigil
    obtain ⟨⟨isSigil, dot⟩, name⟩ := sigil
    obtain ⟨cardinality, marked⟩ := Option.isSome_iff_exists.1 isSigil
    obtain ⟨rest, rfl⟩ := List.head?_eq_some_iff.1 dot
    rw [marked]
    exact .field (sigil_of_ofSigil? marked).symm rfl name
  refine iteInduction (fun quote => ?_) fun _ => ?_
  · rw [Bool.or_eq_true, beq_iff_eq, beq_iff_eq] at quote
    split
    · next found => exact .string quote found
    · next none => exact .openString quote none
  refine iteInduction (fun bracket => ?_) fun _ => ?_
  · obtain rfl := beq_iff_eq.1 bracket
    unfold listStep
    split
    · next closed => exact .list rfl closed
    · exact .openList rfl (.inr rfl)
    · exact .openList rfl (.inl rfl)
  refine iteInduction (fun parenthesis => ?_) fun _ => ?_
  · obtain ⟨rfl, rfl⟩ : c = '(' ∧ opens = true := by simpa using parenthesis
    exact takes_exprStep cs
  refine iteInduction (fun start => ?_) fun _ => ?_
  · unfold nameToken
    split
    · next found => exact .keyword start found
    · next none => exact .identifier start none
  exact iteInduction .number fun _ => .symbol (Bool.eq_false_iff.2 noSpace)

/-- What is known of a step is known of what the relation says. -/
lemma takes_of_step {opens : Bool} {c : Char} {cs : List Char} {s : Step} (h : step opens c cs = s) :
    Takes opens c cs s :=
  h ▸ takes_step opens c cs

end ErdSql.Scan
