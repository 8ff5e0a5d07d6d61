import ErdSql.Compilation
import ErdSql.Proofs.Lexemes

/-!
# Plugin blocks have handlers

A block is read with the handler of its keyword and kept under the keyword in upper case. Upper case is
stable, so the same handler is found when the block is written, and a script is missing only where a
handler refuses to write.

* `Text.upper_upper`: a text in upper case stays as it is.
* `Document.exists_handler_of_mem_readStatements`: the handler of a block is registered.
* `Ddl.exists_error_generate_iff`: what makes generation fail.
-/

namespace ErdSql

namespace Text

/-! ### Upper case is stable -/

namespace CaseRun

/-- The first code point that a row gives. -/
def low (r : CaseRun) : Nat := (r.first + r.shift).toNat

/-- The last code point that a row gives. -/
def high (r : CaseRun) : Nat := (r.last + r.shift).toNat

/-- Whether a row gives no code point that the other row speaks about: the ranges are apart, or the
other row speaks about every second code point only. -/
def avoids (r s : CaseRun) : Bool :=
  Nat.blt r.high s.first || Nat.blt s.last r.low ||
    (s.step == 2 && (r.step == 2 || r.first == r.last) && (r.low + s.first) % 2 == 1)

/-- Whether the code points that a row gives are characters that stay as they are: upper-case ASCII
letters, or characters that no row speaks about. -/
def settles (runs : List CaseRun) (r : CaseRun) : Bool :=
  if r.high < 0x80 then r.first == r.last && decide (0x41 ≤ r.low) && decide (r.low ≤ 0x5a)
  else decide (0x80 ≤ r.low) && runs.all r.avoids &&
    (decide (r.high < 0xd800) || (decide (0xdfff < r.low) && decide (r.high < 0x110000)))

variable {r s : CaseRun} {n m : Nat}

/-- Which code points a row speaks about, and where it sends them. -/
lemma sends_iff : r.apply? n = some m ↔
    r.first ≤ n ∧ n ≤ r.last ∧ (n - r.first) % r.step = 0 ∧ m = (n + r.shift).toNat := by
  unfold CaseRun.apply?
  rw [Option.ite_none_right_eq_some, Option.some.injEq, eq_comm (a := m)]
  simp [and_assoc]

/-- A row does not speak about what a row gives that avoids it. -/
lemma none_of_avoids (h : r.avoids s = true) (given : r.apply? n = some m) (pos : 0 < r.low) :
    s.apply? m = none := by
  obtain ⟨low, high, steps, rfl⟩ := sends_iff.1 given
  rw [Option.eq_none_iff_forall_ne_some]
  intro k found
  obtain ⟨low', high', steps', -⟩ := sends_iff.1 found
  simp only [avoids, Bool.or_eq_true, Nat.blt_eq, Bool.and_eq_true, beq_iff_eq] at h
  rw [CaseRun.low] at h pos
  rw [CaseRun.high] at h
  rcases h with (below | above) | ⟨⟨two, same⟩, parity⟩
  · omega
  · omega
  · rw [two] at steps'
    rcases same with two' | point
    · rw [two'] at steps
      omega
    · omega

end CaseRun

/-- Every row of the table gives characters that stay as they are. -/
lemma settles_upperRuns : upperRuns.toList.all (CaseRun.settles upperRuns.toList) = true := by
  decide +kernel

/-- What a row of the table gives stays as it is. -/
lemma upperChar_of_sends {r : CaseRun} {n m : Nat} (mem : r ∈ upperRuns) (given : r.apply? n = some m) :
    upperChar (Char.ofNat m) = Char.ofNat m := by
  have settled := List.all_eq_true.1 settles_upperRuns r (Array.mem_toList_iff.2 mem)
  obtain ⟨low, high, -, image⟩ := CaseRun.sends_iff.1 given
  rw [CaseRun.settles, CaseRun.low, CaseRun.high] at settled
  split at settled
  · have table : ∀ k : Fin 26, upperChar (Char.ofNat (0x41 + k)) = Char.ofNat (0x41 + k) := by
      decide
    simp only [Bool.and_eq_true, beq_iff_eq, decide_eq_true_eq] at settled
    have letter := table ⟨m - 0x41, by omega⟩
    have eq : 0x41 + (m - 0x41) = m := by omega
    rwa [eq] at letter
  · simp only [Bool.and_eq_true, Bool.or_eq_true, decide_eq_true_eq] at settled
    obtain ⟨⟨beyond, avoids⟩, valid⟩ := settled
    have number : (Char.ofNat m).toNat = m := by
      rw [Char.toNat_ofNat, if_pos]
      unfold Nat.isValidChar
      omega
    have none : upperRuns.findSome? (fun s => s.apply? m) = none := by
      rw [← Array.findSome?_toList, List.findSome?_eq_none_iff]
      intro s hs
      exact CaseRun.none_of_avoids (List.all_eq_true.1 avoids s hs) given (by rw [CaseRun.low]; omega)
    rw [upperChar, number, if_neg (by omega), mapCase, number, none]

/-- A character in upper case stays as it is. -/
lemma upperChar_upperChar (c : Char) : upperChar (upperChar c) = upperChar c := by
  by_cases ascii : c.toNat < 0x80
  · exact forall_ascii (p := fun c => upperChar (upperChar c) = upperChar c) (by decide) c ascii
  · have image : upperChar c = mapCase upperRuns c := if_neg ascii
    cases found : upperRuns.findSome? fun r => r.apply? c.toNat with
    | none =>
      have same : upperChar c = c := by rw [image, mapCase, found]
      rw [same, same]
    | some m =>
      obtain ⟨r, mem, given⟩ := Array.exists_of_findSome?_eq_some found
      have moved : upperChar c = Char.ofNat m := by rw [image, mapCase, found]
      rw [moved]
      exact upperChar_of_sends mem given

/-- A text in upper case stays as it is. -/
lemma upper_upper (s : String) : upper (upper s) = upper s := by
  simp [upper, upperChar_upperChar, Function.comp_def]

end Text

namespace Plugin.Registry

/-- A keyword in upper case has the handler of the keyword. -/
lemma lookup_upper (r : Registry) (keyword : String) :
    r.lookup (Text.upper keyword) = r.lookup keyword := by
  rw [lookup, Text.upper_upper, lookup]

end Plugin.Registry

/-! ### Reading blocks -/

namespace Document

/-- A statement that was read is what the reader gave. -/
lemma StatementResult.of_ofParsed {α : Type} {wrap : α → Statement} {outcome : Parsed α}
    {st : Statement} (h : (ofParsed wrap outcome).statement = some st) :
    ∃ a after, outcome = .ok a after ∧ wrap a = st := by
  cases outcome with
  | ok a after => exact ⟨a, after, rfl, Option.some.inj h⟩
  | error e stopped => cases h

/-- A block has its keyword in upper case, and is what its handler read. -/
lemma blockStatement_ok {src : Source} {handler : Plugin.Handler} {head : Token} {c after : Cursor}
    {b : Block} (h : blockStatement src handler head c = .ok b after) :
    b.block.keyword = Text.upper head.spelling ∧ handler.parse b.block = .ok b.node := by
  let block : Plugin.Block :=
    ⟨Text.upper head.spelling, verbatim src c.rest, Span.between head c.skipAll.previous⟩
  change handledBlock handler head block c.skipAll = .ok b after at h
  rw [handledBlock] at h
  cases parsed : handler.parse block with
  | ok node =>
    rw [parsed] at h
    cases h
    exact ⟨rfl, parsed⟩
  | error reason =>
    rw [parsed] at h
    cases h

section Blocks
variable {src : Source} {plugins : Plugin.Registry} {b : Block}

lemma exists_handler_of_readStatement {recovering atEnd : Bool} {head : Token} {tokens : List Token}
    (h : (readStatement src plugins recovering head tokens atEnd).statement = some (.block b)) :
    ∃ handler, plugins.lookup b.block.keyword = some handler ∧ handler.parse b.block = .ok b.node := by
  unfold readStatement at h
  dsimp only at h
  split at h
  · cases h
  · obtain ⟨_, _, _, ⟨⟩⟩ := StatementResult.of_ofParsed h
  · obtain ⟨_, _, _, ⟨⟩⟩ := StatementResult.of_ofParsed h
  · obtain ⟨_, _, _, ⟨⟩⟩ := StatementResult.of_ofParsed h
  · obtain ⟨_, _, _, ⟨⟩⟩ := StatementResult.of_ofParsed h
  · obtain ⟨_, _, _, ⟨⟩⟩ := StatementResult.of_ofParsed h
  · split at h
    · split at h
      · next handler found =>
        obtain ⟨b', after, read, ⟨⟩⟩ := StatementResult.of_ofParsed h
        obtain ⟨keyword, parsed⟩ := blockStatement_ok read
        exact ⟨handler, by rw [keyword, plugins.lookup_upper, found], parsed⟩
      · cases h
    · cases h
  · cases h

/-- The handler of a block is registered under its keyword, and has read the block. -/
lemma exists_handler_of_mem_readStatements {recovering : Bool} {groups : List (Token × List Token)}
    (h : .block b ∈ (readStatements src plugins recovering groups).1) :
    ∃ handler, plugins.lookup b.block.keyword = some handler ∧ handler.parse b.block = .ok b.node := by
  induction groups generalizing recovering with
  | nil => cases h
  | cons g rest ih =>
    obtain ⟨head, tokens⟩ := g
    rcases List.mem_append.1 h with here | later
    · exact exists_handler_of_readStatement (Option.mem_toList.1 here)
    · exact ih later

end Blocks

end Document

/-! ### Writing blocks -/

namespace Ddl

/-- Where every block has a handler, only a handler that refuses makes the blocks fail. -/
lemma exists_error_blockStatements_iff {plugins : Plugin.Registry} {seen : List String}
    {bs : List Document.Block}
    (handlers : ∀ b ∈ bs, ∃ handler, plugins.lookup b.block.keyword = some handler) :
    (∃ e, blockStatements plugins seen bs = .error e) ↔ ∃ b ∈ bs, ∃ handler reason,
      plugins.lookup b.block.keyword = some handler ∧ handler.emit b.block b.node = .error reason := by
  induction bs generalizing seen with
  | nil => simp [blockStatements]
  | cons b bs ih =>
    obtain ⟨⟨handler, found⟩, others⟩ := List.forall_mem_cons.1 handlers
    have failed : (∃ handler' reason, plugins.lookup b.block.keyword = some handler' ∧
        handler'.emit b.block b.node = .error reason) ↔
          ∃ reason, handler.emit b.block b.node = .error reason := by
      simp [found]
    rw [blockStatements, List.exists_mem_cons_iff, failed, found]
    dsimp only
    cases emitted : handler.emit b.block b.node with
    | error reason => exact iff_of_true ⟨_, rfl⟩ (.inl ⟨reason, rfl⟩)
    | ok sql =>
      rw [← @ih (b.block.keyword :: seen) others]
      dsimp only
      cases rest : blockStatements plugins (b.block.keyword :: seen) bs with
      | error e => exact iff_of_true ⟨e, rfl⟩ (.inr ⟨e, rfl⟩)
      | ok sts =>
        refine iff_of_false ?_ ?_
        · rintro ⟨e, h⟩
          change (if Text.isBlank sql then Except.ok sts else Except.ok _) = Except.error e at h
          split at h <;> cases h
        · rintro (⟨_, h⟩ | ⟨_, h⟩) <;> cases h

/-- Generation fails where the blocks do. -/
lemma exists_error_generate_iff (opts : Options) (s : Schema) :
    (∃ e, generate opts s = .error e) ↔ ∃ e, blockStatements opts.plugins [] s.blocks = .error e := by
  unfold generate
  cases blockStatements opts.plugins [] s.blocks with
  | error e => exact iff_of_true ⟨e, rfl⟩ ⟨e, rfl⟩
  | ok sts =>
    refine iff_of_false ?_ ?_
    · rintro ⟨e, h⟩
      cases h
    · rintro ⟨e, h⟩
      cases h

end Ddl

end ErdSql
