import ErdSql.Proofs.Coordinates
import ErdSql.Proofs.CopiedTexts
import ErdSql.Proofs.EntityBlocks
import ErdSql.Proofs.Normalization

/-!
# Documents without faults

Every token of a document that is read without an error has its place in a statement, as a part of a
sentence or inside a text that is copied from the source.

* `Document.statementGroups_eq_splitBy`, `Document.lineGroups_eq_splitBy`: how tokens are cut into
  statements and lines.
* `Document.Copied`: a text that is copied from the source has every token in it.
* `Document.StatementSays`: the sentences that are statements.
* `Document.statementSays_of_readStatement`: a statement that is read without an error is one, from its
  first token to its last.
* `Compilation.read_says`: so are all the statements of a document.
-/

namespace ErdSql

namespace Document

open ErdSql.Document.Parser

/-! ### Statements and lines of a text -/

/-- Whether a token goes on with the line on which the one before it ends. -/
def sameLine (previous t : Token) : Bool :=
  t.line ≤ previous.endLine

/-- Whether a token belongs to the statement of the one before it. -/
def sameStatement (previous t : Token) : Bool :=
  !opensStatement previous t

/-- Tokens are cut where a statement opens. -/
lemma statementGroups_eq_splitBy (ts : List Token) :
    ((statementGroups ts).map fun g => g.1 :: g.2) = ts.splitBy sameStatement := by
  -- both loops collect the current statement in reverse, one of them without its head
  have go (head previous : Token) (collected before ts : List Token) (done : List (List Token))
      (same : (previous :: before).reverse = head :: collected.reverse) :
      List.splitBy.loop sameStatement ts previous before done =
        done.reverse ++ (statementGroups.go head previous collected ts).map fun g => g.1 :: g.2 := by
    induction ts generalizing head previous collected before done with
    | nil => simp [List.splitBy.loop, statementGroups.go, same]
    | cons t ts ih =>
      rw [List.splitBy.loop, statementGroups.go]
      by_cases opens : opensStatement previous t = true
      · have apart : sameStatement previous t = false := by rw [sameStatement, opens]; rfl
        rw [if_pos opens, apart]
        dsimp only
        rw [ih t t [] [] _ rfl, List.reverse_cons, same, List.append_assoc]
        rfl
      · have together : sameStatement previous t = true := by
          rw [sameStatement, Bool.eq_false_of_not_eq_true opens]
          rfl
        rw [if_neg opens, together]
        refine ih head t (t :: collected) (previous :: before) done ?_
        rw [List.reverse_cons, same, List.reverse_cons, List.cons_append]
  cases ts with
  | nil => rfl
  | cons t ts => exact (go t t [] [] ts [] rfl).symm

/-- Tokens that go down the lines of a text are cut where a line starts. -/
lemma lineGroups_eq_splitBy {ts : List Token} (h : Token.Standing ts) :
    lineGroups ts = ts.splitBy sameLine := by
  have go (t : Token) (before ts : List Token) (done : List (List Token)) (h : Token.Standing (t :: ts)) :
      List.splitBy.loop sameLine ts t before done =
        done.reverse ++ lineGroups.go t.endLine (t :: before) ts := by
    induction ts generalizing t before done with
    | nil => simp [List.splitBy.loop, lineGroups.go]
    | cons u us ih =>
      have behind : Token.Standing (u :: us) := h.sublist (List.sublist_cons_self _ _)
      have down : t.endLine ≤ u.endLine :=
        ((List.pairwise_cons.1 h.pairwise).1 u List.mem_cons_self).trans (behind.line u List.mem_cons_self).2
      rw [List.splitBy.loop, lineGroups.go]
      by_cases later : u.line > t.endLine
      · have apart : sameLine t u = false := by
          rw [sameLine, decide_eq_false_iff_not]
          omega
        rw [if_pos later, apart]
        dsimp only
        rw [ih u [] _ behind, List.reverse_cons, List.append_assoc]
        rfl
      · have together : sameLine t u = true := by
          rw [sameLine, decide_eq_true_eq]
          omega
        rw [if_neg later, together, Nat.max_eq_right down]
        exact ih u (t :: before) done behind
  cases ts with
  | nil => rfl
  | cons t ts => exact (go t [] ts [] h).symm

/-! ### Copies -/

end Document

namespace Scan

/-- A text from characters to others, which neither start nor end with white space. -/
lemma Solid.of_ends {first last cs : List Char} (hf : Solid first) (hl : Solid last) (front : first <+: cs)
    (back : last <:+ cs) : Solid cs := by
  obtain ⟨xs, rfl⟩ := front
  obtain ⟨ys, eq⟩ := back
  refine ⟨List.append_ne_nil_of_left_ne_nil hf.ne_nil _, fun c hc => hf.first c ?_, fun c hc => hl.last c ?_⟩
  · rwa [List.head?_append_of_ne_nil _ hf.ne_nil] at hc
  · rwa [← eq, List.getLast?_append_of_ne_nil _ hl.ne_nil] at hc

/-- A token of a text comes from a step at its place. -/
lemma exists_place_of_mem_scanFrom (opens : Bool) (front cs : List Char) {t : Token}
    (ht : t ∈ (scanFrom opens (Position.start.advanceBy front) cs).body) :
    ∃ before c rest more opens', front ++ cs = before ++ c :: rest ∧
      step opens' c rest = .token t.kind t.spelling more ∧ t.At before (c :: rest.take more) := by
  generalize place : Position.start.advanceBy front = p at ht
  -- what a step takes goes to the front
  have whole (front : List Char) (c : Char) (cs : List Char) (more : Nat) :
      front ++ c :: cs = front ++ c :: cs.take more ++ cs.drop more := by
    rw [List.append_assoc, List.cons_append, List.take_append_drop]
  fun_induction scanFrom opens p cs generalizing front with
  | case1 => cases ht
  | case2 opens p c cs more _ ih =>
    subst place
    rw [whole front c cs more]
    exact ih _ (Position.advanceBy_append ..) ht
  | case3 opens p c cs kind spelling more found next token rest ih =>
    subst place
    rw [body, List.dropLast_cons_of_ne_nil (tokens_scanFrom_ne_nil _ _ _), List.mem_cons] at ht
    obtain rfl | later := ht
    · exact ⟨front, c, cs, more, opens, rfl, found, .of_advanceBy rfl rfl rfl rfl (reads_of_step found)⟩
    · rw [whole front c cs more]
      exact ih _ (Position.advanceBy_append ..) later
  | case4 opens p c cs fault before more _ _ rest ih =>
    subst place
    rw [whole front c cs more]
    exact ih _ (Position.advanceBy_append ..) ht

/-- A token stands for a part of the text that neither starts nor ends with white space. -/
lemma exists_solid_of_mem_scanFrom (opens : Bool) (front cs : List Char) {t : Token}
    (ht : t ∈ (scanFrom opens (Position.start.advanceBy front) cs).body) :
    ∃ before range after, front ++ cs = before ++ range ++ after ∧ Solid range ∧ t.At before range := by
  obtain ⟨before, c, rest, more, _, whole, found, here⟩ := exists_place_of_mem_scanFrom opens front cs ht
  refine ⟨before, c :: rest.take more, rest.drop more, ?_, solid_of_step found, here⟩
  rw [whole, List.append_assoc, List.cons_append, List.take_append_drop]

end Scan

namespace Text

/-- There is nothing to trim around characters that neither start nor end with white space. -/
lemma trimChars_of_solid {cs : List Char} (h : Scan.Solid cs) : trimChars cs = cs := by
  have front : cs.dropWhile isSpace = cs := by
    cases cs with
    | nil => rfl
    | cons c cs => rw [List.dropWhile_cons_of_neg (by simpa using h.first)]
  rw [trimChars, front]
  have last := List.getLast?_eq_some_getLast h.ne_nil
  exact Text.dropWhileEnd_of_getLast last (h.last _ last)

/-- Of two texts at the front of a third one, the one with fewer bytes is at the front of the other. -/
lemma isPrefix_of_length_encode_le {xs ys cs : List Char} (hx : xs <+: cs) (hy : ys <+: cs)
    (le : (encode xs).length ≤ (encode ys).length) : xs <+: ys := by
  rcases List.prefix_or_prefix_of_prefix hx hy with h | ⟨zs, rfl⟩
  · exact h
  · have none : (encode zs).length = 0 := by
      rw [encode_append, List.length_append] at le
      omega
    cases zs with
    | nil => rw [List.append_nil]
    | cons c cs =>
      have first := c.utf8Size_pos
      rw [Scan.length_encode, Document.byteSize_cons] at none
      omega

end Text

namespace Document

open ErdSql.Document.Parser

/-- A text that is copied from the source for some tokens: each of them stands at its place in it. For
no tokens it is empty. -/
inductive Copied (cs : List Char) : List Token → String → Prop where
  | nil :
    Copied cs [] ""
  | cons {before text after ts} :
    cs = before ++ text ++ after →
    ts ≠ [] →
    (∀ t ∈ ts, ∃ front range back, text = front ++ range ++ back ∧ t.At (before ++ front) range) →
    Copied cs ts (String.ofList text)

/-- A token stands in a text that is copied for it. -/
lemma Copied.exists_infix {cs : List Char} {ts : List Token} {s : String} {t : Token} (h : Copied cs ts s)
    (ht : t ∈ ts) : ∃ range, range <:+: s.toList ∧ t.Reads range := by
  cases h with
  | nil => cases ht
  | cons _ _ inside =>
    obtain ⟨front, range, back, rfl, place⟩ := inside t ht
    rw [String.toList_ofList]
    exact ⟨range, ⟨front, back, rfl⟩, place.reads⟩

/-- Tokens in order stand between the first one and the last one. -/
lemma between_of_ordered {size : Nat} {first last t : Token} {ts : List Token}
    (ordered : Token.Ordered size (first :: ts)) (isLast : (first :: ts).getLast? = some last)
    (ht : t ∈ first :: ts) : first.offset ≤ t.offset ∧ t.stop ≤ last.stop := by
  constructor
  · rcases List.mem_cons.1 ht with rfl | later
    · exact le_rfl
    · exact (ordered.inside first List.mem_cons_self).1.trans
        ((List.pairwise_cons.1 ordered.pairwise).1 t later)
  · obtain ⟨front, split⟩ := List.getLast?_eq_some_iff.1 isLast
    have pairwise := ordered.pairwise
    rw [split] at ht pairwise
    rcases List.mem_append.1 ht with early | here
    · have le := (List.pairwise_append.1 pairwise).2.2 t early last (List.mem_singleton_self _)
      exact le.trans (ordered.inside last (List.mem_of_getLast? isLast)).1
    · rw [List.mem_singleton.1 here]

/-- What is copied for tokens of a text has every one of them in it. -/
lemma copied_verbatim {cs : List Char} {ts : List Token} (sub : ts.Sublist (Scan.ofChars cs).body) :
    Copied cs ts (verbatim (Text.slice cs) ts) := by
  cases ts with
  | nil => exact .nil
  | cons first ts =>
    have place {t : Token} (ht : t ∈ first :: ts) : ∃ before range after, cs = before ++ range ++ after ∧
        Scan.Solid range ∧ t.At before range :=
      Scan.exists_solid_of_mem_scanFrom false [] cs (sub.subset ht)
    have ordered : Token.Ordered (Text.byteSize cs) (first :: ts) := by
      have all := (Scan.ordered_scanFrom false .start cs).1
      rw [show Position.start.offset = 0 from rfl, Nat.zero_add] at all
      exact all.sublist (sub.trans (List.dropLast_sublist _))
    obtain ⟨last, isLast⟩ : ∃ last, (first :: ts).getLast? = some last :=
      ⟨_, List.getLast?_eq_some_getLast (List.cons_ne_nil _ _)⟩
    obtain ⟨before, range, after, whole, solid, here⟩ := place List.mem_cons_self
    obtain ⟨before', range', after', whole', solid', here'⟩ := place (List.mem_of_getLast? isLast)
    -- every token stands between the start of the first one and the end of the last one
    have between {t : Token} (ht : t ∈ first :: ts) {bs rs as : List Char} (all : cs = bs ++ rs ++ as)
        (place : t.At bs rs) : before <+: bs ∧ bs ++ rs <+: before' ++ range' := by
      obtain ⟨le, le'⟩ := between_of_ordered ordered isLast ht
      rw [here.offset, place.offset] at le
      rw [here'.stop, place.stop] at le'
      have start : before <+: cs := ⟨range ++ after, by rw [whole, List.append_assoc]⟩
      have start' : bs <+: cs := ⟨rs ++ as, by rw [all, List.append_assoc]⟩
      exact ⟨Text.isPrefix_of_length_encode_le start start' le,
        Text.isPrefix_of_length_encode_le ⟨as, all.symm⟩ ⟨after', whole'.symm⟩ le'⟩
    obtain ⟨gap, rfl⟩ := (between (List.mem_of_getLast? isLast) whole' here').1
    rw [List.append_assoc before gap] at between whole'
    have copy : Text.slice cs first.offset last.stop = gap ++ range' := by
      rw [here.offset, here'.stop, whole', List.append_assoc before gap]
      exact (Text.slice_between before (gap ++ range') after').1
    have solid : Scan.Solid (gap ++ range') := solid.of_ends solid'
      ((List.prefix_append_right_inj before).1 (between List.mem_cons_self whole here).2)
      (List.suffix_append gap range')
    have parts : Copied cs (first :: ts) (String.ofList (gap ++ range')) := by
      refine .cons whole' (List.cons_ne_nil first ts) fun t ht => ?_
      obtain ⟨bs, rs, as, all, -, placed⟩ := place ht
      obtain ⟨⟨front, rfl⟩, ends⟩ := between ht all placed
      rw [List.append_assoc] at ends
      obtain ⟨back, eq⟩ := (List.prefix_append_right_inj before).1 ends
      exact ⟨front, rs, back, eq.symm, placed⟩
    have kept : verbatim (Text.slice cs) (first :: ts) = String.ofList (gap ++ range') := by
      simp only [verbatim, isLast, copy, Text.trimChars_of_solid solid]
    rwa [kept]

/-! ### Statements -/

/-- The labels of an enumeration behind the opening brace, up to the closing one. A comma may follow the
last label. -/
inductive LabelsSay : List Token → List Variant → Prop where
  | closed {closing} :
    closing.isSymbol '\x7d' = true →
    LabelsSay [closing] []
  | last {t label closing} :
    label? t = some label →
    closing.isSymbol '\x7d' = true →
    LabelsSay [t, closing] [⟨label, t.span⟩]
  | more {t label comma ts labels} :
    label? t = some label →
    comma.isSymbol ',' = true →
    LabelsSay ts labels →
    LabelsSay (t :: comma :: ts) (⟨label, t.span⟩ :: labels)

/-- The labels of an enumeration, in braces or in brackets. -/
inductive VariantsSay : List Token → List Variant → Prop where
  | list {t} :
    t.kind = .list →
    VariantsSay [t] ((listItems t.spelling.toList).map fun label => ⟨label, t.span⟩)
  | braces {opening ts labels} :
    opening.isSymbol '\x7b' = true →
    LabelsSay ts labels →
    VariantsSay (opening :: ts) labels

/-- The word in front of the name of an index. -/
inductive UniqueSays : List Token → Bool → Prop where
  | absent :
    UniqueSays [] false
  | present {t} :
    t.isKeyword .unique = true →
    UniqueSays [t] true

/-- The name of an extension: the value of a string, or the text of some tokens. -/
inductive ExtensionSays (cs : List Char) : List Token → String → Prop where
  | string {t} :
    t.kind = .string →
    ExtensionSays cs [t] (Token.unquote t.spelling)
  | copied {ts name} :
    ts ≠ [] →
    (∀ t, ts = [t] → t.kind ≠ .string) →
    Copied cs ts name →
    ExtensionSays cs ts name

/-- A statement, from its first token to its last. -/
inductive StatementSays (cs : List Char) (plugins : Plugin.Registry) : List Token → Statement → Prop where
  | entity {head ts items} {e : Entity} :
    head.kind = .entity →
    e.name = head.spelling →
    (∀ t ∈ ts.head?, head.endLine < t.line) →
    List.Forall₂ (LineSays (Text.slice cs)) (ts.splitBy sameLine) items →
    e.ListedBy items →
    StatementSays cs plugins (head :: ts) (.entity e)
  | enum {head name ts} {e : Enum} :
    head.kind = .keyword .enum →
    name.kind = .identifier →
    e.name = name.spelling →
    VariantsSay ts e.variants →
    StatementSays cs plugins (head :: name :: ts) (.enum e)
  | index {head unique name on table ts tail} {i : Index} :
    head.kind = .keyword .index →
    UniqueSays unique i.unique →
    name.kind = .identifier →
    i.name = name.spelling →
    on.isWord "ON" = true →
    table.isName = true →
    i.table = table.spelling →
    InParentheses NameSays ts i.columns →
    Copied cs tail i.tail →
    StatementSays cs plugins (head :: (unique ++ name :: on :: table :: (ts ++ tail))) (.index i)
  | view {head view name as body} {v : View} :
    head.kind = .keyword .materialized →
    view.isKeyword .view = true →
    name.kind = .identifier →
    v.name = name.spelling →
    as.isWord "AS" = true →
    body ≠ [] →
    Copied cs body v.body →
    StatementSays cs plugins (head :: view :: name :: as :: body) (.view v)
  | trigger {head name timing execute procedure call} {t : Trigger} :
    head.kind = .keyword .trigger →
    name.kind = .identifier →
    t.name = name.spelling →
    timing ≠ [] →
    Copied cs timing t.timing →
    execute.isKeyword .execute = true →
    procedure.isKeyword .procedure = true →
    call ≠ [] →
    Copied cs call t.procedure →
    StatementSays cs plugins (head :: name :: (timing ++ execute :: procedure :: call)) (.trigger t)
  | extension {head ts} {e : Extension} :
    head.kind = .keyword .extension →
    ExtensionSays cs ts e.name →
    StatementSays cs plugins (head :: ts) (.extension e)
  | block {head ts handler} {b : Block} :
    head.kind = .identifier →
    head.column = 1 →
    plugins.lookup head.spelling = some handler →
    b.block.keyword = Text.upper head.spelling →
    Copied cs ts b.block.body →
    handler.parse b.block = .ok b.node →
    StatementSays cs plugins (head :: ts) (.block b)

/-! ### Readers of statements -/

section Readers
variable {cs : List Char} {plugins : Plugin.Registry} {head : Token} {c after : Cursor}

/-- The labels of an enumeration are read up to the closing brace. -/
lemma labelsSay_of_enumLabels {labels : List Variant} (h : Returns enumLabels c labels after) :
    ∃ used, c.rest = used ++ after.rest ∧ LabelsSay used labels := by
  unfold Returns at h
  fun_induction enumLabels c generalizing labels after with
  | case1 c closes =>
    cases h
    exact ⟨[c.current], rest_eq_cons_of_isSymbol closes, .closed closes⟩
  | case2 => cases h
  | case3 c notClosed label spelled behind labels' done found ih =>
    cases h
    have name : c.rest = c.current :: c.skip.rest :=
      rest_eq_cons fun none => by simp [label?, none] at spelled
    by_cases comma : c.skip.current.isSymbol ',' = true
    · rw [dif_pos comma] at found ih
      obtain ⟨used, rest, said⟩ := ih found
      refine ⟨c.current :: c.skip.current :: used, ?_, .more spelled comma said⟩
      rw [name, rest_eq_cons_of_isSymbol comma, rest]
      rfl
    · have closes : c.skip.current.isSymbol '\x7d' = true := by simpa [comma] using behind
      rw [dif_neg comma, enumLabels, if_pos closes] at found
      cases found
      refine ⟨[c.current, c.skip.current], ?_, .last spelled closes⟩
      rw [name, rest_eq_cons_of_isSymbol closes]
      rfl
  | case4 => cases h
  | case5 => cases h

lemma takes_variants : Takes variants VariantsSay := by
  intro c labels after h
  replace h := of_peek h
  split at h
  · next kind =>
    cases of_next h
    exact ⟨[c.current], rest_eq_cons (by simp [kind]), .list kind⟩
  · obtain ⟨opens, h⟩ | ⟨-, h⟩ := of_ite h
    · obtain ⟨used, rest, said⟩ := labelsSay_of_enumLabels (of_next h)
      exact ⟨c.current :: used, by rw [rest_eq_cons_of_isSymbol opens, rest]; rfl, .braces opens said⟩
    · cases h

lemma statementSays_of_enumStatement {e : Enum} (kind : head.kind = .keyword .enum)
    (h : Returns (enumStatement head) c e after) : StatementSays cs plugins (head :: c.rest) (.enum e) := by
  obtain ⟨name, d, read, h⟩ := exists_of_bind h
  obtain ⟨labels, d₁, read₁, h⟩ := exists_of_bind h
  obtain ⟨_, d₂, done, h'⟩ := exists_of_bind h
  obtain ⟨none, rfl⟩ := of_finish done
  cases h'
  obtain ⟨isName, rest⟩ := of_identifier read
  obtain ⟨used, rest₁, said⟩ := takes_variants _ _ _ read₁
  rw [rest, rest₁, none, List.append_nil]
  exact .enum kind isName rfl said

/-- An index behind the optional word. -/
lemma statementSays_of_index {front : List Token} {unique : Bool} {i : Index} (kind : head.kind = .keyword .index)
    (h : Returns (identifier .indexName >>= fun t => word "ON" >>= fun _ => name .indexedEntity >>=
      fun table => nameList .indexColumn >>= fun columns => remaining >>= fun tail => skipAll >>=
      fun _ => previous >>= fun last => Pure.pure ⟨t.spelling, unique, table.spelling, columns,
        verbatim (Text.slice cs) tail, Span.between head last⟩) c i after) (said : UniqueSays front unique)
    (sub : c.rest.Sublist (Scan.ofChars cs).body) :
    StatementSays cs plugins (head :: (front ++ c.rest)) (.index i) := by
  obtain ⟨name, d, read, h⟩ := exists_of_bind h
  obtain ⟨on, d₁, read₁, h⟩ := exists_of_bind h
  obtain ⟨table, d₂, read₂, h⟩ := exists_of_bind h
  obtain ⟨columns, d₃, read₃, h⟩ := exists_of_bind h
  cases h
  obtain ⟨isName, rest⟩ := of_identifier read
  obtain ⟨isOn, rest₁⟩ := of_word read₁
  obtain ⟨isTable, rest₂⟩ := of_name read₂
  obtain ⟨used, rest₃, saidColumns⟩ := takes_nameList _ _ _ _ read₃
  rw [rest, rest₁, rest₂, rest₃] at sub ⊢
  have tail : d₃.rest.Sublist (Scan.ofChars cs).body :=
    (List.sublist_append_right (name :: on :: table :: used) d₃.rest).trans sub
  exact .index kind said isName rfl isOn isTable rfl saidColumns (copied_verbatim tail)

lemma statementSays_of_indexStatement {i : Index} (kind : head.kind = .keyword .index)
    (h : Returns (indexStatement (Text.slice cs) head) c i after)
    (sub : c.rest.Sublist (Scan.ofChars cs).body) :
    StatementSays cs plugins (head :: c.rest) (.index i) := by
  obtain ⟨unique, d, seen, h⟩ := exists_of_bind h
  cases seen
  obtain ⟨isUnique, h⟩ | ⟨notUnique, h⟩ := of_ite h
  · have first := rest_eq_cons_of_isKeyword isUnique
    rw [first] at sub ⊢
    exact statementSays_of_index kind (of_next h) (by rw [isUnique]; exact .present isUnique)
      ((List.sublist_cons_self _ _).trans sub)
  · exact statementSays_of_index kind h (by rw [notUnique]; exact .absent) sub

lemma statementSays_of_viewStatement {v : View} (kind : head.kind = .keyword .materialized)
    (h : Returns (viewStatement (Text.slice cs) head) c v after)
    (sub : c.rest.Sublist (Scan.ofChars cs).body) : StatementSays cs plugins (head :: c.rest) (.view v) := by
  obtain ⟨view, d, read, h⟩ := exists_of_bind h
  obtain ⟨name, d₁, read₁, h⟩ := exists_of_bind h
  obtain ⟨as, d₂, read₂, h⟩ := exists_of_bind h
  obtain ⟨isView, rest⟩ := of_keyword read
  obtain ⟨isName, rest₁⟩ := of_identifier read₁
  obtain ⟨isAs, rest₂⟩ := of_word read₂
  obtain ⟨body, d₃, seen, h⟩ := exists_of_bind h
  cases seen
  obtain ⟨-, h⟩ | ⟨some, h⟩ := of_ite h
  · cases h
  · cases h
    rw [rest, rest₁, rest₂] at sub ⊢
    exact .view kind isView isName rfl isAs (by simpa using some)
      (copied_verbatim ((List.sublist_append_right [view, name, as] _).trans sub))

/-- What stands before and behind the two words. -/
lemma eq_of_splitAtExecute {ts before behind : List Token} (h : splitAtExecute ts = some (before, behind)) :
    ∃ execute procedure, ts = before ++ execute :: procedure :: behind ∧
      execute.isKeyword .execute = true ∧ procedure.isKeyword .procedure = true := by
  fun_induction splitAtExecute ts generalizing before behind with
  | case1 e p rest both =>
    cases h
    rw [Bool.and_eq_true] at both
    exact ⟨e, p, rfl, both⟩
  | case2 e p rest _ ih =>
    obtain ⟨⟨first, last⟩, found, eq⟩ := Option.map_eq_some_iff.1 h
    cases eq
    obtain ⟨execute, procedure, split, words⟩ := ih found
    exact ⟨execute, procedure, by rw [split]; rfl, words⟩
  | case3 => cases h

lemma statementSays_of_triggerStatement {t : Trigger} (kind : head.kind = .keyword .trigger)
    (h : Returns (triggerStatement (Text.slice cs) head) c t after)
    (sub : c.rest.Sublist (Scan.ofChars cs).body) : StatementSays cs plugins (head :: c.rest) (.trigger t) := by
  obtain ⟨name, d, read, h⟩ := exists_of_bind h
  obtain ⟨isName, rest⟩ := of_identifier read
  obtain ⟨left, d₁, seen, h⟩ := exists_of_bind h
  cases seen
  split at h
  · cases h
  · cases h
  · cases h
  · next timing call noTiming noCall found =>
    cases h
    obtain ⟨execute, procedure, split, isExecute, isProcedure⟩ := eq_of_splitAtExecute found
    obtain ⟨before, behind⟩ := sublist_of_splitAtExecute found
    rw [rest] at sub
    have inside := (List.sublist_cons_self _ _).trans sub
    rw [rest, split]
    exact .trigger kind isName rfl noTiming
      (copied_verbatim (before.trans inside)) isExecute isProcedure noCall
      (copied_verbatim (behind.trans inside))

lemma statementSays_of_extensionStatement {e : Extension} (kind : head.kind = .keyword .extension)
    (h : Returns (extensionStatement (Text.slice cs) head) c e after)
    (sub : c.rest.Sublist (Scan.ofChars cs).body) :
    StatementSays cs plugins (head :: c.rest) (.extension e) := by
  obtain ⟨left, d, seen, h⟩ := exists_of_bind h
  cases seen
  obtain ⟨-, h⟩ | ⟨some, h⟩ := of_ite h
  · cases h
  · obtain ⟨-, h⟩ | ⟨-, h⟩ := of_ite h
    · cases h
    · cases h
      refine .extension kind ?_
      have ne : c.rest ≠ [] := by simpa using some
      have copied := copied_verbatim sub
      dsimp only
      split
      · next t single =>
        rw [single] at copied ⊢
        split
        · next isString => exact .string (beq_iff_eq.1 isString)
        · next noString =>
          refine .copied (List.cons_ne_nil _ _) (fun u same => ?_) copied
          obtain ⟨rfl, -⟩ := List.cons.inj same
          exact fun isString => noString (beq_iff_eq.2 isString)
      · next several => exact .copied ne (fun t single => (several t single).elim) copied

lemma statementSays_of_blockStatement {b : Block} {handler : Plugin.Handler} (kind : head.kind = .identifier)
    (column : head.column = 1) (found : plugins.lookup head.spelling = some handler)
    (h : Returns (blockStatement (Text.slice cs) handler head) c b after)
    (sub : c.rest.Sublist (Scan.ofChars cs).body) : StatementSays cs plugins (head :: c.rest) (.block b) := by
  obtain ⟨left, d, seen, h⟩ := exists_of_bind h
  cases seen
  obtain ⟨_, d₁, skipped, h⟩ := exists_of_bind h
  obtain ⟨last, d₂, seen, h⟩ := exists_of_bind h
  unfold handledBlock at h
  split at h
  · next node parsed =>
    cases h
    exact .block kind column found rfl (copied_verbatim sub) parsed
  · cases h

/-! ### Entities -/

/-- Lines that are read without a fault are sentences. -/
lemma lineSays_of_entityLines {src : Source} {lines : List (List Token)} {atEnd : Bool} {previous : Token}
    (faultless : (entityLines src atEnd previous lines).filterMap (·.fault) = []) :
    ∃ items : List LineItem, (entityLines src atEnd previous lines).map (·.item) = items.map some ∧
      List.Forall₂ (LineSays src) lines items := by
  induction lines generalizing previous with
  | nil => exact ⟨[], rfl, .nil⟩
  | cons line lines ih =>
    rw [entityLines] at faultless ⊢
    have here : (entityLine src ⟨previous, line, atEnd && lines.isEmpty⟩).fault = none :=
      List.filterMap_eq_nil_iff.1 faultless _ List.mem_cons_self
    obtain ⟨item, given, said⟩ := lineSays_of_entityLine rfl here
    rw [List.filterMap_cons_none here] at faultless
    obtain ⟨items, others, row⟩ := ih faultless
    exact ⟨item :: items, by rw [List.map_cons, given, others]; rfl, .cons said row⟩

/-- The errors of an entity: text behind the marker on its line, and the faults of its lines. -/
lemma entity_snd (src : Source) (head : Token) (ts : List Token) (atEnd : Bool) :
    (entity src head ts atEnd).2 =
      (if strayBehind head ts then [(Cursor.mk head ts atEnd).error .endOfLineAfterEntity] else []) ++
        (entityLines src atEnd (lastBeforeBody head ts) (bodyLines head ts)).filterMap (·.fault) := by
  cases ts <;> rfl

/-- An entity that is read without an error is a statement. -/
lemma statementSays_of_entity {ts : List Token} {atEnd : Bool} (kind : head.kind = .entity)
    (standing : Token.Standing ts) (faultless : (entity (Text.slice cs) head ts atEnd).2 = []) :
    StatementSays cs plugins (head :: ts) (.entity (entity (Text.slice cs) head ts atEnd).1) := by
  rw [entity_snd, List.append_eq_nil_iff] at faultless
  obtain ⟨noStray, faultless⟩ := faultless
  have apart : strayBehind head ts = false := by
    by_contra stray
    rw [if_pos (by simpa using stray)] at noStray
    cases noStray
  have lines : bodyLines head ts = ts.splitBy sameLine := by
    rw [bodyLines, apart, lineGroups_eq_splitBy standing]
    rfl
  obtain ⟨items, given, said⟩ := lineSays_of_entityLines faultless
  rw [entity_fst]
  refine .entity kind rfl (fun t ht => ?_) (lines ▸ said) ⟨?_, ?_, ?_⟩
  · obtain ⟨us, rfl⟩ := List.head?_eq_some_iff.1 ht
    simpa [strayBehind] using apart
  · exact (filterMap_of_items given fun r => (parts_eq r).1).symm
  · exact (filterMap_of_items given fun r => (parts_eq r).2.1).symm
  · exact (filterMap_of_items given fun r => (parts_eq r).2.2).symm

/-! ### Documents -/

lemma StatementResult.returns_of_ofParsed {α : Type} {p : Parser α} {wrap : α → Statement}
    (faultless : (ofParsed wrap (p c)).errors = []) :
    ∃ a after, Returns p c a after ∧ (ofParsed wrap (p c)).statement = some (wrap a) := by
  cases found : p c with
  | ok a after => exact ⟨a, after, found, rfl⟩
  | error e stopped =>
    rw [found] at faultless
    cases faultless

/-- A statement that is read without an error is there, from its first token to its last. -/
lemma statementSays_of_readStatement {ts : List Token} {atEnd : Bool}
    (sub : (head :: ts).Sublist (Scan.ofChars cs).body)
    (faultless : (readStatement (Text.slice cs) plugins false head ts atEnd).errors = []) :
    ∃ stmt, (readStatement (Text.slice cs) plugins false head ts atEnd).statement = some stmt ∧
      StatementSays cs plugins (head :: ts) stmt := by
  have behind := (List.sublist_cons_self head ts).trans sub
  have standing := (Scan.standing_ofChars cs).sublist (behind.trans (List.dropLast_sublist _))
  unfold readStatement at faultless ⊢
  dsimp only at faultless ⊢
  split at faultless
  · next kind =>
    exact ⟨_, rfl, statementSays_of_entity kind standing faultless⟩
  · next kind =>
    obtain ⟨e, after, read, given⟩ := StatementResult.returns_of_ofParsed faultless
    exact ⟨_, given, statementSays_of_enumStatement kind read⟩
  · next kind =>
    obtain ⟨i, after, read, given⟩ := StatementResult.returns_of_ofParsed faultless
    exact ⟨_, given, statementSays_of_indexStatement kind read behind⟩
  · next kind =>
    obtain ⟨v, after, read, given⟩ := StatementResult.returns_of_ofParsed faultless
    exact ⟨_, given, statementSays_of_viewStatement kind read behind⟩
  · next kind =>
    obtain ⟨t, after, read, given⟩ := StatementResult.returns_of_ofParsed faultless
    exact ⟨_, given, statementSays_of_triggerStatement kind read behind⟩
  · next kind =>
    obtain ⟨e, after, read, given⟩ := StatementResult.returns_of_ofParsed faultless
    exact ⟨_, given, statementSays_of_extensionStatement kind read behind⟩
  · next kind =>
    split at faultless
    · next column =>
      split at faultless
      · next handler found =>
        obtain ⟨b, after, read, given⟩ := StatementResult.returns_of_ofParsed faultless
        refine ⟨.block b, ?_, statementSays_of_blockStatement kind (beq_iff_eq.1 column) found read behind⟩
        rw [if_pos column]
        exact given
      · cases faultless
    · cases faultless
  · cases faultless

/-- Statements that are read without an error are all there. -/
lemma statementSays_of_readStatements {groups : List (Token × List Token)}
    (sub : ∀ g ∈ groups, (g.1 :: g.2).Sublist (Scan.ofChars cs).body)
    (faultless : (readStatements (Text.slice cs) plugins false groups).2 = []) :
    List.Forall₂ (StatementSays cs plugins) (groups.map fun g => g.1 :: g.2)
      (readStatements (Text.slice cs) plugins false groups).1 := by
  induction groups with
  | nil => exact .nil
  | cons g rest ih =>
    obtain ⟨head, ts⟩ := g
    obtain ⟨first, others⟩ := List.forall_mem_cons.1 sub
    rw [readStatements] at faultless ⊢
    obtain ⟨here, behind⟩ := List.append_eq_nil_iff.1 faultless
    obtain ⟨stmt, given, said⟩ := statementSays_of_readStatement first here
    -- a statement that is there does not silence the errors of the one behind it
    rw [given, Option.isNone_some] at behind
    rw [given, Option.isNone_some]
    exact .cons said (ih others behind)

end Readers

end Document

namespace Compilation

/-- **An error-free reading drops nothing.** If neither the text of a document nor its statements are
at fault, then its tokens, cut where a statement opens, are one sentence for each statement, in order: each
token has its place in a rule, or in a text that is copied from the source. -/
theorem read_says {path : String} {src : List UInt8} {plugins : Plugin.Registry}
    (faultless : (read path src plugins).2 = ([], [])) :
    ∃ cs, Text.decode? src = some cs ∧
      List.Forall₂ (Document.StatementSays cs plugins)
        ((Scan.ofBytes src).body.splitBy Document.sameStatement) (read path src plugins).1.statements := by
  obtain ⟨scanned, parsed⟩ := Prod.mk.inj faultless
  obtain ⟨cs, valid⟩ : ∃ cs, Text.decode? src = some cs := by
    cases valid : Text.decode? src with
    | some cs => exact ⟨cs, rfl⟩
    | none =>
      rw [Scan.ofBytes, valid] at scanned
      cases scanned
  have scan : Scan.ofBytes src = Scan.ofChars cs := by rw [Scan.ofBytes, valid]
  refine ⟨cs, valid, ?_⟩
  simp only [read, scan, valid, Option.getD_some, Document.ofTokens, Scan.ofChars,
    Scan.takeWhile_tokens] at parsed ⊢
  rw [← Document.statementGroups_eq_splitBy]
  exact Document.statementSays_of_readStatements
    (fun g => Document.sublist_of_mem_statementGroups) parsed

/-- A document with statements of every kind. -/
def specimen : String :=
  ":A\n  INT(1) $.id PK\n  CHECK (x)\n  RLS\nENUM e \x7b a, b \x7d\n" ++
    "INDEX i ON A (id) WHERE x\nMATERIALIZED VIEW v AS SELECT 1\n" ++
    "TRIGGER t AFTER INSERT ON A EXECUTE PROCEDURE f()\nEXTENSION pgcrypto\n" ++
    "EXTENSION 'uuid-ossp'\nNOTE three\n"

theorem read_says_of_specimen :
    (read "" (Text.bytes specimen) notes).2 = ([], []) ∧
      ∃ cs, List.Forall₂ (Document.StatementSays cs notes)
        ((Scan.ofBytes (Text.bytes specimen)).body.splitBy Document.sameStatement)
        (read "" (Text.bytes specimen) notes).1.statements := by
  have faultless : (read "" (Text.bytes specimen) notes).2 = ([], []) := by
    rw [read_bytes]
    decide +kernel
  obtain ⟨cs, -, said⟩ := read_says faultless
  exact ⟨faultless, cs, said⟩

/-- An extension with its name in quotes: the name is not the text of the token. -/
theorem not_copied_of_string :
    read "" (Text.bytes "EXTENSION 'uuid-ossp'\n") Plugin.Registry.empty =
        (⟨"", [.extension ⟨"uuid-ossp", ⟨1, 1, 1, 22⟩⟩]⟩, [], []) ∧
      (Scan.ofBytes (Text.bytes "EXTENSION 'uuid-ossp'\n")).body =
        [⟨.keyword .extension, "EXTENSION", 1, 1, 0, 9, 1⟩, ⟨.string, "'uuid-ossp'", 1, 11, 10, 21, 1⟩] ∧
      ¬ Document.Copied "EXTENSION 'uuid-ossp'\n".toList [⟨.string, "'uuid-ossp'", 1, 11, 10, 21, 1⟩]
        "uuid-ossp" := by
  refine ⟨?_, ?_, fun copied => ?_⟩
  · rw [read_bytes]
    decide +kernel
  · rw [Scan.ofBytes_bytes]
    decide +kernel
  · obtain ⟨range, inside, reads⟩ := copied.exists_infix List.mem_cons_self
    obtain rfl : range = "'uuid-ossp'".toList := String.ofList_injective reads.symm
    revert inside
    decide

end Compilation

end ErdSql
