import ErdSql.Proofs.Sentences

/-!
# Texts that statements copy

What a statement says comes from its tokens, but for some runs of them whose text is copied from the
source. Two sources that agree about these, and about the lines of an entity, are read in the same way.

* `Document.copiedRuns`: the runs of tokens that a statement copies.
* `Document.Source.AlikeFor`: two sources that agree about all that a statement asks for.
* `Document.readStatement_congr`: they are read into the same statement.
* `Document.readStatements_of_agrees`: a source that is right about the parts of a text is as good as the
  text.
-/

namespace ErdSql.Document

open ErdSql.Document.Parser Source

/-! ### What a statement copies -/

/-- What stands behind the first closing parenthesis. -/
def behindParenthesis (ts : List Token) : List Token :=
  (ts.dropWhile fun t => !t.isSymbol ')').drop 1

/-- The runs of tokens whose text a statement copies: the tail of an index, the body of a view, the timing
of a trigger and its call, the name of an extension and the body of a plugin statement. -/
def copiedRuns (head : Token) (tokens : List Token) : List (List Token) :=
  match head.kind with
  | .keyword .index => [behindParenthesis tokens]
  | .keyword .materialized => [tokens.drop 3]
  | .keyword .trigger =>
    match splitAtExecute (tokens.drop 1) with
    | some (timing, call) => [timing, call]
    | none => []
  | .keyword .extension => [tokens]
  | .identifier => [tokens]
  | _ => []

/-- Two sources that agree about all that a statement asks for. -/
structure Source.AlikeFor (s s' : Source) (head : Token) (tokens : List Token) : Prop where
  lines : head.kind = .entity → ∀ line ∈ lineGroups tokens, Alike s s' line
  runs : ∀ run ∈ copiedRuns head tokens, verbatim s run = verbatim s' run

lemma behindParenthesis_eq {front after : List Token} {close : Token}
    (plain : ∀ t ∈ front, t.isSymbol ')' = false) (closes : close.isSymbol ')' = true) :
    behindParenthesis (front ++ close :: after) = after := by
  rw [behindParenthesis, List.dropWhile_append_of_pos fun t ht => by simp [plain t ht],
    List.dropWhile_cons_of_neg (by simp [closes]), List.drop_one, List.tail_cons]

/-- What stands around `EXECUTE PROCEDURE` are tokens of the statement. -/
lemma sublist_of_splitAtExecute {ts before behind : List Token}
    (h : splitAtExecute ts = some (before, behind)) : before.Sublist ts ∧ behind.Sublist ts := by
  fun_induction splitAtExecute ts generalizing before behind with
  | case1 e p rest _ =>
    cases h
    exact ⟨List.nil_sublist _, List.sublist_append_right [e, p] _⟩
  | case2 e p rest _ ih =>
    obtain ⟨⟨first, last⟩, found, eq⟩ := Option.map_eq_some_iff.1 h
    cases eq
    obtain ⟨left, right⟩ := ih found
    exact ⟨left.cons_cons e, right.cons e⟩
  | case3 => cases h

/-- What is copied are tokens of the statement. -/
lemma sublist_of_mem_copiedRuns {head : Token} {tokens run : List Token}
    (h : run ∈ copiedRuns head tokens) : run.Sublist tokens := by
  unfold copiedRuns at h
  split at h
  · rw [List.mem_singleton.1 h]
    exact (List.drop_sublist _ _).trans (List.dropWhile_sublist _)
  · rw [List.mem_singleton.1 h]
    exact List.drop_sublist _ _
  · split at h
    · next found =>
      obtain ⟨left, right⟩ := sublist_of_splitAtExecute found
      have inside := List.drop_sublist 1 tokens
      rcases List.mem_pair.1 h with rfl | rfl
      · exact left.trans inside
      · exact right.trans inside
    · cases h
  · rw [List.mem_singleton.1 h]
  · rw [List.mem_singleton.1 h]
  · cases h

section Copies
variable {s s' : Source} {c : Cursor} {head : Token} {tokens : List Token}

/-- Sources that agree about the tokens of a statement agree about all it asks for. -/
lemma Source.Alike.statement (h : Alike s s' tokens) (head : Token) : AlikeFor s s' head tokens where
  lines _ _ hline := h.sublist (sublist_of_mem_lineGroups hline)
  runs _ hrun := verbatim_congr (h.sublist (sublist_of_mem_copiedRuns hrun))

/-! ### Readers of statements -/

namespace Same

variable {α : Type} {P : α → Cursor → Prop} {p q : Parser α}

/-- What a reader returns at a place. -/
lemma returning (p : Parser α) (c : Cursor) : Same (Returns p c) p p c := by
  refine ⟨rfl, ?_⟩
  cases read : p c with
  | ok a after => exact read
  | error e stopped => trivial

/-- A token that is there may be passed over. -/
lemma skipSeen {b : Bool} {Q : Token → Prop} (seen : b = true → c.current.kind ≠ .eof ∧ Q c.current)
    (h : ∀ d used, c.rest = used ++ d.rest → (∀ t ∈ used, Q t) → Same P p q d) :
    Same P (if b then next >>= fun _ => p else p) (if b then next >>= fun _ => q else q) c := by
  refine .ite (fun passes => ?_) fun _ => h c [] rfl nofun
  obtain ⟨here, fits⟩ := seen passes
  refine .step rfl (h c.skip [c.current] (rest_eq_cons here) fun t ht => ?_)
  rwa [List.mem_singleton.1 ht]

end Same

lemma isSymbol_ne {t : Token} {x y : Char} (h : t.isSymbol x = true) (ne : x ≠ y) : t.isSymbol y = false := by
  rw [Token.isSymbol, Bool.and_eq_true, beq_iff_eq, beq_iff_eq] at h
  rw [Token.isSymbol, h.2, Bool.and_eq_false_iff, beq_eq_false_iff_ne, beq_eq_false_iff_ne]
  refine .inr fun same => ne ?_
  simpa using congrArg String.toList same

lemma isSymbol_of_isName {t : Token} (h : t.isName = true) (x : Char) : t.isSymbol x = false :=
  isSymbol_of_kind (fun kind => by simp [Token.isName, kind] at h) x

/-- No parenthesis closes among names divided by commas. -/
lemma plain_of_divided {ts : List Token} {names : List String} (h : Divided NameSays ts names) :
    ∀ t ∈ ts, t.isSymbol ')' = false := by
  have one {us : List Token} {name : String} (said : NameSays us name) :
      ∀ t ∈ us, t.isSymbol ')' = false := by
    obtain ⟨isName⟩ := said
    exact List.forall_mem_singleton.2 (isSymbol_of_isName isName _)
  induction h with
  | last first => exact one first
  | more first comma _ ih =>
    rw [List.forall_mem_append, List.forall_mem_cons]
    exact ⟨one first, isSymbol_ne comma (by decide), ih⟩

/-- A list of names ends at the first closing parenthesis. -/
lemma exists_of_nameList {item : ListItem} {columns : List String} {after : Cursor}
    (h : Returns (nameList item) c columns after) : ∃ front close, c.rest = front ++ close :: after.rest ∧
      (∀ t ∈ front, t.isSymbol ')' = false) ∧ close.isSymbol ')' = true := by
  obtain ⟨used, rest, said⟩ := takes_nameList item c columns after h
  cases said with
  | @empty opening closing opens closes =>
    refine ⟨[opening], closing, rest, ?_, closes⟩
    rintro t ht
    rw [List.mem_singleton.1 ht]
    exact isSymbol_ne opens (by decide)
  | @items opening ts closing _ opens divided closes =>
    refine ⟨opening :: ts, closing, by rw [rest]; simp, ?_, closes⟩
    exact List.forall_mem_cons.2 ⟨isSymbol_ne opens (by decide), plain_of_divided divided⟩

lemma indexStatement_congr
    (same : verbatim s (behindParenthesis c.rest) = verbatim s' (behindParenthesis c.rest)) :
    indexStatement s head c = indexStatement s' head c := by
  have read : Same (fun _ _ => True) (indexStatement s head) (indexStatement s' head) c := by
    refine .step rfl (.skipSeen (Q := fun t => t.isSymbol ')' = false) ?_ fun d unique front plain => ?_)
    · intro isUnique
      have kind : c.current.kind = .keyword .unique := by simpa [Token.isKeyword] using isUnique
      exact ⟨by simp [kind], isSymbol_of_kind (by simp [kind]) _⟩
    refine .bind (.returning _ _) fun name d₁ h₁ => .bind (.returning _ _) fun on d₂ h₂ => ?_
    refine .bind (.returning _ _) fun table d₃ h₃ => .bind (.returning _ _) fun columns d₄ h₄ => ?_
    refine .step rfl ?_
    obtain ⟨isName, rest₁⟩ := of_identifier h₁
    obtain ⟨isOn, rest₂⟩ := of_word h₂
    obtain ⟨isTable, rest₃⟩ := of_name h₃
    obtain ⟨list, close, rest₄, names, closes⟩ := exists_of_nameList h₄
    have tail : behindParenthesis c.rest = d₄.rest := by
      have split : c.rest = (unique ++ name :: on :: table :: list) ++ close :: d₄.rest := by
        rw [front, rest₁, rest₂, rest₃, rest₄]
        simp
      rw [split]
      refine behindParenthesis_eq ?_ closes
      have word : on.kind ≠ .symbol := fun kind => by simp [Token.isWord, kind] at isOn
      rw [List.forall_mem_append]
      refine ⟨plain, List.forall_mem_cons.2 ⟨isSymbol_of_kind (by simp [isName]) _, ?_⟩⟩
      refine List.forall_mem_cons.2 ⟨isSymbol_of_kind word _, ?_⟩
      exact List.forall_mem_cons.2 ⟨isSymbol_of_isName isTable _, names⟩
    rw [← tail, same]
    exact .of_eq rfl
  exact read.1

lemma viewStatement_congr (same : verbatim s (c.rest.drop 3) = verbatim s' (c.rest.drop 3)) :
    viewStatement s head c = viewStatement s' head c := by
  have read : Same (fun _ _ => True) (viewStatement s head) (viewStatement s' head) c := by
    refine .bind (.returning _ _) fun view d₁ h₁ => .bind (.returning _ _) fun name d₂ h₂ => ?_
    refine .bind (.returning _ _) fun as d₃ h₃ => .step rfl ?_
    rw [(of_keyword h₁).2, (of_identifier h₂).2, (of_word h₃).2] at same
    change verbatim s d₃.rest = verbatim s' d₃.rest at same
    rw [same]
    exact .of_eq rfl
  exact read.1

lemma triggerStatement_congr (same : ∀ timing call, splitAtExecute (c.rest.drop 1) = some (timing, call) →
    verbatim s timing = verbatim s' timing ∧ verbatim s call = verbatim s' call) :
    triggerStatement s head c = triggerStatement s' head c := by
  have read : Same (fun _ _ => True) (triggerStatement s head) (triggerStatement s' head) c := by
    refine .bind (.returning _ _) fun name d h => .step rfl ?_
    rw [(of_identifier h).2] at same
    split
    · exact .of_eq rfl
    · exact .fail _
    · exact .of_eq rfl
    · next found =>
      obtain ⟨timing, call⟩ := same _ _ found
      rw [timing, call]
      exact .of_eq rfl
  exact read.1

lemma extensionStatement_congr (same : verbatim s c.rest = verbatim s' c.rest) :
    extensionStatement s head c = extensionStatement s' head c := by
  have read : Same (fun _ _ => True) (extensionStatement s head) (extensionStatement s' head) c := by
    refine .step rfl ?_
    rw [same]
    exact .of_eq rfl
  exact read.1

lemma blockStatement_congr (same : verbatim s c.rest = verbatim s' c.rest) (handler : Plugin.Handler) :
    blockStatement s handler head c = blockStatement s' handler head c := by
  have read : Same (fun _ _ => True) (blockStatement s handler head) (blockStatement s' handler head) c := by
    refine .step rfl ?_
    rw [same]
    exact .of_eq rfl
  exact read.1

/-- A statement is read in the same way. -/
lemma readStatement_congr (h : AlikeFor s s' head tokens) (plugins : Plugin.Registry)
    (recovering atEnd : Bool) : readStatement s plugins recovering head tokens atEnd =
      readStatement s' plugins recovering head tokens atEnd := by
  obtain ⟨lines, runs⟩ := h
  unfold readStatement
  dsimp only
  unfold copiedRuns at runs
  split
  · next kind => rw [entity_congr (lines kind)]
  · rfl
  · next kind =>
    rw [kind] at runs
    rw [indexStatement_congr (runs _ (List.mem_singleton_self _))]
  · next kind =>
    rw [kind] at runs
    rw [viewStatement_congr (runs _ (List.mem_singleton_self _))]
  · next kind =>
    rw [kind] at runs
    rw [triggerStatement_congr fun timing call found => ?_]
    dsimp only at found runs
    rw [found] at runs
    exact ⟨runs _ List.mem_cons_self, runs _ (List.mem_cons_of_mem _ List.mem_cons_self)⟩
  · next kind =>
    rw [kind] at runs
    rw [extensionStatement_congr (runs _ (List.mem_singleton_self _))]
  · next kind =>
    rw [kind] at runs
    have same (handler : Plugin.Handler) :
        blockStatement s handler head ⟨head, tokens, atEnd⟩ =
          blockStatement s' handler head ⟨head, tokens, atEnd⟩ :=
      blockStatement_congr (runs _ (List.mem_singleton_self _)) handler
    simp only [same]
  · rfl

/-- Statements are read in the same way. -/
lemma readStatements_congr {groups : List (Token × List Token)} (h : ∀ g ∈ groups, Alike s s' g.2)
    (plugins : Plugin.Registry) (recovering : Bool) :
    readStatements s plugins recovering groups = readStatements s' plugins recovering groups := by
  induction groups generalizing recovering with
  | nil => rfl
  | cons g rest ih =>
    obtain ⟨head, tokens⟩ := g
    obtain ⟨first, others⟩ := List.forall_mem_cons.1 h
    rw [readStatements, readStatements, readStatement_congr (first.statement head), ih others]

end Copies

/-- Reading a document with a source that is right about the parts of the text is reading it with the
text. -/
lemma readStatements_of_agrees {src : Source} {cs : List Char} {ts : List Token} (agrees : src.Agrees cs)
    (ordered : Token.Ordered (Text.byteSize cs) ts) (plugins : Plugin.Registry) :
    readStatements src plugins false (statementGroups ts) =
      readStatements (Text.slice cs) plugins false (statementGroups ts) := by
  refine readStatements_congr (fun g hg => ?_) plugins false
  have sub := (List.sublist_cons_self _ _).trans (sublist_of_mem_statementGroups hg)
  exact agrees.alike (ordered.sublist sub)

end ErdSql.Document
