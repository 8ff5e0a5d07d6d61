import ErdSql.Proofs.Extents
import ErdSql.Proofs.FieldLines

/-!
# What reading asks of the source

Readers copy some texts from the source, by the offsets of tokens. They ask only for parts of the
source that exist: between two places in order, inside the text. And every turn of a loop over tokens
reads one.

* `Document.Source.Agrees`: a source that is right about such parts, and gives anything elsewhere.
* `Document.Same`: two readers do the same at a place.
* `Document.entity_congr`: what two sources that agree about its lines make of an entity.
-/

namespace ErdSql.Document

open ErdSql.Document.Parser

/-! ### Sources -/

namespace Source

/-- A source that gives the text wherever a part of the text is asked for. What it gives elsewhere is
open. -/
def Agrees (src : Source) (cs : List Char) : Prop :=
  ∀ start stop, start ≤ stop → stop ≤ Text.byteSize cs → src start stop = Text.slice cs start stop

/-- Two sources give the same from the start of each token to its end, and to the end of each later
one. -/
def Alike (s s' : Source) (ts : List Token) : Prop :=
  ∀ t us, (t :: us).Sublist ts → ∀ u ∈ t :: us, s t.offset u.stop = s' t.offset u.stop

variable {s s' : Source} {ts us : List Token}

lemma Alike.refl (s : Source) (ts : List Token) : Alike s s ts :=
  fun _ _ _ _ _ => rfl

lemma Alike.sublist (h : Alike s s' ts) (sub : us.Sublist ts) : Alike s s' us :=
  fun t vs inner => h t vs (inner.trans sub)

/-- Between tokens in order there are parts of the text only. -/
lemma Agrees.alike {src : Source} {cs : List Char} (h : src.Agrees cs)
    (ordered : Token.Ordered (Text.byteSize cs) ts) : Alike src (Text.slice cs) ts := by
  intro t us sub u hu
  obtain ⟨start, stop⟩ := (ordered.sublist sub).part hu
  exact h _ _ start stop

end Source

open Source

/-! ### Readers that do the same -/

/-- What holds of the value of an outcome and of the place behind it, if there is a value. -/
def Ends {α : Type} (P : α → Cursor → Prop) : Parsed α → Prop
  | .ok a after => P a after
  | .error _ _ => True

/-- Two readers do the same at a place, and the value and the place behind it have a property. -/
def Same {α : Type} (P : α → Cursor → Prop) (p q : Parser α) (c : Cursor) : Prop :=
  p c = q c ∧ Ends P (q c)

/-- A place at least one token behind another one. -/
def Past (c after : Cursor) : Prop :=
  after.rest <:+ c.skip.rest ∧ c.rest ≠ []

/-- The tokens behind the current one are at the end of those left. -/
lemma rest_skip_suffix (c : Cursor) : c.skip.rest <:+ c.rest := by
  unfold Cursor.skip
  split
  · next rest => rw [rest]; exact List.suffix_cons _ _
  · exact List.suffix_rfl

section Places
variable {c mid after : Cursor}

lemma Past.suffix (h : Past c after) : after.rest <:+ c.rest :=
  h.1.trans (rest_skip_suffix c)

lemma Past.trans (h : Past c mid) (more : after.rest <:+ mid.rest) : Past c after :=
  ⟨more.trans h.1, h.2⟩

lemma Past.length_lt (h : Past c after) : after.rest.length < c.rest.length :=
  Nat.lt_of_le_of_lt h.1.length_le (c.length_skip_lt h.2)

end Places

/-- At the end the current token is of no kind. -/
lemma kind_current_of_nil {c : Cursor} (h : c.rest = []) : c.current.kind = .eof := by
  simp [Cursor.current, h]

/-- A token of a kind is left. -/
lemma rest_ne_nil_of_kind {c : Cursor} (h : c.current.kind ≠ .eof) : c.rest ≠ [] :=
  fun none => h (kind_current_of_nil none)

namespace Same

variable {α β : Type} {P : α → Cursor → Prop} {Q : β → Cursor → Prop} {p q : Parser α} {c : Cursor}

lemma mono {P' : α → Cursor → Prop} (h : Same P p q c) (le : ∀ a after, P a after → P' a after) :
    Same P' p q c := by
  refine ⟨h.1, ?_⟩
  have ends := h.2
  cases found : q c with
  | error e stopped => trivial
  | ok a after =>
    rw [found] at ends
    exact le a after ends

lemma and {P' : α → Cursor → Prop} (h : Same P p q c) (h' : Same P' p q c) :
    Same (fun a after => P a after ∧ P' a after) p q c := by
  refine ⟨h.1, ?_⟩
  have ends := h.2
  have ends' := h'.2
  cases found : q c with
  | error e stopped => trivial
  | ok a after =>
    rw [found] at ends ends'
    exact ⟨ends, ends'⟩

lemma pure {a : α} (h : P a c) : Same P (Pure.pure a) (Pure.pure a) c :=
  ⟨rfl, h⟩

/-- What follows does the same wherever the first readers may stop. -/
lemma bind {f g : α → Parser β} (first : Same P p q c)
    (last : ∀ a mid, P a mid → Same Q (f a) (g a) mid) : Same Q (p >>= f) (q >>= g) c := by
  obtain ⟨eq, ends⟩ := first
  change Parser.bind p f c = Parser.bind q g c ∧ Ends Q (Parser.bind q g c)
  rw [Parser.bind, Parser.bind, eq]
  cases found : q c with
  | error e stopped => exact ⟨rfl, trivial⟩
  | ok a mid =>
    rw [found] at ends
    exact last a mid ends

/-- A reader that is sure to give a value at this place. -/
lemma step {f g : α → Parser β} {a : α} {mid : Cursor} (read : p c = .ok a mid)
    (last : Same Q (f a) (g a) mid) : Same Q (p >>= f) (p >>= g) c := by
  change Parser.bind p f c = Parser.bind p g c ∧ Ends Q (Parser.bind p g c)
  rw [Parser.bind, Parser.bind, read]
  exact last

lemma fail (expected : Expected) : Same P (Parser.fail expected) (Parser.fail expected) c :=
  ⟨rfl, trivial⟩

lemma ite {b : Bool} {p' q' : Parser α} (yes : b = true → Same P p q c)
    (no : b = false → Same P p' q' c) :
    Same P (if b then p else p') (if b then q else q') c := by
  cases b
  · exact no rfl
  · exact yes rfl

/-- One reader does what it does. -/
lemma of_eq (h : p c = q c) : Same (fun _ _ => True) p q c := by
  refine ⟨h, ?_⟩
  cases q c <;> trivial

/-- A token may be passed over. -/
lemma skipIf {b : Bool} (h : ∀ d : Cursor, d.rest <:+ c.rest → Same P p q d) :
    Same P (if b then Parser.next >>= fun _ => p else p) (if b then Parser.next >>= fun _ => q else q) c :=
  .ite (fun _ => .step rfl (h _ (rest_skip_suffix c))) fun _ => h _ List.suffix_rfl

/-- A token that passes a test is read, if the test needs a token. -/
lemma satisfy {test : Token → Bool} (expected : Expected)
    (needs : ∀ t, t.kind = .eof → test t = false) :
    Same (fun _ => Past c) (Parser.satisfy test expected) (Parser.satisfy test expected) c := by
  refine ⟨rfl, ?_⟩
  unfold Parser.satisfy
  split
  · next passes =>
    refine ⟨List.suffix_rfl, rest_ne_nil_of_kind fun none => ?_⟩
    rw [needs _ none] at passes
    cases passes
  · trivial

lemma identifier (expected : Expected) :
    Same (fun _ => Past c) (identifier expected) (identifier expected) c :=
  satisfy expected fun t none => by simp [none]

lemma name (expected : Expected) : Same (fun _ => Past c) (name expected) (name expected) c :=
  satisfy expected fun t none => by simp [Token.isName, none]

lemma symbol (s : Char) : Same (fun _ => Past c) (symbol s) (symbol s) c :=
  satisfy _ fun t none => by simp [Token.isSymbol, none]

lemma word (w : String) : Same (fun _ => Past c) (word w) (word w) c :=
  satisfy _ fun t none => by simp [Token.isWord, none]

lemma keyword (k : Keyword) (expected : Expected) :
    Same (fun _ => Past c) (Parser.satisfy (·.isKeyword k) expected)
      (Parser.satisfy (·.isKeyword k) expected) c :=
  satisfy _ fun t none => by simp [Token.isKeyword, none]

lemma expr (expected : Expected) : Same (fun _ => Past c) (expr expected) (expr expected) c :=
  satisfy expected fun t none => by simp [none]

/-- Lists whose items are read in the same way are. -/
lemma commaList (items : ∀ d : Cursor, d.rest <:+ c.rest → Same (fun _ => Past d) p q d)
    (unfinished : Expected) :
    Same (fun _ => Past c) (Parser.commaList p unfinished) (Parser.commaList q unfinished) c := by
  induction length : c.rest.length using Nat.strong_induction_on generalizing c with
  | _ n ih =>
    obtain ⟨eq, ends⟩ := items c List.suffix_rfl
    unfold Same Parser.commaList
    rw [eq]
    cases found : q c with
    | error e stopped => exact ⟨rfl, trivial⟩
    | ok a mid =>
      rw [found] at ends
      have behind : Past c mid.skip := Past.trans ends (rest_skip_suffix mid)
      dsimp only
      split
      · split
        · next shorter =>
          -- behind the comma fewer tokens are left, and the sources are alike there too
          rw [length] at shorter
          have inner (d : Cursor) (h : d.rest <:+ mid.skip.rest) := items d (h.trans behind.suffix)
          obtain ⟨same, more⟩ := ih _ shorter inner rfl
          rw [same]
          refine ⟨rfl, ?_⟩
          cases rest : Parser.commaList q unfinished mid.skip with
          | error e stopped => trivial
          | ok as stop =>
            rw [rest] at more
            exact behind.trans (Past.suffix more)
        · exact ⟨rfl, trivial⟩
      · split
        · exact ⟨rfl, behind⟩
        · exact ⟨rfl, trivial⟩

end Same

/-! ### Readers that copy from the source -/

/-- The parenthesis that closes and what stands behind it are at the end of the tokens. -/
lemma balancedEnd_suffix {depth : Nat} {ts rest : List Token} {close : Token}
    (h : balancedEnd depth ts = some (close, rest)) : close :: rest <:+ ts := by
  fun_induction balancedEnd depth ts with
  | case1 => cases h
  | case2 depth t ts _ ih => exact (ih h).trans (List.suffix_cons _ _)
  | case3 => cases h; exact List.suffix_rfl
  | case4 depth t ts _ _ _ ih => exact (ih h).trans (List.suffix_cons _ _)
  | case5 depth t ts _ _ ih => exact (ih h).trans (List.suffix_cons _ _)

/-- What stands in balanced parentheses is read up to a token that is left. -/
lemma same_balanced (c : Cursor) :
    Same (fun close after => close ∈ c.rest ∧ after.rest <:+ c.rest) balanced balanced c := by
  refine ⟨rfl, ?_⟩
  unfold balanced
  split
  · next close rest found =>
    have suffix := balancedEnd_suffix found
    exact ⟨suffix.subset List.mem_cons_self, (List.suffix_cons _ _).trans suffix⟩
  · trivial

section Copies
variable {s s' : Source} {c : Cursor}

/-- A run of tokens has the same text. -/
lemma verbatim_congr {ts : List Token} (h : Alike s s' ts) : verbatim s ts = verbatim s' ts := by
  unfold verbatim
  split
  · next first ts last found =>
    rw [h first ts (List.Sublist.refl _) last (List.mem_of_getLast? found)]
  · rfl

/-- A literal is read from the current token on. -/
lemma same_literal (h : Alike s s' c.rest) : Same (fun _ => Past c) (literal s) (literal s') c := by
  refine .step rfl ?_
  split
  · next kind =>
    exact .step rfl (.pure ⟨List.suffix_rfl, rest_ne_nil_of_kind (by simp [kind])⟩)
  · next kind =>
    exact .step rfl (.pure ⟨List.suffix_rfl, rest_ne_nil_of_kind (by simp [kind])⟩)
  · next kind =>
    exact .step rfl (.pure ⟨List.suffix_rfl, rest_ne_nil_of_kind (by simp [kind])⟩)
  · next kind =>
    exact .step rfl (.pure ⟨List.suffix_rfl, rest_ne_nil_of_kind (by simp [kind])⟩)
  · next kind =>
    have left : c.rest ≠ [] := rest_ne_nil_of_kind (by simp [kind])
    refine .step rfl (.step rfl (.ite (fun _ => ?_) fun _ => .pure ⟨List.suffix_rfl, left⟩))
    refine .bind (same_balanced _) fun close after found => ?_
    obtain ⟨mem, suffix⟩ := found
    -- the call runs from the name to a parenthesis behind it
    have run : c.current :: c.skip.rest = c.rest := by
      cases rest : c.rest with
      | nil => exact absurd rest left
      | cons t ts => simp [Cursor.current, Cursor.skip, rest]
    have same := h c.current c.skip.rest (by rw [run]) close (List.mem_cons_of_mem _ mem)
    rw [same]
    exact .pure ⟨suffix, left⟩
  · refine .step rfl ?_
    split
    · next minus digits ts rest =>
      refine .ite (fun _ => .step rfl (.step rfl (.pure ⟨rest_skip_suffix _, ?_⟩))) fun _ => .fail _
      simp [rest]
    · exact .fail _

/-- Type arguments are read behind the opening parenthesis. -/
lemma same_typeArguments (h : Alike s s' c.rest) :
    Same (fun _ after => after.rest <:+ c.rest) (typeArguments s) (typeArguments s') c := by
  have behind := rest_skip_suffix c
  refine .step rfl (.step rfl (.ite (fun _ => ?_) fun _ => ?_))
  · exact .step rfl (.pure ((rest_skip_suffix _).trans behind))
  · refine (Same.commaList (fun d hd => ?_) _).mono fun _ _ past => past.suffix.trans behind
    exact same_literal (h.sublist (hd.trans behind).sublist)

/-- A list of names is read from its opening parenthesis on. -/
lemma same_nameList (item : ListItem) :
    Same (fun _ => Past c) (nameList item) (nameList item) c := by
  refine .bind (.symbol _) fun _ mid past => ?_
  refine .step rfl (.ite (fun _ => ?_) fun _ => ?_)
  · exact .step rfl (.pure (past.trans (rest_skip_suffix mid)))
  · refine .bind (.commaList (fun d _ => .name _) _) fun _ after more => ?_
    exact .pure (past.trans more.suffix)

/-- A constraint is read from its keyword on. -/
lemma same_constraint (h : Alike s s' c.rest) :
    Same (fun _ => Past c) (constraint s) (constraint s') c := by
  have skip := Alike.sublist h (rest_skip_suffix c).sublist
  have left {k : Keyword} (kind : c.current.kind = .keyword k) : Past c c.skip :=
    ⟨List.suffix_rfl, rest_ne_nil_of_kind (by simp [kind])⟩
  refine .step rfl ?_
  split
  · next kind => exact .step rfl (.pure (left kind))
  · next kind => exact .step rfl (.pure (left kind))
  · next kind =>
    exact .step rfl (.bind (.keyword _ _) fun _ _ past => .pure ((left kind).trans past.suffix))
  · next kind =>
    refine .step rfl (.bind (same_literal skip) fun _ mid past => .step rfl (.pure ?_))
    exact (left kind).trans past.suffix
  · next kind =>
    refine .step rfl (.step rfl (.ite (fun _ => .step rfl ?_) fun _ => .pure (left kind)))
    refine .bind (.name _) fun _ mid past => .bind (.symbol _) fun _ after more => .pure ?_
    exact (left kind).trans (more.suffix.trans (past.suffix.trans (rest_skip_suffix _)))
  · next kind =>
    exact .step rfl (.bind (.expr _) fun _ _ past => .pure ((left kind).trans past.suffix))
  · exact .fail _
  · exact .fail _

/-- The constraints of a field are the same. -/
lemma constraints_congr (h : Alike s s' c.rest) (span : Span) :
    constraints s span c = constraints s' span c := by
  induction length : c.rest.length using Nat.strong_induction_on generalizing c span with
  | _ n ih =>
    obtain ⟨eq, ends⟩ := same_constraint h
    rw [constraints, constraints, eq]
    cases found : constraint s' c with
    | error e stopped => rfl
    | ok k after =>
      rw [found] at ends
      have past : Past c after := ends
      dsimp only
      rw [ih _ (length ▸ past.length_lt) (h.sublist past.suffix.sublist) _ rfl]

/-- A field name is one token. -/
lemma same_fieldName : Same (fun _ => Past c) fieldName fieldName c := by
  refine .step rfl ?_
  split
  · next kind =>
    exact .step rfl (.pure ⟨List.suffix_rfl, rest_ne_nil_of_kind (by simp [kind])⟩)
  · exact .ite (fun _ => .step rfl ⟨rfl, trivial⟩) fun _ => .fail _

/-- What stands behind a type name is the same, up to the constraints. -/
lemma same_fieldBehindType (h : Alike s s' c.rest) (start : Token) (has : Bool) (type : Token) :
    Same (fun _ after => after.rest <:+ c.rest) (fieldBehindType s start has type)
      (fieldBehindType s' start has type) c := by
  refine .step rfl (.ite (fun _ => ?_) fun _ => ?_)
  · refine .bind (same_typeArguments h) fun _ mid behind => .bind same_fieldName fun _ after past => ?_
    exact .pure (past.suffix.trans behind)
  · exact .bind same_fieldName fun _ _ past => .pure past.suffix

/-- The head of a field line is the same. -/
lemma same_fieldHead (h : Alike s s' c.rest) :
    Same (fun _ after => after.rest <:+ c.rest) (fieldHead s) (fieldHead s') c := by
  refine .step rfl (.step rfl (.skipIf fun d hd => ?_))
  refine .bind (.satisfy _ fun t none => by simp [isTypeName, Token.isName, none]) fun type mid past => ?_
  have inside := past.suffix.trans hd
  exact (same_fieldBehindType (h.sublist inside.sublist) _ _ _).mono fun _ _ more => more.trans inside

/-! ### Lines of an entity -/

lemma fieldLine_congr (h : Alike s s' c.rest) : fieldLine s c = fieldLine s' c := by
  obtain ⟨eq, ends⟩ := same_fieldHead h
  rw [fieldLine, fieldLine, eq]
  cases found : fieldHead s' c with
  | error e stopped => rfl
  | ok field mid =>
    rw [found] at ends
    have behind : mid.rest <:+ c.rest := ends
    dsimp only
    rw [constraints_congr (h.sublist behind.sublist)]

/-- Of the features only an expiry has a literal. -/
lemma same_feature (h : Alike s s' c.rest) (k : Keyword) :
    Same (fun _ _ => True) (feature s k) (feature s' k) c := by
  cases k
  case ttl =>
    refine .bind (.symbol _) fun _ d₁ h₁ => .bind (.name _) fun _ d₂ h₂ => ?_
    refine .bind (.symbol _) fun _ d₃ h₃ => ?_
    have behind := h₃.suffix.trans (h₂.suffix.trans h₁.suffix)
    exact .bind (same_literal (h.sublist behind.sublist)) fun _ _ _ => .of_eq rfl
  all_goals exact .of_eq rfl

lemma same_directiveLine (h : Alike s s' c.rest) (k : Keyword) :
    Same (fun _ _ => True) (directiveLine s k) (directiveLine s' k) c :=
  .step rfl (.bind (same_feature (h.sublist (rest_skip_suffix c).sublist) k) fun _ _ _ => .of_eq rfl)

lemma entityLine_congr (h : Alike s s' c.rest) : entityLine s c = entityLine s' c := by
  unfold entityLine
  simp only [fieldLine_congr h, (same_directiveLine h _).1]

lemma entityLines_congr {lines : List (List Token)} (h : ∀ line ∈ lines, Alike s s' line) (atEnd : Bool)
    (previous : Token) : entityLines s atEnd previous lines = entityLines s' atEnd previous lines := by
  induction lines generalizing previous with
  | nil => rfl
  | cons line rest ih =>
    obtain ⟨first, others⟩ := List.forall_mem_cons.1 h
    rw [entityLines, entityLines, entityLine_congr (c := ⟨previous, line, _⟩) first, ih others]

/-- Lines hold the tokens of an entity and no others. -/
lemma flatten_lineGroups (ts : List Token) : (lineGroups ts).flatten = ts := by
  have go (last : Nat) (line ts : List Token) :
      (lineGroups.go last line ts).flatten = line.reverse ++ ts := by
    fun_induction lineGroups.go last line ts with
    | case1 => simp
    | case2 last line t ts _ ih => simp [ih]
    | case3 last line t ts _ ih => simp [ih]
  cases ts with
  | nil => rfl
  | cons t ts => simp [lineGroups, go]

/-- The tokens of a line are tokens of the entity. -/
lemma sublist_of_mem_lineGroups {line ts : List Token} (h : line ∈ lineGroups ts) : line.Sublist ts := by
  conv_rhs => rw [← flatten_lineGroups ts]
  exact List.sublist_flatten_of_mem h

/-- No line is empty. -/
lemma nil_notMem_lineGroups (ts : List Token) : [] ∉ lineGroups ts := by
  have go (last : Nat) (line ts : List Token) (ne : line ≠ []) : [] ∉ lineGroups.go last line ts := by
    fun_induction lineGroups.go last line ts with
    | case1 => simpa using ne
    | case2 last line t ts _ ih =>
      rw [List.mem_cons, not_or]
      exact ⟨by simpa using ne.symm, ih (by simp)⟩
    | case3 last line t ts _ ih => exact ih (by simp)
  cases ts with
  | nil => exact List.not_mem_nil
  | cons t ts => exact go _ _ _ (by simp)

/-- An entity is read in the same way if its lines are. -/
lemma entity_congr {head : Token} {tokens : List Token} (h : ∀ line ∈ lineGroups tokens, Alike s s' line)
    (atEnd : Bool) : entity s head tokens atEnd = entity s' head tokens atEnd := by
  have body : ∀ (b : Bool), ∀ line ∈ (if b then (lineGroups tokens).drop 1 else lineGroups tokens),
      Alike s s' line := by
    intro b line hline
    cases b
    · exact h line hline
    · exact h line (List.mem_of_mem_drop hline)
  unfold entity
  simp only [entityLines_congr (body _)]

end Copies

/-- Statements hold the tokens of a document and no others. -/
lemma flatMap_statementGroups (ts : List Token) :
    ((statementGroups ts).flatMap fun g => g.1 :: g.2) = ts := by
  have go (head previous : Token) (collected ts : List Token) :
      ((statementGroups.go head previous collected ts).flatMap fun g => g.1 :: g.2) =
        head :: (collected.reverse ++ ts) := by
    fun_induction statementGroups.go head previous collected ts with
    | case1 => simp
    | case2 head previous collected t ts _ ih => simp [ih]
    | case3 head previous collected t ts _ ih => simp [ih]
  cases ts with
  | nil => rfl
  | cons t ts => simp [statementGroups, go]

/-- The tokens of a statement are tokens of the text. -/
lemma sublist_of_mem_statementGroups {g : Token × List Token} {ts : List Token}
    (h : g ∈ statementGroups ts) : (g.1 :: g.2).Sublist ts := by
  conv_rhs => rw [← flatMap_statementGroups ts]
  exact List.sublist_flatten_of_mem (List.mem_map_of_mem h)

/-! ### Turns of loops -/

/-- A reader that gives a value only behind a token that it reads. -/
def Advances {α : Type} (p : Parser α) : Prop :=
  ∀ c a after, p c = .ok a after → after.rest.length < c.rest.length

lemma Same.advances {α : Type} {p : Parser α} (h : ∀ c, Same (fun _ => Past c) p p c) : Advances p := by
  intro c a after read
  have ends := (h c).2
  rw [read] at ends
  exact Past.length_lt ends

lemma advances_name (expected : Expected) : Advances (name expected) :=
  Same.advances fun _ => .name expected

lemma advances_literal (src : Source) : Advances (literal src) :=
  Same.advances fun _ => same_literal (.refl src _)

lemma advances_constraint (src : Source) : Advances (constraint src) :=
  Same.advances fun _ => same_constraint (.refl src _)

/-- A policy clause is read from its word on. -/
lemma same_policyClause (p : Policy) (c : Cursor) :
    Same (fun _ => Past c) (policyClause p) (policyClause p) c := by
  have word {w : String} (seen : c.current.isWord w = true) : Past c c.skip := by
    refine ⟨List.suffix_rfl, rest_ne_nil_of_kind fun none => ?_⟩
    simp [Token.isWord, none] at seen
  refine .step rfl (.ite (fun seen => .step rfl ?_) fun _ => ?_)
  · exact .bind (.identifier _) fun _ _ past => .pure ((word seen).trans past.suffix)
  refine .step rfl (.ite (fun seen => .step rfl ?_) fun _ => ?_)
  · exact .bind (.identifier _) fun _ _ past => .pure ((word seen).trans past.suffix)
  refine .step rfl (.ite (fun seen => .step rfl ?_) fun _ => ?_)
  · exact .bind (.expr _) fun _ _ past => .pure ((word seen).trans past.suffix)
  refine .step rfl (.ite (fun seen => .step rfl ?_) fun _ => .fail _)
  refine .bind (.keyword _ _) fun _ _ past => .bind (.expr _) fun _ _ past' => .pure ?_
  exact (word seen).trans (past'.suffix.trans past.suffix)

lemma advances_policyClause (p : Policy) : Advances (policyClause p) :=
  Same.advances (same_policyClause p)

end ErdSql.Document
