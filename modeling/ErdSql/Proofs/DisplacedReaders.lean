import ErdSql.Proofs.Displacement

/-!
# Reading further down

A document that stands further down is read into the same statements, further down, and so is a
statement that is no longer the last one.

* `Document.entityLine_moved`: what a line of an entity contributes.
* `Document.entity_moved`: an entity.
* `Document.statement_moved`: the statement of any group of tokens.
-/

namespace ErdSql.Document

open ErdSql.Document.Parser

variable {lines : Nat} {pairing : Token.Pairing lines} {ts ts' : List Token}

/-! ### Readers -/

/-- A source that has the text of another one further down. -/
def Source.Moved (bytes : Nat) (s s' : Source) : Prop :=
  ∀ start stop, s' (start + bytes) (stop + bytes) = s start stop

/-- Two sources that have the same text from one token to another and from the one to the other of the
tokens that correspond to these. -/
def Source.Paired (pairing : Token.Pairing lines) (s s' : Source) : Prop :=
  ∀ {t t' u u' : Token}, pairing.Pairs t t' → pairing.Pairs u u' →
    s' t'.offset u'.stop = s t.offset u.stop

lemma Source.Moved.paired {bytes : Nat} {s s' : Source} (h : s.Moved bytes s') (lines : Nat) :
    s.Paired (.shift bytes lines) s' := by
  rintro t _ u _ rfl rfl
  exact h t.offset u.stop

lemma balancedEnd_moved (depth : Nat) (h : List.Forall₂ pairing.Pairs ts ts') :
    Option.Rel (fun r r' => pairing.Pairs r.1 r'.1 ∧ List.Forall₂ pairing.Pairs r.2 r'.2)
      (balancedEnd depth ts) (balancedEnd depth ts') := by
  induction h generalizing depth with
  | nil => exact .none
  | cons here behind ih =>
    rw [balancedEnd, balancedEnd, (pairing.like here).isSymbol, (pairing.like here).isSymbol]
    split
    · exact ih _
    · split
      · split
        · exact .some ⟨here, behind⟩
        · exact ih _
      · exact ih _

lemma moves_balanced : Moves pairing pairing.Pairs balanced balanced := by
  intro c c' place
  have found := balancedEnd_moved 0 place.rest
  unfold balanced
  generalize balancedEnd 0 c.rest = r at found ⊢
  generalize balancedEnd 0 c'.rest = r' at found ⊢
  cases found with
  | none => exact place.skipAll
  | some found => exact ⟨found.1, found.1, found.2⟩

lemma map_spelling (h : List.Forall₂ pairing.Pairs ts ts') :
    ts'.map (·.spelling) = ts.map (·.spelling) := by
  induction h with
  | nil => rfl
  | cons here _ ih => rw [List.map_cons, List.map_cons, (pairing.like here).spelling, ih]

lemma moves_nameList (item : ListItem) :
    Moves pairing (fun names names' => names' = names) (nameList item) (nameList item) := by
  refine .bind (.symbol _) fun _ _ _ => .branch (fun like => like.isSymbol _) ?_ ?_
  · exact .bind .next fun _ _ _ => .pure rfl
  · exact .bind (.commaList (.name _) _) fun _ _ read => .pure (map_spelling read.1)

lemma moves_fieldName :
    Moves pairing (fun x x' => pairing.Pairs x.1 x'.1 ∧ x'.2 = x.2) fieldName fieldName := by
  refine .bind .peek fun t t' same => ?_
  have like := pairing.like same
  have bare : isBareSigil t' = isBareSigil t := by
    rw [isBareSigil, isBareSigil, like.isSymbol, like.isSymbol, like.isSymbol]
  rw [like.kind]
  split
  · exact .bind .next fun t t' same => .pure ⟨same, rfl⟩
  · exact .ite bare (.bind .next fun _ _ _ _ _ place => place) (.fail _)

/-- A field line starts with its first token. -/
lemma startColumn_of_fieldHead {s : Source} {c after : Cursor} {f : Field}
    (h : fieldHead s c = .ok f after) : f.span.startColumn = c.current.column := by
  have head : Same (fun (f : Field) _ => f.span.startColumn = c.current.column) (fieldHead s)
      (fieldHead s) c := by
    refine .step rfl (.step rfl (.skipIf fun d hd => .bind (.of_eq rfl) fun _ _ _ => ?_))
    refine .step rfl (.ite (fun _ => ?_) fun _ => ?_)
    · refine .bind (.of_eq rfl) fun _ _ _ => .bind (.of_eq rfl) fun _ _ _ => .pure ?_
      exact Span.startColumn_between _ _
    · exact .bind (.of_eq rfl) fun _ _ _ => .pure (Span.startColumn_between _ _)
  have ends := head.2
  rwa [h] at ends

/-- What is read of the constraints of a field. -/
def MovedConstraints (pairing : Token.Pairing lines)
    (r r' : List Constraint × Span × Option ParseError × Cursor) : Prop :=
  r'.1 = r.1.map (·.shift lines) ∧ r'.2.1 = r.2.1.shift lines ∧ r.2.2.2.Moved pairing r'.2.2.2

lemma fieldBehindArguments_moved (depth : Nat) (h : List.Forall₂ pairing.Pairs ts ts') :
    fieldBehindArguments depth ts' = fieldBehindArguments depth ts := by
  induction h generalizing depth with
  | nil => rfl
  | cons here behind ih =>
    simp only [fieldBehindArguments, (pairing.like here).isSymbol, ih]
    cases behind with
    | nil => rfl
    | cons next _ => simp only [(pairing.like next).kind]

lemma startsField_moved (h : List.Forall₂ pairing.Pairs ts ts') : startsField ts' = startsField ts := by
  cases h with
  | nil => rfl
  | cons _ behind =>
    have arguments := fieldBehindArguments_moved 0 behind
    cases behind with
    | nil => rfl
    | cons next _ =>
      have like := pairing.like next
      rw [startsField, startsField, like.isSymbol, like.kind, arguments]

/-- What a line contributes, further down. -/
def LineItem.shift (lines : Nat) : LineItem → LineItem
  | field f => field (f.shift lines)
  | key k => key (k.shift lines)
  | directive d => directive (d.shift lines)

@[simp]
lemma LineItem.shift_zero (i : LineItem) : i.shift 0 = i := by cases i <;> simp [shift]

/-- Two corresponding lines contribute the same and stop at corresponding tokens. -/
structure LineResult.Moved (pairing : Token.Pairing lines) (r r' : LineResult) : Prop where
  item : r'.item = r.item.map (·.shift lines)
  last : pairing.Pairs r.last r'.last

namespace LineResult.Moved

variable {r r' : LineResult} (h : r.Moved pairing r')
include h

lemma field? : r'.field? = r.field?.map (·.shift lines) := by
  rw [LineResult.field?, LineResult.field?, h.item]
  rcases r.item with _ | _ | _ | _ <;> rfl

lemma key? : r'.key? = r.key?.map (·.shift lines) := by
  rw [LineResult.key?, LineResult.key?, h.item]
  rcases r.item with _ | _ | _ | _ <;> rfl

lemma directive? : r'.directive? = r.directive?.map (·.shift lines) := by
  rw [LineResult.directive?, LineResult.directive?, h.item]
  rcases r.item with _ | _ | _ | _ <;> rfl

end LineResult.Moved

lemma LineResult.moved_ofParsed {α : Type} {move : α → α} {r r' : Parsed α} (wrap : α → LineItem)
    (wraps : ∀ a, wrap (move a) = (wrap a).shift lines)
    (h : r.Moved pairing (fun a a' => a' = move a) r') :
    (ofParsed wrap r).Moved pairing (ofParsed wrap r') := by
  obtain ⟨a, _, after, after', rfl, rfl, rfl, place⟩ | ⟨e, stopped, e', stopped', rfl, rfl, place⟩ :=
    h.cases
  · exact ⟨congrArg some (wraps a), place.previous⟩
  · exact ⟨rfl, place.previous⟩

/-- Whether text stands behind the marker of an entity on its line. -/
def strayBehind (head : Token) : List Token → Bool
  | t :: _ => t.line ≤ head.endLine
  | [] => false

/-- The lines of an entity below its marker. -/
def bodyLines (head : Token) (tokens : List Token) : List (List Token) :=
  if strayBehind head tokens then (lineGroups tokens).drop 1 else lineGroups tokens

/-- The last token of the line of the marker. -/
def lastBeforeBody (head : Token) (tokens : List Token) : Token :=
  (if strayBehind head tokens then (lineGroups tokens).head?.getD [] else []).getLast?.getD head

lemma entity_fst (s : Source) (head : Token) (tokens : List Token) (atEnd : Bool) :
    (entity s head tokens atEnd).1 =
      let results := entityLines s atEnd (lastBeforeBody head tokens) (bodyLines head tokens)
      ⟨head.spelling, head.span, results.filterMap (·.field?), results.filterMap (·.key?),
        results.filterMap (·.directive?), results.foldl (fun s r => s.extend r.last) head.span⟩ := by
  cases tokens <;> rfl

section Copies
variable {s s' : Source}

lemma verbatim_cons (s : Source) (t : Token) (ts : List Token) :
    verbatim s (t :: ts) =
      String.ofList (Text.trimChars (s t.offset (ts.getLast?.getD t).stop)) := by
  unfold verbatim
  rw [List.getLast?_cons]

lemma verbatim_moved (source : s.Paired pairing s') (h : List.Forall₂ pairing.Pairs ts ts') :
    verbatim s' ts' = verbatim s ts := by
  cases h with
  | nil => rfl
  | cons first others =>
    have last := Token.Pairing.getLast?_getD first others
    rw [verbatim_cons, verbatim_cons, source first last]

lemma moves_literal (source : s.Paired pairing s') :
    Moves pairing (fun l l' => l' = l.shift lines) (literal s) (literal s') := by
  refine .bind .peek fun t t' same => ?_
  rw [(pairing.like same).kind]
  -- a constant of one token
  have single {kind : Literal.Kind} {t t' : Token} (same : pairing.Pairs t t') :
      (⟨kind, t'.spelling, t'.span⟩ : Literal) = Literal.shift lines ⟨kind, t.spelling, t.span⟩ := by
    simp [Literal.shift, (pairing.like same).spelling, (pairing.like same).span]
  split
  · exact .bind .next fun _ _ same => .pure (single same)
  · exact .bind .next fun _ _ same => .pure (single same)
  · exact .bind .next fun _ _ same => .pure (single same)
  · exact .bind .next fun _ _ same => .pure (by simp [Literal.shift, (pairing.like same).span])
  · refine .bind .next fun t t' same => .branch (fun like => like.isSymbol _) ?_ (.pure (single same))
    refine .bind moves_balanced fun close close' last => .pure ?_
    rw [source same last, (pairing.like same).between (pairing.like last)]
    rfl
  · refine .bind .remaining fun ts ts' left => ?_
    cases left with
    | nil => exact .fail _
    | cons minus others =>
      cases others with
      | nil => exact .fail _
      | cons digits _ =>
        have first := pairing.like minus
        refine .ite (by rw [first.isSymbol, (pairing.like digits).kind]) ?_ (.fail _)
        refine .bind .next fun _ _ _ => .bind .next fun _ _ same => .pure ?_
        rw [first.between (pairing.like same), (pairing.like same).spelling]
        rfl

lemma moves_typeArguments (source : s.Paired pairing s') :
    Moves pairing (fun r r' => r'.1 = r.1.map (·.shift lines) ∧ pairing.Pairs r.2 r'.2) (typeArguments s)
      (typeArguments s') := by
  refine .bind .next fun _ _ _ => .branch (fun like => like.isSymbol _) ?_ ?_
  · exact .bind .next fun close close' same => .pure ⟨rfl, same⟩
  · intro c c' place
    obtain ⟨r, r', after, after', here, there, ⟨args, close⟩, behind⟩ |
      ⟨e, stopped, e', stopped', here, there, halt⟩ :=
        (Moves.commaList (moves_literal source) .typeArgumentsEnd c c' place).cases
    · rw [here, there]
      exact ⟨⟨map_of_forall₂ args, close⟩, behind⟩
    · rw [here, there]
      exact halt

lemma moves_constraint (source : s.Paired pairing s') :
    Moves pairing (fun k k' => k' = k.shift lines) (constraint s) (constraint s') := by
  refine .bind .peek fun t t' same => ?_
  rw [(pairing.like same).kind]
  split
  · exact .bind .next fun t t' first =>
      .pure (by simp [Constraint.shift, Clause.shift, (pairing.like first).span])
  · exact .bind .next fun t t' first =>
      .pure (by simp [Constraint.shift, Clause.shift, (pairing.like first).span])
  · refine .bind .next fun t t' first => .bind (.keyword _ _) fun null null' last => .pure ?_
    simp [Constraint.shift, Clause.shift, (pairing.like first).between (pairing.like last)]
  · refine .bind .next fun t t' first => .bind (moves_literal source) fun value _ eq => ?_
    subst eq
    refine .bind .previous fun _ _ last => .pure ?_
    simp [Constraint.shift, Clause.shift, (pairing.like first).between (pairing.like last)]
  · refine .bind .next fun t t' first => .branch (fun like => like.isSymbol _) ?_ ?_
    · refine .bind .next fun _ _ _ => .bind (.name _) fun target target' named => ?_
      refine .bind (.symbol _) fun close close' last => .pure ?_
      simp [Constraint.shift, Clause.shift, (pairing.like first).between (pairing.like last),
        (pairing.like named).spelling]
    · exact .pure (by simp [Constraint.shift, Clause.shift, (pairing.like first).span])
  · refine .bind .next fun t t' first => .bind (.expr _) fun e e' last => .pure ?_
    simp [Constraint.shift, Clause.shift, (pairing.like first).between (pairing.like last),
      (pairing.like last).spelling]
  · exact .fail _
  · exact .fail _

/-- The constraints of a field, with the span that covers them and the place where they stop. -/
lemma constraints_moved (source : s.Paired pairing s') {c c' : Cursor} (place : c.Moved pairing c')
    {span : Span} (somewhere : span.startColumn ≠ 0) :
    MovedConstraints pairing (constraints s span c) (constraints s' (span.shift lines) c') := by
  induction length : c.rest.length using Nat.strong_induction_on generalizing c c' span with
  | _ n ih =>
    rw [constraints, constraints, place.isEmpty]
    split
    · exact ⟨rfl, rfl, place⟩
    · obtain ⟨k, _, after, after', here, there, rfl, behind⟩ |
        ⟨e, stopped, e', stopped', here, there, halt⟩ := (moves_constraint source c c' place).cases
      · have column := Span.startColumn_extend somewhere after.previous
        simp only [here, there, behind.length, place.length,
          (pairing.like behind.previous).extend somewhere]
        split
        · next shorter =>
          obtain ⟨more, all, stop⟩ := ih _ (length ▸ shorter) behind (column ▸ somewhere) rfl
          exact ⟨congrArg (k.shift lines :: ·) more, all, stop⟩
        · exact ⟨rfl, rfl, behind⟩
      · rw [here, there]
        exact ⟨rfl, rfl, halt⟩

lemma moves_fieldHead (source : s.Paired pairing s') :
    Moves pairing (fun f f' => f' = f.shift lines) (fieldHead s) (fieldHead s') := by
  have typed {t t' : Token} (like : t.Like lines t') : isTypeName t' = isTypeName t := by
    rw [isTypeName, isTypeName, like.isName, like.isKeyword]
  refine .bind .peek fun start start' first => ?_
  refine .bind (.sees fun like => like.isKeyword _) fun has _ eq => .skipIf eq ?_
  subst eq
  refine .bind (.satisfy typed _) fun type type' named => .branch (fun like => like.isSymbol _) ?_ ?_
  · refine .bind (moves_typeArguments source) ?_
    rintro ⟨args, close⟩ ⟨_, close'⟩ ⟨eq, closed⟩
    refine .bind moves_fieldName ?_
    rintro ⟨t, cardinality⟩ ⟨t', _⟩ ⟨last, same⟩
    refine .pure ?_
    simp only at eq closed last same
    simp [Field.shift, TypeRef.shift, eq, same, (pairing.like named).spelling, (pairing.like last).spelling,
      (pairing.like named).between (pairing.like closed), (pairing.like first).between (pairing.like last)]
  · refine .bind moves_fieldName ?_
    rintro ⟨t, cardinality⟩ ⟨t', _⟩ ⟨last, same⟩
    refine .pure ?_
    simp only at last same
    simp [Field.shift, TypeRef.shift, same, (pairing.like named).spelling, (pairing.like last).spelling,
      (pairing.like named).span, (pairing.like first).between (pairing.like last)]

/-! ### Lines of an entity -/

lemma moves_keyLine (key : List String → Key) :
    Moves pairing (fun k k' => k' = k.shift lines) (keyLine key) (keyLine key) := by
  refine .bind .next fun t t' first => .branch (fun like => like.isSymbol _) ?_ ?_
  · refine .bind (moves_nameList _) fun columns _ eq => .bind (.finish _) fun _ _ _ => ?_
    refine .bind .previous fun last last' stop => .pure ?_
    simp [KeyLine.shift, eq, (pairing.like first).between (pairing.like stop)]
  · rw [(pairing.like first).text]
    exact .fail _

lemma moves_checkLine : Moves pairing (fun k k' => k' = k.shift lines) checkLine checkLine := by
  refine .bind .next fun t t' first => .bind (.expr _) fun e e' last => .bind (.finish _) fun _ _ _ => ?_
  refine .pure ?_
  simp [KeyLine.shift, (pairing.like last).spelling, (pairing.like first).between (pairing.like last)]

lemma moves_policyClause (p p' : Policy) (same : p' = p) :
    Moves pairing (fun p p' => p' = p) (policyClause p) (policyClause p') := by
  subst same
  refine .branch (fun like => like.isWord _) ?_ ?_
  · exact .bind .next fun _ _ _ => .bind (.identifier _) fun _ _ named =>
      .pure (by rw [(pairing.like named).spelling])
  refine .branch (fun like => like.isWord _) ?_ ?_
  · exact .bind .next fun _ _ _ => .bind (.identifier _) fun _ _ named =>
      .pure (by rw [(pairing.like named).spelling])
  refine .branch (fun like => like.isWord _) ?_ ?_
  · exact .bind .next fun _ _ _ => .bind (.expr _) fun _ _ e => .pure (by rw [(pairing.like e).spelling])
  refine .branch (fun like => like.isWord _) ?_ (.fail _)
  refine .bind .next fun _ _ _ => .bind (.keyword _ _) fun _ _ _ => ?_
  exact .bind (.expr _) fun _ _ e => .pure (by rw [(pairing.like e).spelling])

lemma moves_feature (source : s.Paired pairing s') (k : Keyword) :
    Moves pairing (fun f f' => f' = f.shift lines) (feature s k) (feature s' k) := by
  cases k
  case partition =>
    refine .bind (.word _) fun _ _ _ => .bind (.identifier _) fun strategy strategy' named => ?_
    refine .bind (moves_nameList _) fun columns _ eq => .pure ?_
    rw [eq, (pairing.like named).spelling]
    rfl
  case ttl =>
    refine .bind (.symbol _) fun _ _ _ => .bind (.name _) fun column column' named => ?_
    refine .bind (.symbol _) fun _ _ _ => .bind (moves_literal source) fun interval _ eq => ?_
    refine .bind (.symbol _) fun _ _ _ => .pure ?_
    rw [eq, (pairing.like named).spelling]
    rfl
  case fts =>
    refine .bind (moves_nameList _) fun columns _ eq => ?_
    subst eq
    refine .branch (fun like => like.isWord _) ?_ (.pure rfl)
    refine .bind .next fun _ _ _ => .bind (.identifier _) fun method method' named => .pure ?_
    rw [(pairing.like named).spelling]
    rfl
  case rls =>
    refine .bind .done fun _ _ eq => .ite eq (.pure rfl) (.bind .peek fun t t' same => ?_)
    rw [(pairing.like same).kind, (pairing.like same).spelling]
    split
    · exact .bind .next fun _ _ _ => .pure rfl
    · exact .fail _
  case policy =>
    refine .bind (.identifier _) fun t t' named => ?_
    refine .bind (.repeatToEnd moves_policyClause (by rw [(pairing.like named).spelling])) fun _ _ eq => ?_
    exact .pure (by rw [eq]; rfl)
  case softDelete =>
    refine .bind (moves_nameList _) fun _ columns eq => ?_
    subst eq
    rcases columns with _ | ⟨column, _ | ⟨other, more⟩⟩
    · exact .bind .previous fun _ _ _ => .failAt _ _ _ _
    · exact .pure rfl
    · exact .bind .previous fun _ _ _ => .failAt _ _ _ _
  all_goals exact .pure rfl

lemma moves_directiveLine (source : s.Paired pairing s') (k : Keyword) :
    Moves pairing (fun d d' => d' = d.shift lines) (directiveLine s k) (directiveLine s' k) := by
  refine .bind .next fun t t' first => .bind (moves_feature source k) fun f _ eq => ?_
  refine .bind (.finish _) fun _ _ _ => .bind .previous fun _ _ last => .pure ?_
  simp [Directive.shift, eq, (pairing.like first).between (pairing.like last)]

lemma fieldLine_moved (source : s.Paired pairing s') {c c' : Cursor} (place : c.Moved pairing c')
    (column : c.current.column ≠ 0) :
    (fieldLine s c).Moved pairing (fieldLine s' c') := by
  unfold fieldLine
  obtain ⟨f, _, after, after', here, there, rfl, behind⟩ |
    ⟨e, stopped, e', stopped', here, there, halt⟩ := (moves_fieldHead source c c' place).cases
  · have somewhere : f.span.startColumn ≠ 0 := by
      rw [startColumn_of_fieldHead here]
      exact Nat.cast_ne_zero.2 column
    obtain ⟨ks, all, stop⟩ := constraints_moved source behind somewhere
    rw [here, there]
    refine ⟨?_, stop.previous⟩
    simp [LineItem.shift, Field.shift, ks, all]
  · rw [here, there]
    exact ⟨rfl, halt.previous⟩

/-- Lines at corresponding places contribute the same. -/
lemma entityLine_moved (source : s.Paired pairing s') {c c' : Cursor} (place : c.Moved pairing c')
    (column : c.current.column ≠ 0) :
    (entityLine s c).Moved pairing (entityLine s' c') := by
  have field := fieldLine_moved source place column
  have directive (k : Keyword) :=
    LineResult.moved_ofParsed .directive (fun _ => rfl) (moves_directiveLine source k c c' place)
  have key (key : List String → Key) :=
    LineResult.moved_ofParsed .key (fun _ => rfl) (moves_keyLine key c c' place)
  unfold entityLine
  rw [place.like.kind, startsField_moved place.rest]
  split
  · exact field
  · split
    · exact field
    · split
      · exact key _
      · exact key _
      · exact LineResult.moved_ofParsed .key (fun _ => rfl) (moves_checkLine c c' place)
      all_goals first | exact directive _ | exact field
  · exact ⟨rfl, place.previous⟩

lemma lineGroups_moved (h : List.Forall₂ pairing.Pairs ts ts') :
    List.Forall₂ (List.Forall₂ pairing.Pairs) (lineGroups ts) (lineGroups ts') := by
  have go {line line' ts ts' : List Token} (last : Nat) (collected : List.Forall₂ pairing.Pairs line line')
      (h : List.Forall₂ pairing.Pairs ts ts') :
      List.Forall₂ (List.Forall₂ pairing.Pairs) (lineGroups.go last line ts)
        (lineGroups.go (last + lines) line' ts') := by
    induction h generalizing last line line' with
    | nil => exact .cons (List.rel_reverse collected) .nil
    | @cons t t' _ _ here _ ih =>
      have like := pairing.like here
      have later : t'.line > last + lines ↔ t.line > last := by
        rw [like.line]
        omega
      have both : max (last + lines) t'.endLine = max last t.endLine + lines := by
        rw [like.endLine]
        exact Nat.add_max_add_right ..
      rw [lineGroups.go, lineGroups.go, both, like.endLine]
      by_cases below : t.line > last
      · rw [if_pos below, if_pos (later.2 below)]
        exact .cons (List.rel_reverse collected) (ih _ (.cons here .nil))
      · rw [if_neg below, if_neg (later.not.2 below)]
        exact ih _ (.cons here collected)
  cases h with
  | nil => exact .nil
  | cons here behind =>
    rw [lineGroups, lineGroups, (pairing.like here).endLine]
    exact go _ (.cons here .nil) behind

/-- The outcomes of corresponding lines. -/
lemma entityLines_moved (source : s.Paired pairing s') {lineTokens lineTokens' : List (List Token)}
    (h : List.Forall₂ (List.Forall₂ pairing.Pairs) lineTokens lineTokens')
    (columns : ∀ line ∈ lineTokens, ∀ t ∈ line.head?, t.column ≠ 0) (full : [] ∉ lineTokens)
    (atEnd atEnd' : Bool) {previous previous' : Token} (before : pairing.Pairs previous previous') :
    List.Forall₂ (LineResult.Moved pairing) (entityLines s atEnd previous lineTokens)
      (entityLines s' atEnd' previous' lineTokens') := by
  induction h generalizing previous previous' with
  | nil => exact .nil
  | @cons line line' rest rest' here _ ih =>
    obtain ⟨first, others⟩ := List.forall_mem_cons.1 columns
    rw [List.mem_cons, not_or] at full
    refine .cons (entityLine_moved source ⟨before, here⟩ ?_)
      (ih others full.2 (Token.Pairing.getLast?_getD before here))
    cases line with
    | nil => exact absurd rfl full.1
    | cons t ts => exact first t rfl

/-- What corresponding lines contribute together. -/
lemma filterMap_of_moved {α : Type} {f : LineResult → Option α} {move : α → α}
    (one : ∀ r r', LineResult.Moved pairing r r' → f r' = (f r).map move) {rs rs' : List LineResult}
    (h : List.Forall₂ (LineResult.Moved pairing) rs rs') :
    rs'.filterMap f = (rs.filterMap f).map move := by
  induction h with
  | nil => rfl
  | cons first _ ih =>
    rw [List.filterMap_cons, List.filterMap_cons, one _ _ first, ih]
    cases f _ <;> rfl

lemma extend_of_moved {rs rs' : List LineResult} (h : List.Forall₂ (LineResult.Moved pairing) rs rs')
    {span : Span} (somewhere : span.startColumn ≠ 0) :
    rs'.foldl (fun s r => s.extend r.last) (span.shift lines) =
      (rs.foldl (fun s r => s.extend r.last) span).shift lines := by
  induction h generalizing span with
  | nil => rfl
  | @cons r _ _ _ first _ ih =>
    have column := Span.startColumn_extend somewhere r.last
    rw [List.foldl_cons, List.foldl_cons, (pairing.like first.last).extend somewhere]
    exact ih (column ▸ somewhere)

section Marker
variable {head head' : Token} (marker : pairing.Pairs head head') (h : List.Forall₂ pairing.Pairs ts ts')
include marker h

lemma strayBehind_moved : strayBehind head' ts' = strayBehind head ts := by
  cases h with
  | nil => rfl
  | cons here _ => simp [strayBehind, (pairing.like here).line, (pairing.like marker).endLine]

lemma bodyLines_moved :
    List.Forall₂ (List.Forall₂ pairing.Pairs) (bodyLines head ts) (bodyLines head' ts') := by
  rw [bodyLines, bodyLines, strayBehind_moved marker h]
  split
  · exact List.forall₂_drop 1 (lineGroups_moved h)
  · exact lineGroups_moved h

lemma lastBeforeBody_moved : pairing.Pairs (lastBeforeBody head ts) (lastBeforeBody head' ts') := by
  rw [lastBeforeBody, lastBeforeBody, strayBehind_moved marker h]
  refine Token.Pairing.getLast?_getD marker ?_
  split
  · have groups := lineGroups_moved h
    generalize lineGroups ts = lineTokens at groups ⊢
    generalize lineGroups ts' = lineTokens' at groups ⊢
    cases groups with
    | nil => exact .nil
    | cons first _ => exact first
  · exact .nil

end Marker

/-- The lines of an entity hold tokens of it. -/
lemma sublist_of_mem_bodyLines {head : Token} {tokens line : List Token}
    (h : line ∈ bodyLines head tokens) : line.Sublist tokens ∧ line ≠ [] := by
  have mem : line ∈ lineGroups tokens := by
    unfold bodyLines at h
    split at h
    · exact List.mem_of_mem_drop h
    · exact h
  exact ⟨sublist_of_mem_lineGroups mem, fun none => nil_notMem_lineGroups tokens (none ▸ mem)⟩

/-- An entity further down. -/
lemma entity_moved (source : s.Paired pairing s') {head head' : Token} (marker : pairing.Pairs head head')
    (h : List.Forall₂ pairing.Pairs ts ts') (column : head.column ≠ 0)
    (columns : ∀ t ∈ ts, t.column ≠ 0) (atEnd atEnd' : Bool) :
    (entity s' head' ts' atEnd').1 = (entity s head ts atEnd).1.shift lines := by
  have like := pairing.like marker
  have first (line : List Token) (h : line ∈ bodyLines head ts) (t : Token) (ht : t ∈ line.head?) :
      t.column ≠ 0 :=
    columns t ((sublist_of_mem_bodyLines h).1.subset (List.mem_of_mem_head? ht))
  have results := entityLines_moved source (bodyLines_moved marker h) first
    (fun none => (sublist_of_mem_bodyLines none).2 rfl) atEnd atEnd' (lastBeforeBody_moved marker h)
  have somewhere : head.span.startColumn ≠ 0 := Nat.cast_ne_zero.2 column
  rw [entity_fst, entity_fst, like.span, like.spelling]
  dsimp only
  rw [filterMap_of_moved (fun _ _ => LineResult.Moved.field?) results,
    filterMap_of_moved (fun _ _ => LineResult.Moved.key?) results,
    filterMap_of_moved (fun _ _ => LineResult.Moved.directive?) results,
    extend_of_moved results somewhere]
  rfl

/-! ### Statements -/

lemma enumLabels_eq (c : Cursor) :
    enumLabels c =
      if c.current.isSymbol '\x7d' then .ok [] c.skip
      else match label? c.current with
        | none => .error (c.error .enumLabel) c
        | some label =>
          if c.skip.current.isSymbol ',' || c.skip.current.isSymbol '\x7d' then
            match enumLabels (if c.skip.current.isSymbol ',' then c.skip.skip else c.skip) with
            | .ok labels done => .ok (⟨label, c.current.span⟩ :: labels) done
            | .error e stopped => .error e stopped
          else .error (c.skip.error .enumLabelEnd) c.skip := by
  rw [enumLabels]
  refine if_congr Iff.rfl rfl ?_
  cases label? c.current with
  | none => rfl
  | some label => rfl

lemma moves_enumLabels :
    Moves pairing (fun ls ls' => ls' = ls.map (·.shift lines)) enumLabels enumLabels := by
  intro c c' place
  induction length : c.rest.length using Nat.strong_induction_on generalizing c c' with
  | _ n ih =>
    have label : label? c'.current = label? c.current := by
      rw [label?, label?, place.like.kind, place.like.spelling]
    have behind : (if c.skip.current.isSymbol ',' then c.skip.skip else c.skip).Moved pairing
        (if c.skip.current.isSymbol ',' then c'.skip.skip else c'.skip) := by
      split
      · exact place.skip.skip
      · exact place.skip
    rw [enumLabels_eq c, enumLabels_eq c', place.like.isSymbol, place.skip.like.isSymbol,
      place.skip.like.isSymbol, label]
    split
    · exact ⟨rfl, place.skip⟩
    · cases found : label? c.current with
      | none => exact place
      | some name =>
        have shorter : (if c.skip.current.isSymbol ',' then c.skip.skip else c.skip).rest.length < n := by
          have left := c.length_skip_lt (rest_ne_nil_of_label? found)
          have next := c.skip.length_skip_le
          split <;> omega
        dsimp only
        split
        · obtain ⟨labels, _, stop, stop', here, there, rfl, last⟩ |
            ⟨e, stop, e', stop', here, there, halt⟩ := (ih _ shorter _ _ behind rfl).cases
          · rw [here, there]
            exact ⟨by simp [Variant.shift, place.like.span], last⟩
          · rw [here, there]
            exact halt
        · exact place.skip

lemma moves_variants : Moves pairing (fun ls ls' => ls' = ls.map (·.shift lines)) variants variants := by
  refine .bind .peek fun t t' same => ?_
  have like := pairing.like same
  rw [like.kind]
  split
  · refine .bind .next fun t t' same => .pure ?_
    simp [Variant.shift, (pairing.like same).spelling, (pairing.like same).span]
  · exact .ite (like.isSymbol _) (.bind .next fun _ _ _ => moves_enumLabels) (.fail _)

section Heads
variable {head head' : Token} (marker : pairing.Pairs head head')
include marker

lemma moves_enumStatement :
    Moves pairing (fun e e' => e' = e.shift lines) (enumStatement head) (enumStatement head') := by
  refine .bind (.identifier _) fun t t' named => .bind moves_variants fun labels _ eq => ?_
  refine .bind (.finish _) fun _ _ _ => .bind .previous fun _ _ last => .pure ?_
  simp [Enum.shift, eq, (pairing.like named).spelling, (pairing.like marker).between (pairing.like last)]

lemma moves_indexStatement (source : s.Paired pairing s') :
    Moves pairing (fun i i' => i' = i.shift lines) (indexStatement s head) (indexStatement s' head') := by
  refine .bind (.sees fun like => like.isKeyword _) fun unique _ eq => .skipIf eq ?_
  subst eq
  refine .bind (.identifier _) fun t t' named => .bind (.word _) fun _ _ _ => ?_
  refine .bind (.name _) fun table table' on => .bind (moves_nameList _) fun columns _ eq => ?_
  refine .bind .remaining fun tail tail' left => .bind .skipAll fun _ _ _ => ?_
  refine .bind .previous fun _ _ last => .pure ?_
  simp [Index.shift, eq, verbatim_moved source left, (pairing.like named).spelling,
    (pairing.like on).spelling, (pairing.like marker).between (pairing.like last)]

lemma moves_viewStatement (source : s.Paired pairing s') :
    Moves pairing (fun v v' => v' = v.shift lines) (viewStatement s head) (viewStatement s' head') := by
  refine .bind (.keyword _ _) fun _ _ _ => .bind (.identifier _) fun t t' named => ?_
  refine .bind (.word _) fun _ _ _ => .bind .remaining fun body body' left => ?_
  refine .ite (Token.Pairing.isEmpty left) (.fail _) ?_
  refine .bind .skipAll fun _ _ _ => .bind .previous fun _ _ last => .pure ?_
  simp [View.shift, verbatim_moved source left, (pairing.like named).spelling,
    (pairing.like marker).between (pairing.like last)]

end Heads

lemma splitAtExecute_moved (h : List.Forall₂ pairing.Pairs ts ts') :
    Option.Rel (fun r r' => List.Forall₂ pairing.Pairs r.1 r'.1 ∧ List.Forall₂ pairing.Pairs r.2 r'.2)
      (splitAtExecute ts) (splitAtExecute ts') := by
  induction h with
  | nil => exact .none
  | cons first behind ih =>
    cases behind with
    | nil => exact .none
    | cons second behind =>
      rw [splitAtExecute, splitAtExecute, (pairing.like first).isKeyword, (pairing.like second).isKeyword]
      split
      · exact .some ⟨.nil, behind⟩
      · generalize splitAtExecute (_ :: _) = r at ih ⊢
        generalize splitAtExecute (_ :: _) = r' at ih ⊢
        cases ih with
        | none => exact .none
        | some both => exact .some ⟨.cons first both.1, both.2⟩

/-- A handler looks at the keyword and the text of a statement only. -/
def LooksAtText (handler : Plugin.Handler) : Prop :=
  ∀ x y : Plugin.Block, x.keyword = y.keyword → x.body = y.body → handler.parse x = handler.parse y

/-- A handler makes the same of a statement further down. -/
def Steady (lines : Nat) (handler : Plugin.Handler) : Prop :=
  ∀ b : Plugin.Block, handler.parse (b.shift lines) = handler.parse b

lemma LooksAtText.steady {handler : Plugin.Handler} (looks : LooksAtText handler) (lines : Nat) :
    Steady lines handler :=
  fun _ => looks _ _ rfl rfl

lemma steady_zero (handler : Plugin.Handler) : Steady 0 handler :=
  fun b => by simp [Plugin.Block.shift]

section Heads
variable {head head' : Token} (marker : pairing.Pairs head head')
include marker

lemma moves_triggerStatement (source : s.Paired pairing s') :
    Moves pairing (fun t t' => t' = t.shift lines) (triggerStatement s head) (triggerStatement s' head') := by
  refine .bind (.identifier _) fun t t' named => .bind .remaining fun ts ts' left => ?_
  have halves := splitAtExecute_moved left
  generalize splitAtExecute ts = r at halves ⊢
  generalize splitAtExecute ts' = r' at halves ⊢
  cases halves with
  | none => exact .bind .skipAll fun _ _ _ => .bind .peek fun _ _ _ => .failAt _ _ _ _
  | @some r r' both =>
    obtain ⟨timing, call⟩ := r
    obtain ⟨timing', call'⟩ := r'
    obtain ⟨early, late⟩ := both
    have copies := verbatim_moved source early
    have copies' := verbatim_moved source late
    cases early with
    | nil => exact .fail _
    | cons _ _ =>
      cases late with
      | nil => exact .bind .skipAll fun _ _ _ => .fail _
      | cons _ _ =>
        refine .bind .skipAll fun _ _ _ => .bind .previous fun _ _ last => .pure ?_
        simp only [Trigger.shift, (pairing.like named).spelling,
          (pairing.like marker).between (pairing.like last), copies, copies']

lemma moves_extensionStatement (source : s.Paired pairing s') :
    Moves pairing (fun e e' => e' = e.shift lines) (extensionStatement s head)
      (extensionStatement s' head') := by
  refine .bind .remaining fun ts ts' left => .ite (Token.Pairing.isEmpty left) (.fail _) ?_
  have copy := verbatim_moved source left
  -- what follows looks at the name only
  have rest {name name' : String} (same : name' = name) : Moves pairing (fun e e' => e' = e.shift lines)
      (if name.toList.any fun c => c == ' ' || c == '\t' || c == '\n' then fail .singleExtensionName
        else do skipAll; return ⟨name, Span.between head (← previous)⟩ : Parser Extension)
      (if name'.toList.any fun c => c == ' ' || c == '\t' || c == '\n' then fail .singleExtensionName
        else do skipAll; return ⟨name', Span.between head' (← previous)⟩) := by
    subst same
    refine .ite rfl (.fail _) (.bind .skipAll fun _ _ _ => .bind .previous fun _ _ last => .pure ?_)
    rw [(pairing.like marker).between (pairing.like last)]
    rfl
  cases left with
  | nil => exact rest copy
  | cons first others =>
    cases others with
    | nil => exact rest (by simp only [(pairing.like first).kind, (pairing.like first).spelling, copy])
    | cons _ _ => exact rest copy

lemma moves_blockStatement (source : s.Paired pairing s') {handler : Plugin.Handler}
    (steady : Steady lines handler) :
    Moves pairing (fun b b' => b' = b.shift lines) (blockStatement s handler head)
      (blockStatement s' handler head') := by
  refine .bind .remaining fun ts ts' left => .bind .skipAll fun _ _ _ => ?_
  refine .bind .previous fun stop stop' last => ?_
  have like := pairing.like marker
  have same := steady ⟨Text.upper head.spelling, verbatim s ts, Span.between head stop⟩
  rw [Plugin.Block.shift] at same
  rw [verbatim_moved source left, like.spelling, like.between (pairing.like last), handledBlock,
    handledBlock, same]
  split
  · exact .pure rfl
  · exact .failAt _ _ _ _

end Heads

lemma StatementResult.moved_ofParsed {α : Type} {move : α → α} {r r' : Parsed α} (wrap : α → Statement)
    (wraps : ∀ a, wrap (move a) = (wrap a).shift lines)
    (h : r.Moved pairing (fun a a' => a' = move a) r') :
    (ofParsed wrap r').statement = (ofParsed wrap r).statement.map (·.shift lines) := by
  obtain ⟨a, _, after, after', rfl, rfl, rfl, place⟩ | ⟨e, stopped, e', stopped', rfl, rfl, place⟩ :=
    h.cases
  · exact congrArg some (wraps a)
  · rfl

/-- The statement of a group of tokens further down. -/
lemma statement_moved (source : s.Paired pairing s') {plugins : Plugin.Registry}
    (steady : ∀ keyword handler, plugins.lookup keyword = some handler → Steady lines handler)
    {head head' : Token} (marker : pairing.Pairs head head') (h : List.Forall₂ pairing.Pairs ts ts')
    (column : head.column ≠ 0) (columns : ∀ t ∈ ts, t.column ≠ 0)
    (recovering recovering' atEnd atEnd' : Bool) :
    (readStatement s' plugins recovering' head' ts' atEnd').statement =
      (readStatement s plugins recovering head ts atEnd).statement.map (·.shift lines) := by
  have like := pairing.like marker
  have place : Cursor.Moved pairing ⟨head, ts, atEnd⟩ ⟨head', ts', atEnd'⟩ := ⟨marker, h⟩
  unfold readStatement
  rw [like.kind, like.column, like.spelling]
  dsimp only
  split
  · exact congrArg (some ∘ Statement.entity) (entity_moved source marker h column columns atEnd atEnd')
  · exact StatementResult.moved_ofParsed .enum (fun _ => rfl) (moves_enumStatement marker _ _ place)
  · exact StatementResult.moved_ofParsed .index (fun _ => rfl) (moves_indexStatement marker source _ _ place)
  · exact StatementResult.moved_ofParsed .view (fun _ => rfl) (moves_viewStatement marker source _ _ place)
  · exact StatementResult.moved_ofParsed .trigger (fun _ => rfl)
      (moves_triggerStatement marker source _ _ place)
  · exact StatementResult.moved_ofParsed .extension (fun _ => rfl)
      (moves_extensionStatement marker source _ _ place)
  · split
    · split
      · next handler found =>
        exact StatementResult.moved_ofParsed .block (fun _ => rfl)
          (moves_blockStatement marker source (steady _ _ found) _ _ place)
      · rfl
    · rfl
  · rfl

end Copies

end ErdSql.Document
