import ErdSql.Proofs.Balance
import ErdSql.Proofs.Findings
import ErdSql.Proofs.Integrity
import ErdSql.Proofs.Locality
import ErdSql.Proofs.RoundTrip

/-!
# Where expressions come from

The expressions of a schema are those of its document, and the expressions of a document are spelled by
expression tokens of its text. So whatever holds of expression tokens holds of the expressions that
are checked.

* `Document.spelled_of_mem_ofTokens`: an expression of a document that was read is spelled by a token.
* `Schema.exists_entity_of_mem_exprs`: an expression of a schema is one of its document.
* `Compilation.balanced_expressions`: the test of balance passes what the scanner passes.
-/

namespace ErdSql

namespace Document

open ErdSql.Document.Parser Source

/-! ### Expressions of a document -/

/-- The expressions of a field constraint. -/
def Clause.exprs : Clause → List String
  | check e => [e]
  | _ => []

/-- The expressions of a key line. -/
def Key.exprs : Key → List String
  | check e => [e]
  | _ => []

/-- The expressions of a feature line. -/
def Feature.exprs : Feature → List String
  | policy p => [p.usingExpr, p.withCheck]
  | _ => []

/-- The expressions of a field line. -/
def Field.exprs (f : Field) : List String := f.constraints.flatMap (·.clause.exprs)

/-- The expressions of a line of an entity. -/
def LineItem.exprs : LineItem → List String
  | field f => f.exprs
  | key k => k.key.exprs
  | directive d => d.feature.exprs

/-- The expressions of an entity. -/
def Entity.exprs (e : Entity) : List String :=
  e.fields.flatMap (·.exprs) ++ e.keys.flatMap (·.key.exprs) ++ e.directives.flatMap (·.feature.exprs)

/-- Whether an expression token of some tokens spells a text. A clause that was not written has an empty
text. -/
def SpelledIn (ts : List Token) (e : String) : Prop :=
  e = "" ∨ ∃ t ∈ ts, t.kind = .expr ∧ t.spelling = e

lemma SpelledIn.mono {ts us : List Token} {e : String} (h : SpelledIn ts e) (sub : ts ⊆ us) :
    SpelledIn us e :=
  h.imp_right fun ⟨t, ht, kind⟩ => ⟨t, sub ht, kind⟩

/-! ### Reading lines -/

section Readers
variable {src : Source} {c : Cursor}

/-- An expression that is read is the current token. -/
lemma spelled_expr (expected : Expected) :
    Same (fun t after => SpelledIn c.rest t.spelling ∧ Past c after) (expr expected) (expr expected) c := by
  refine ⟨rfl, ?_⟩
  unfold expr Parser.satisfy
  split
  · next passes =>
    have kind : c.current.kind = .expr := by simpa using passes
    have left : c.rest ≠ [] := rest_ne_nil_of_kind (by simp [kind])
    refine ⟨.inr ⟨c.current, ?_, kind, rfl⟩, List.suffix_rfl, left⟩
    cases rest : c.rest with
    | nil => exact absurd rest left
    | cons t ts => simp [Cursor.current, rest]
  · trivial

/-- The expression of a field constraint is spelled. -/
lemma spelled_constraint :
    Same (fun k _ => ∀ e ∈ k.clause.exprs, SpelledIn c.rest e) (constraint src) (constraint src) c := by
  refine .step rfl ?_
  split
  · exact .step rfl (.pure nofun)
  · exact .step rfl (.pure nofun)
  · exact .step rfl (.bind (.keyword _ _) fun _ _ _ => .pure nofun)
  · exact .step rfl (.bind (same_literal (.refl src _)) fun _ _ _ => .step rfl (.pure nofun))
  · refine .step rfl (.step rfl (.ite (fun _ => .step rfl ?_) fun _ => .pure nofun))
    exact .bind (.name _) fun _ _ _ => .bind (.symbol _) fun _ _ _ => .pure nofun
  · refine .step rfl (.bind (spelled_expr _) fun t _ found => .pure ?_)
    intro e he
    obtain rfl := List.mem_singleton.1 he
    exact found.1.mono (rest_skip_suffix c).subset
  · exact .fail _
  · exact .fail _

/-- The expressions behind a field name are spelled. -/
lemma spelled_constraints (span : Span) :
    ∀ k ∈ (constraints src span c).1, ∀ e ∈ k.clause.exprs, SpelledIn c.rest e := by
  induction length : c.rest.length using Nat.strong_induction_on generalizing c span with
  | _ n ih =>
    rw [constraints]
    split
    · exact List.forall_mem_nil _
    · have ends := (spelled_constraint.and (same_constraint (.refl src c.rest))).2
      split
      · exact List.forall_mem_nil _
      · next k after found =>
        rw [found] at ends
        obtain ⟨first, past⟩ := ends
        rw [if_pos past.length_lt]
        rintro k' hk' e he
        rcases List.mem_cons.1 hk' with rfl | hk'
        · exact first e he
        · exact (ih _ (length ▸ past.length_lt) _ rfl k' hk' e he).mono past.suffix.subset

/-- The expressions of a field line are spelled. -/
lemma spelled_fieldLine {item : LineItem} (h : (fieldLine src c).item = some item) :
    ∀ e ∈ item.exprs, SpelledIn c.rest e := by
  have ends := (same_fieldHead (c := c) (.refl src _)).2
  rw [fieldLine] at h
  cases found : fieldHead src c with
  | error e stopped =>
    rw [found] at h
    cases h
  | ok field next =>
    rw [found] at h ends
    cases h
    intro e he
    obtain ⟨k, hk, he⟩ := List.mem_flatMap.1 he
    exact (spelled_constraints _ k hk e he).mono ends.subset

/-- The expression of a key line is spelled. -/
lemma spelled_checkLine :
    Same (fun k _ => ∀ e ∈ k.key.exprs, SpelledIn c.rest e) checkLine checkLine c := by
  refine .step rfl (.bind (spelled_expr _) fun t _ found => .bind (.of_eq rfl) fun _ _ _ => .pure ?_)
  intro e he
  obtain rfl := List.mem_singleton.1 he
  exact found.1.mono (rest_skip_suffix c).subset

/-- A key of columns has no expression. -/
lemma spelled_keyLine {key : List String → Key} (none : ∀ columns, (key columns).exprs = []) :
    Same (fun k _ => ∀ e ∈ k.key.exprs, SpelledIn c.rest e) (keyLine key) (keyLine key) c := by
  refine .step rfl (.step rfl (.ite (fun _ => ?_) fun _ => .fail _))
  refine .bind (same_nameList _) fun columns _ _ => .bind (.of_eq rfl) fun _ _ _ => .step rfl (.pure ?_)
  rw [none]
  exact List.forall_mem_nil _

/-- The expressions of a policy are spelled, if those of the clauses in front are. -/
lemma spelled_policyClause {p : Policy} {ts : List Token}
    (front : ∀ e ∈ (Feature.policy p).exprs, SpelledIn ts e) (sub : c.rest ⊆ ts) :
    Same (fun q _ => ∀ e ∈ (Feature.policy q).exprs, SpelledIn ts e) (policyClause p) (policyClause p) c := by
  obtain ⟨before, beforeCheck⟩ : SpelledIn ts p.usingExpr ∧ SpelledIn ts p.withCheck := by
    simpa [Feature.exprs] using front
  have skip : c.skip.rest ⊆ ts := List.Subset.trans (rest_skip_suffix c).subset sub
  refine .step rfl (.ite (fun _ => .step rfl ?_) fun _ => ?_)
  · exact .bind (.identifier _) fun _ _ _ => .pure front
  refine .step rfl (.ite (fun _ => .step rfl ?_) fun _ => ?_)
  · exact .bind (.identifier _) fun _ _ _ => .pure front
  refine .step rfl (.ite (fun _ => .step rfl ?_) fun _ => ?_)
  · refine .bind (spelled_expr _) fun t _ found => .pure ?_
    simpa [Feature.exprs] using ⟨found.1.mono skip, beforeCheck⟩
  refine .step rfl (.ite (fun _ => .step rfl ?_) fun _ => .fail _)
  refine .bind (.keyword _ _) fun _ mid past => .bind (spelled_expr _) fun t _ found => .pure ?_
  simpa [Feature.exprs] using ⟨before, found.1.mono (List.Subset.trans past.suffix.subset skip)⟩

lemma spelled_policy {p : Policy} {ts : List Token}
    (front : ∀ e ∈ (Feature.policy p).exprs, SpelledIn ts e) (sub : c.rest ⊆ ts) :
    Same (fun q _ => ∀ e ∈ (Feature.policy q).exprs, SpelledIn ts e) (repeatToEnd policyClause p)
      (repeatToEnd policyClause p) c := by
  refine ⟨rfl, ?_⟩
  induction length : c.rest.length using Nat.strong_induction_on generalizing c p with
  | _ n ih =>
    rw [repeatToEnd]
    split
    · exact front
    · have ends := ((spelled_policyClause front sub).and (same_policyClause p c)).2
      split
      · next q after found =>
        rw [found] at ends
        obtain ⟨spelled, past⟩ := ends
        rw [if_pos past.length_lt]
        exact ih _ (length ▸ past.length_lt) spelled (List.Subset.trans past.suffix.subset sub) rfl
      · trivial

/-- The expressions of a feature line are spelled. -/
lemma spelled_feature (k : Keyword) :
    Same (fun f _ => ∀ e ∈ f.exprs, SpelledIn c.rest e) (feature src k) (feature src k) c := by
  cases k
  case «partition» =>
    refine .bind (.word _) fun _ _ _ => .bind (.identifier _) fun _ _ _ => ?_
    exact .bind (same_nameList _) fun _ _ _ => .pure nofun
  case ttl =>
    refine .bind (.symbol _) fun _ _ _ => .bind (.name _) fun _ _ _ => .bind (.symbol _) fun _ _ _ => ?_
    exact .bind (same_literal (.refl src _)) fun _ _ _ => .bind (.symbol _) fun _ _ _ => .pure nofun
  case fts =>
    refine .bind (same_nameList _) fun _ _ _ => .step rfl (.ite (fun _ => .step rfl ?_) fun _ => .pure nofun)
    exact .bind (.identifier _) fun _ _ _ => .pure nofun
  case rls =>
    refine .step rfl (.ite (fun _ => .pure nofun) fun _ => .step rfl ?_)
    split
    · exact .step rfl (.pure nofun)
    · exact .fail _
  case policy =>
    refine .bind (.identifier _) fun t mid past => ?_
    refine .bind (spelled_policy ?_ past.suffix.subset) fun q _ spelled => .pure spelled
    simp [Feature.exprs, SpelledIn]
  case softDelete =>
    refine .bind (same_nameList _) fun columns _ _ => ?_
    split
    · exact .pure nofun
    · exact .step rfl ⟨rfl, trivial⟩
  all_goals exact .pure nofun

lemma spelled_directiveLine (k : Keyword) :
    Same (fun d _ => ∀ e ∈ d.feature.exprs, SpelledIn c.rest e) (directiveLine src k) (directiveLine src k)
      c := by
  refine .step rfl (.bind (spelled_feature k) fun f _ spelled => .bind (.of_eq rfl) fun _ _ _ => ?_)
  exact .step rfl (.pure fun e he => (spelled e he).mono (rest_skip_suffix c).subset)

/-- What a reader of whole lines gives has what the reader promises. -/
lemma Same.of_item {α : Type} {P : α → Prop} {p : Parser α} (h : Same (fun a _ => P a) p p c)
    {wrap : α → LineItem} {item : LineItem} (found : (LineResult.ofParsed wrap (p c)).item = some item) :
    ∃ a, P a ∧ wrap a = item := by
  have ends := h.2
  cases read : p c with
  | error e stopped =>
    rw [read] at found
    cases found
  | ok a after =>
    rw [read] at found ends
    exact ⟨a, ends, Option.some.inj found⟩

/-- The expressions of a line are spelled. -/
lemma spelled_entityLine {item : LineItem} (h : (entityLine src c).item = some item) :
    ∀ e ∈ item.exprs, SpelledIn c.rest e := by
  have key {p : Parser KeyLine} (spelled : Same (fun k _ => ∀ e ∈ k.key.exprs, SpelledIn c.rest e) p p c)
      (found : (LineResult.ofParsed .key (p c)).item = some item) :
      ∀ e ∈ item.exprs, SpelledIn c.rest e := by
    obtain ⟨k, hk, rfl⟩ := spelled.of_item found
    exact hk
  have directive (k : Keyword)
      (found : (LineResult.ofParsed .directive (directiveLine src k c)).item = some item) :
      ∀ e ∈ item.exprs, SpelledIn c.rest e := by
    obtain ⟨d, hd, rfl⟩ := (spelled_directiveLine k).of_item found
    exact hd
  unfold entityLine at h
  split at h
  · exact spelled_fieldLine h
  · split at h
    · exact spelled_fieldLine h
    · split at h
      · exact key (spelled_keyLine fun _ => rfl) h
      · exact key (spelled_keyLine fun _ => rfl) h
      · exact key spelled_checkLine h
      iterate 7 exact directive _ h
      · exact spelled_fieldLine h
  · cases h

end Readers

/-! ### Reading entities -/

section Entities
variable {src : Source} {atEnd : Bool}

lemma spelled_entityLines {previous : Token} {lines : List (List Token)} {r : LineResult}
    (h : r ∈ entityLines src atEnd previous lines) {item : LineItem} (found : r.item = some item) :
    ∃ line ∈ lines, ∀ e ∈ item.exprs, SpelledIn line e := by
  induction lines generalizing previous with
  | nil => cases h
  | cons line rest ih =>
    rcases List.mem_cons.1 h with rfl | h
    · exact ⟨line, List.mem_cons_self, spelled_entityLine found⟩
    · obtain ⟨line', mem, spelled⟩ := ih h
      exact ⟨line', List.mem_cons_of_mem _ mem, spelled⟩

/-- The expressions of an entity are spelled. -/
lemma spelled_entity {head : Token} {tokens : List Token} :
    ∀ e ∈ (entity src head tokens atEnd).1.exprs, SpelledIn tokens e := by
  have line {r : LineResult}
      (h : r ∈ entityLines src atEnd (lastBeforeBody head tokens) (bodyLines head tokens))
      {item : LineItem} (found : r.item = some item) : ∀ e ∈ item.exprs, SpelledIn tokens e := by
    obtain ⟨line, mem, spelled⟩ := spelled_entityLines h found
    exact fun e he => (spelled e he).mono (sublist_of_mem_bodyLines mem).1.subset
  rw [entity_fst]
  intro e he
  simp only [Entity.exprs, List.mem_append, List.mem_flatMap, List.mem_filterMap] at he
  rcases he with (⟨f, ⟨r, hr, hf⟩, he⟩ | ⟨k, ⟨r, hr, hk⟩, he⟩) | ⟨d, ⟨r, hr, hd⟩, he⟩
  · unfold LineResult.field? at hf
    split at hf
    · next f' item =>
      cases hf
      exact line hr item e he
    · cases hf
  · unfold LineResult.key? at hk
    split at hk
    · next k' item =>
      cases hk
      exact line hr item e he
    · cases hk
  · unfold LineResult.directive? at hd
    split at hd
    · next d' item =>
      cases hd
      exact line hr item e he
    · cases hd

/-- The expressions of a document are spelled by the tokens that it is made of. -/
lemma spelled_of_mem_ofTokens {path : String} {cs : List Char} {plugins : Plugin.Registry}
    {tokens : List Token} {node : Entity}
    (h : .entity node ∈ (ofTokens path cs plugins tokens).1.statements) :
    ∀ e ∈ node.exprs, SpelledIn tokens e := by
  obtain ⟨head, ts, atEnd, group, -, rfl⟩ := exists_group_of_entity h
  intro e he
  refine (spelled_entity e he).mono fun t ht => ?_
  have held := (sublist_of_mem_statementGroups group).subset (List.mem_cons_of_mem _ ht)
  exact (List.takeWhile_sublist _).subset held

end Entities

end Document

namespace Schema

/-! ### Expressions of a schema -/

/-- The expressions of a field constraint. -/
def Clause.exprs : Clause → List String
  | check e => [e]
  | _ => []

/-- The expressions of a constraint of an entity. -/
def EntityClause.exprs : EntityClause → List String
  | check e => [e]
  | _ => []

/-- The expressions of a field. -/
def Field.exprs (f : Field) : List String := f.constraints.flatMap (·.clause.exprs)

/-- The expressions of the policies of an entity. -/
def Entity.policyExprs (e : Entity) : List String :=
  e.policies.flatMap fun p => [p.policy.usingExpr, p.policy.withCheck]

/-- The expressions of an entity. -/
def Entity.exprs (e : Entity) : List String :=
  e.fields.flatMap (·.exprs) ++ e.constraints.flatMap (·.clause.exprs) ++ e.policyExprs

/-- Binding names changes no expression. -/
lemma exprs_buildField (names : Names) (f : Document.Field) : (buildField names f).exprs = f.exprs := by
  rw [Field.exprs, buildField, List.flatMap_map, Document.Field.exprs]
  congr 1
  funext c
  unfold bindConstraint
  cases c.clause <;> rfl

/-- The mark of a key has no expression. -/
lemma Marked.exprs_eq {f g : Field} (h : Marked f g) : g.exprs = f.exprs := by
  rcases h with rfl | ⟨span, rfl⟩
  · rfl
  · simp [Field.exprs, Clause.exprs]

/-- Of the key lines only checks have expressions. -/
lemma exprs_buildKeys (fields : List Field) (node : Document.Entity) :
    (buildKeys fields node.keys).2.flatMap (·.clause.exprs) = node.keys.flatMap (·.key.exprs) := by
  obtain ⟨key, constraints, merged⟩ := buildKeys_constraints fields node
  have front : key.toList.flatMap (·.clause.exprs) = [] := by
    cases key with
    | none => rfl
    | some c =>
      have clause := merged c rfl
      simp [clause, EntityClause.exprs]
  rw [constraints, List.flatMap_append, front, List.nil_append]
  induction node.keys with
  | nil => rfl
  | cons k ks ih =>
    obtain ⟨key, span⟩ := k
    rw [List.flatMap_cons, ← ih]
    cases key <;> rfl

/-- Features add only the expressions of their lines. -/
lemma policyExprs_addFeatures (path : String) (e : Entity) (ds : List Document.Directive) :
    (addFeatures path e ds).1.policyExprs ⊆ e.policyExprs ++ ds.flatMap (·.feature.exprs) := by
  have one {e e' : Entity} {d : Document.Directive} (added : addFeature e d = some e') :
      e'.policyExprs = e.policyExprs ++ d.feature.exprs := by
    obtain ⟨feature, span⟩ := d
    cases feature with
    | policy p =>
      cases added
      simp [Entity.policyExprs, Document.Feature.exprs]
    | fts columns method =>
      cases added
      exact (List.append_nil _).symm
    | _ =>
      obtain ⟨-, ⟨⟩⟩ := Option.ite_none_left_eq_some.1 added
      exact (List.append_nil _).symm
  induction ds generalizing e with
  | nil => simp [addFeatures]
  | cons d ds ih =>
    rw [addFeatures, List.flatMap_cons]
    split
    · next e' added =>
      rw [← List.append_assoc, ← one added]
      exact ih e'
    · exact List.Subset.trans (ih e) (by simp)

/-- The expressions of an entity are those of its block. -/
lemma exprs_buildEntity (path : String) (names : Names) (id : Nat) (node : Document.Entity) :
    (buildEntity path names id node).entity.exprs ⊆ node.exprs := by
  have policies : (buildEntity path names id node).entity.policyExprs ⊆
      node.directives.flatMap (·.feature.exprs) := by
    exact policyExprs_addFeatures path _ node.directives
  intro x hx
  rw [Document.Entity.exprs, List.mem_append, List.mem_append]
  rw [Entity.exprs, List.mem_append, List.mem_append, buildEntity_fields, buildEntity_constraints,
    exprs_buildKeys] at hx
  refine hx.imp (.imp_left fun hx => ?_) fun hx => policies hx
  obtain ⟨f, hf, hx⟩ := List.mem_flatMap.1 hx
  obtain ⟨g, hg, marked⟩ := exists_of_forall₂ (forall₂_buildKeys _ _) hf
  obtain ⟨line, hline, rfl⟩ := List.mem_map.1 hg
  rw [marked.exprs_eq, exprs_buildField] at hx
  rw [fieldLines, (distinctFields_eq_firsts path node.name node.fields).1] at hline
  exact List.mem_flatMap.2 ⟨line, mem_of_mem_firsts _ hline, hx⟩

/-- The expressions of a schema are those of its document. -/
lemma exists_entity_of_mem_exprs {doc : Document} {e : Entity} (he : e ∈ (ofDocument doc).1.entities)
    {x : String} (hx : x ∈ e.exprs) : ∃ node, .entity node ∈ doc.statements ∧ x ∈ node.exprs := by
  rw [entities_ofDocument] at he
  obtain ⟨i, hi, rfl⟩ := List.mem_mapIdx.1 he
  exact ⟨_, mem_entities_of_declared (List.getElem_mem hi), exprs_buildEntity _ _ _ _ hx⟩

end Schema

namespace Check

open Schema

/-- Nothing is found about expressions that are balanced. -/
lemma expressions_eq_nil {s : Schema}
    (h : ∀ e ∈ s.entities, ∀ x ∈ e.exprs, balanced (Text.bytes x) = true) : expressions s = [] := by
  refine List.flatMap_eq_nil_iff.2 fun e he => ?_
  have passes (span : Span) {x : String} (hx : x ∈ e.exprs) : unbalanced s span x = [] :=
    if_pos (h e he x hx)
  rw [List.append_eq_nil_iff, List.append_eq_nil_iff, List.flatMap_eq_nil_iff, List.flatMap_eq_nil_iff,
    List.flatMap_eq_nil_iff]
  refine ⟨⟨fun f hf => List.flatMap_eq_nil_iff.2 fun c hc => ?_, fun c hc => ?_⟩, fun p hp => ?_⟩
  · split
    · next x clause =>
      rw [passes, List.map_nil]
      refine List.mem_append_left _ (List.mem_append_left _ (List.mem_flatMap.2 ⟨f, hf, ?_⟩))
      exact List.mem_flatMap.2 ⟨c, hc, by simp [clause, Clause.exprs]⟩
    · rfl
  · split
    · next x clause =>
      rw [passes, List.map_nil]
      refine List.mem_append_left _ (List.mem_append_right _ (List.mem_flatMap.2 ⟨c, hc, ?_⟩))
      simp [clause, EntityClause.exprs]
    · rfl
  · refine List.flatMap_eq_nil_iff.2 fun x hx => ?_
    rw [passes, List.map_nil]
    exact List.mem_append_right _ (List.mem_flatMap.2 ⟨p, hp, hx⟩)

end Check

namespace Compilation

/-- The scanner and the test of balance agree: every expression token is balanced, so nothing is found
about the expressions of a schema that was read. -/
theorem balanced_expressions (src : List UInt8) :
    (∀ t ∈ (Scan.ofBytes src).tokens, t.kind = .expr →
      Check.balanced (Text.bytes t.spelling) = true) ∧
    ∀ (path : String) (plugins : Plugin.Registry),
      ∀ d ∈ Check.run (Schema.ofDocument (read path src plugins).1).1,
        d.code ≠ Diagnostic.unbalancedCheck := by
  refine ⟨fun t ht kind => Scan.balanced_of_mem_ofBytes ht kind, fun path plugins d hd code => ?_⟩
  have none : Check.expressions (Schema.ofDocument (read path src plugins).1).1 = [] := by
    refine Check.expressions_eq_nil fun e he x hx => ?_
    obtain ⟨node, stands, hx⟩ := Schema.exists_entity_of_mem_exprs he hx
    rcases Document.spelled_of_mem_ofTokens stands x hx with rfl | ⟨t, ht, kind, rfl⟩
    · rfl
    · exact Scan.balanced_of_mem_ofBytes ht kind
  have found := Check.mem_expressions_of_code hd code
  rw [none] at found
  cases found

end Compilation

end ErdSql
