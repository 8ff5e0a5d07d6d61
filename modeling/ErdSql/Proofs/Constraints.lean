import ErdSql.Proofs.Acceptance
import ErdSql.Proofs.StatementTexts

/-!
# Constraints

The script of an accepted document keeps every constraint of the document and adds none.

* `Schema.buildEntity_keys`: what the key lines of a block become.
* `Ddl.inlineKey?_eq_some_iff`: the column that is marked as key itself.
* `Ddl.count_places`: how often a place stands in the list of all places of a schema.
* `Compilation.columnText`: the text of a column, by what the document states.
* `Compilation.constraints_kept`: the tables of the script and their texts, column by column.

The generator reads the first constraint of each kind only, and writes keys, foreign keys and the
uniqueness of sets in places of their own. That nothing is lost rests on the rules that an accepted
document keeps.
-/

namespace ErdSql

/-! ### What a document states -/

namespace Document

/-- The value of a default. -/
def Clause.default? : Clause → Option Literal
  | default v => some v
  | _ => none

/-- The expression of a check. -/
def Clause.check? : Clause → Option String
  | check e => some e
  | _ => none

/-- The values of the defaults behind the name of a field. -/
def Field.defaults (f : Field) : List Literal :=
  f.constraints.filterMap fun c => c.clause.default?

/-- The expressions of the checks behind the name of a field. -/
def Field.checks (f : Field) : List String :=
  f.constraints.filterMap fun c => c.clause.check?

/-- Whether a constraint stands behind the name of a field. -/
def Field.states (f : Field) (clause : Clause) : Bool :=
  f.constraints.any fun c => c.clause == clause

/-- The defaults of a field are those that it states. -/
lemma Field.mem_defaults {f : Field} {v : Literal} : v ∈ f.defaults ↔ f.states (.default v) = true := by
  rw [defaults, List.mem_filterMap, states, List.any_eq_true]
  refine exists_congr fun c => and_congr_right fun _ => ?_
  obtain ⟨clause, span⟩ := c
  cases clause <;> simp [Clause.default?]

/-- The checks of a field are those that it states. -/
lemma Field.mem_checks {f : Field} {e : String} : e ∈ f.checks ↔ f.states (.check e) = true := by
  rw [checks, List.mem_filterMap, states, List.any_eq_true]
  refine exists_congr fun c => and_congr_right fun _ => ?_
  obtain ⟨clause, span⟩ := c
  cases clause <;> simp [Clause.check?]

/-- Whether a foreign key stands behind the name of a field, with or without target. -/
def Field.statesForeignKey (f : Field) : Bool :=
  f.constraints.any fun c =>
    match c.clause with
    | .foreignKey _ => true
    | _ => false

namespace Entity

/-- The columns of all `PK(...)` lines of a block, once each. -/
def mergedKey (node : Entity) : List String :=
  Schema.distinct (node.keys.flatMap fun k =>
    match k.key with
    | .primary columns => columns
    | _ => [])

/-- The columns of each `UNIQUE(...)` line of a block. -/
def uniqueLines (node : Entity) : List (List String) :=
  node.keys.filterMap fun k =>
    match k.key with
    | .unique columns => some columns
    | _ => none

/-- The expression of each `CHECK (...)` line of a block. -/
def checkLines (node : Entity) : List String :=
  node.keys.filterMap fun k =>
    match k.key with
    | .check e => some e
    | _ => none

/-- Whether a field is marked as key: behind its name, or by being the only column of the key lines. -/
def marks (node : Entity) (f : Field) : Bool :=
  f.states .primaryKey || node.mergedKey == [f.name]

end Entity

end Document

/-! ### Constraints of a field -/

namespace Schema

/-- The value of a default. -/
def Clause.default? : Clause → Option Literal
  | default v => some v
  | _ => none

/-- The expression of a check. -/
def Clause.check? : Clause → Option String
  | check e => some e
  | _ => none

namespace Field

/-- What the constraints of a field say is what the first of a kind says, where the others say nothing
and the kind does not repeat. -/
lemma filterMap_constraints {α : Type} {f : Field} {pick : Clause → Option α} (kind : ConstraintKind)
    (only : ∀ clause, clause.kind ≠ kind → pick clause = none) (once : f.count kind ≤ 1) :
    f.constraints.filterMap (fun c => pick c.clause) =
      ((f.constraint? kind).bind fun c => pick c.clause).toList := by
  have kept : f.constraints.filterMap (fun c => pick c.clause) =
      (f.constraints.filter fun c => c.clause.kind == kind).filterMap fun c => pick c.clause := by
    rw [List.filterMap_filter]
    refine List.filterMap_congr fun c _ => ?_
    split
    · rfl
    · next other => exact only _ (by simpa using other)
  rw [count, List.countP_eq_length_filter] at once
  rw [kept, constraint?, ← List.head?_filter]
  generalize f.constraints.filter (fun c => c.clause.kind == kind) = found at once
  rcases found with _ | ⟨c, _ | ⟨second, rest⟩⟩
  · rfl
  · cases said : pick c.clause <;> simp [said]
  · simp at once

/-- The default of a field is all its defaults, where it has at most one. -/
lemma toList_default? {f : Field} (once : f.count .default ≤ 1) :
    f.default?.toList = f.constraints.filterMap fun c => c.clause.default? := by
  rw [filterMap_constraints .default (by rintro (_ | _) <;> simp [Clause.kind, Clause.default?]) once]
  congr 1
  unfold default?
  cases f.constraint? .default with
  | none => rfl
  | some c =>
    obtain ⟨clause, span⟩ := c
    cases clause <;> rfl

/-- The check of a field is all its checks, where it has at most one. -/
lemma toList_check? {f : Field} (once : f.count .check ≤ 1) :
    f.check?.toList = f.constraints.filterMap fun c => c.clause.check? := by
  rw [filterMap_constraints .check (by rintro (_ | _) <;> simp [Clause.kind, Clause.check?]) once]
  congr 1
  unfold check?
  cases f.constraint? .check with
  | none => rfl
  | some c =>
    obtain ⟨clause, span⟩ := c
    cases clause <;> rfl

end Field

/-- A built field carries a constraint of a kind if a constraint behind its name binds to it. -/
lemma carries_buildField (names : Names) (f : Document.Field) (kind : ConstraintKind) :
    (buildField names f).carries kind = f.constraints.any fun c =>
      (bindConstraint names (bindType names f.type) f.name c).clause.kind == kind := by
  simp [buildField, Field.carries, List.any_map, Function.comp_def]

/-- The simple constraints of a built field are those behind its name. -/
lemma carries_buildField_simple (names : Names) (f : Document.Field) :
    (buildField names f).carries .primaryKey = f.states .primaryKey ∧
      (buildField names f).carries .unique = f.states .unique ∧
      (buildField names f).carries .notNull = f.states .notNull ∧
      (buildField names f).carries .foreignKey = f.statesForeignKey := by
  simp only [carries_buildField, Document.Field.states, Document.Field.statesForeignKey]
  refine ⟨?_, ?_, ?_, ?_⟩
  all_goals
    congr 1
    funext c
    unfold bindConstraint
    cases c.clause <;> rfl

/-- The clauses of a built field are those behind its name, as binding turns them. -/
lemma clause_mem_buildField {names : Names} {f : Document.Field} {kept : Clause}
    {stated : Document.Clause}
    (same : ∀ c, (bindConstraint names (bindType names f.type) f.name c).clause = kept ↔
      c.clause = stated) :
    (∃ span, ⟨kept, span⟩ ∈ (buildField names f).constraints) ↔ f.states stated = true := by
  simp only [buildField, List.mem_map, Document.Field.states, List.any_eq_true, beq_iff_eq]
  constructor
  · rintro ⟨span, c, hc, e⟩
    exact ⟨c, hc, (same c).1 (by rw [e])⟩
  · rintro ⟨c, hc, e⟩
    refine ⟨c.span, c, hc, ?_⟩
    rw [← (same c).2 e]
    rfl

/-- Binding keeps the defaults and the checks behind the name of a field. -/
lemma filterMap_buildField (names : Names) (f : Document.Field) :
    (buildField names f).constraints.filterMap (fun c => c.clause.default?) = f.defaults ∧
      (buildField names f).constraints.filterMap (fun c => c.clause.check?) = f.checks := by
  rw [buildField, List.filterMap_map, List.filterMap_map, Document.Field.defaults, Document.Field.checks]
  constructor
  all_goals
    refine List.filterMap_congr fun c _ => ?_
    obtain ⟨clause, span⟩ := c
    cases clause <;> rfl

/-! ### Keys of an entity -/

/-- The columns and the place of a `PK(...)` line. -/
def primaryLine? (k : Document.KeyLine) : Option (List String × Span) :=
  match k.key with
  | .primary columns => some (columns, k.span)
  | _ => none

/-- The key lines give the merged key, if there are any. -/
lemma mergedKey_eq (node : Document.Entity) :
    node.mergedKey = ((primaryKeyLine? node.keys).map Prod.fst).getD [] := by
  have lines : node.mergedKey = distinct ((node.keys.filterMap primaryLine?).flatMap Prod.fst) := by
    unfold Document.Entity.mergedKey
    congr 1
    induction node.keys with
    | nil => rfl
    | cons k ks ih =>
      rw [List.flatMap_cons, ih, List.filterMap_cons, primaryLine?]
      cases k.key <;> rfl
  have line : primaryKeyLine? node.keys = (node.keys.filterMap primaryLine?).head?.map fun first =>
      (distinct ((node.keys.filterMap primaryLine?).flatMap Prod.fst), first.2) := by
    change (match node.keys.filterMap primaryLine? with
      | [] => none
      | (_, span) :: _ => some (distinct ((node.keys.filterMap primaryLine?).flatMap Prod.fst), span)) = _
    cases node.keys.filterMap primaryLine? <;> rfl
  rw [lines, line]
  cases node.keys.filterMap primaryLine? <;> rfl

/-- A field of a block after its key lines: marked if it is the only column of the key. -/
def keyed (node : Document.Entity) (span : Span) (f : Field) : Field :=
  if node.mergedKey == [f.name] && !f.carries .primaryKey then
    { f with constraints := f.constraints ++ [⟨.primaryKey, span⟩] }
  else f

/-- Marking a key goes field by field where names differ. -/
lemma markPrimaryKey_eq_map {name : String} {span : Span} {fs : List Field}
    (nodup : (fs.map (·.name)).Nodup) :
    markPrimaryKey name span fs = fs.map fun f =>
      if name == f.name && !f.carries .primaryKey then
        { f with constraints := f.constraints ++ [⟨.primaryKey, span⟩] }
      else f := by
  induction fs with
  | nil => rfl
  | cons f fs ih =>
    rw [List.map_cons, List.nodup_cons] at nodup
    rw [markPrimaryKey, List.map_cons]
    by_cases h : f.name = name
    · have rest : ∀ g ∈ fs, (name == g.name) = false := by
        intro g hg
        rw [beq_eq_false_iff_ne, ← h]
        intro e
        exact nodup.1 (e ▸ List.mem_map_of_mem hg)
      rw [if_pos (by simpa using h), List.map_congr_left (g := id)]
      · cases f.carries .primaryKey <;> simp [h]
      · intro g hg
        rw [rest g hg]
        rfl
    · rw [if_neg (by simpa using h), ih nodup.2]
      rw [if_neg (by simpa using fun e => absurd e.symm h)]

/-- The key lines other than `PK(...)` hold no composite key. -/
lemma findSome?_otherKeys (keys : List Document.KeyLine) :
    ((otherKeys keys).findSome? fun c =>
      match c.clause with
      | .compositeKey columns => some columns
      | _ => none) = none := by
  rw [List.findSome?_eq_none_iff]
  intro c hc
  obtain ⟨k, -, e⟩ := List.mem_filterMap.1 hc
  split at e <;> cases e <;> rfl

/-- The `UNIQUE(...)` and `CHECK (...)` lines of a block, and its composite key if there is one. -/
lemma keys_of_constraints {node : Document.Entity} {e : Entity} {key : Option (List String × Span)}
    (h : e.constraints = key.toList.map (fun k => ⟨.compositeKey k.1, k.2⟩) ++ otherKeys node.keys) :
    e.compositeKey? = key.map Prod.fst ∧ Ddl.uniqueKeys e = node.uniqueLines ∧
      Ddl.checkKeys e = node.checkLines := by
  have uniques : Ddl.uniqueKeys { e with constraints := otherKeys node.keys } = node.uniqueLines := by
    rw [Ddl.uniqueKeys, otherKeys, List.filterMap_filterMap]
    refine List.filterMap_congr fun k _ => ?_
    cases k.key <;> rfl
  have checks : Ddl.checkKeys { e with constraints := otherKeys node.keys } = node.checkLines := by
    rw [Ddl.checkKeys, otherKeys, List.filterMap_filterMap]
    refine List.filterMap_congr fun k _ => ?_
    cases k.key <;> rfl
  rw [Entity.compositeKey?, Ddl.uniqueKeys, Ddl.checkKeys, h]
  cases key with
  | none => exact ⟨findSome?_otherKeys _, uniques, checks⟩
  | some k => exact ⟨rfl, uniques, checks⟩

/-- What the key lines of a block become, where every key lists columns of the block: a key of one
column marks it, and a key of several is kept as it is. -/
lemma buildEntity_keys {path : String} {names : Names} {id : Nat} {node : Document.Entity}
    (kept : fieldLines path node = node.fields) (nodup : (node.fields.map (·.name)).Nodup)
    (columns : ∀ c ∈ (buildEntity path names id node).entity.constraints, c.clause.kind ≠ .check →
      c.clause.columns ≠ [] ∧ ∀ column ∈ c.clause.columns,
        (buildEntity path names id node).entity.hasColumn column = true) :
    (∃ span, (buildEntity path names id node).entity.fields =
        (node.fields.map (buildField names)).map (keyed node span)) ∧
      (buildEntity path names id node).entity.compositeKey? =
        (if node.mergedKey.length < 2 then none else some node.mergedKey) ∧
      Ddl.uniqueKeys (buildEntity path names id node).entity = node.uniqueLines ∧
      Ddl.checkKeys (buildEntity path names id node).entity = node.checkLines := by
  have hf := @buildEntity_fields path names id node
  have hc := @buildEntity_constraints path names id node
  have merged := mergedKey_eq node
  rw [kept] at hf hc
  generalize (buildEntity path names id node).entity = e at hf hc columns ⊢
  -- a key that is not of one column marks no field
  have unmarked (span : Span) (many : ∀ x, node.mergedKey ≠ [x]) :
      node.fields.map (buildField names) = (node.fields.map (buildField names)).map (keyed node span) := by
    conv_lhs => rw [← List.map_id (node.fields.map (buildField names))]
    refine List.map_congr_left fun f _ => ?_
    rw [keyed, if_neg (by simp [many])]
    rfl
  unfold buildKeys at hf hc
  cases line : primaryKeyLine? node.keys with
  | none =>
    rw [line] at hf hc merged
    obtain ⟨composite, others⟩ := @keys_of_constraints node e none hc
    refine ⟨⟨default, hf.trans (unmarked _ (by simp [merged]))⟩, ?_, others⟩
    rw [composite, merged]
    rfl
  | some key =>
    obtain ⟨key, span⟩ := key
    rw [line] at hf hc merged
    replace merged : node.mergedKey = key := merged
    match key with
    | [] =>
      have := columns ⟨.compositeKey [], span⟩ (hc ▸ List.mem_cons_self) nofun
      exact absurd rfl this.1
    | [column] =>
      dsimp only at hf hc
      by_cases known : (node.fields.map (buildField names)).any (·.name == column) = true
      · rw [if_pos known] at hf hc
        obtain ⟨composite, others⟩ := @keys_of_constraints node e none hc
        refine ⟨⟨span, ?_⟩, ?_, others⟩
        · rw [hf, markPrimaryKey_eq_map (by simpa [Function.comp_def] using nodup)]
          refine List.map_congr_left fun f _ => ?_
          rw [keyed, merged]
          simp
        · rw [composite, merged]
          rfl
      · -- the rule for keys excludes a column that no field has
        rw [if_neg known] at hf hc
        have := (columns ⟨.compositeKey [column], span⟩ (hc ▸ List.mem_cons_self) nofun).2 column
          List.mem_cons_self
        unfold Entity.hasColumn Entity.field? at this
        rw [hf] at this
        split at this
        · next f found =>
          exact absurd (List.any_eq_true.2 ⟨f, List.mem_of_find?_eq_some found,
            List.find?_some found⟩) known
        · cases this
    | a :: b :: rest =>
      obtain ⟨composite, others⟩ := @keys_of_constraints node e (some (a :: b :: rest, span)) hc
      refine ⟨⟨default, hf.trans (unmarked _ (by simp [merged]))⟩, ?_, others⟩
      rw [composite, merged, if_neg (by simp)]
      rfl

section Keyed
variable (node : Document.Entity) (span : Span) (f : Field)

/-- Key lines keep the name of a field. -/
@[simp]
lemma keyed_name : (keyed node span f).name = f.name := by
  unfold keyed
  split <;> rfl

/-- Key lines keep the cardinality of a field. -/
@[simp]
lemma keyed_cardinality : (keyed node span f).cardinality = f.cardinality := by
  unfold keyed
  split <;> rfl

/-- Key lines keep the type of a field. -/
@[simp]
lemma keyed_type : (keyed node span f).type = f.type := by
  unfold keyed
  split <;> rfl

/-- Key lines add nothing but marks to a field. -/
lemma mem_keyed {c : Constraint} (h : c.clause ≠ .primaryKey) :
    c ∈ (keyed node span f).constraints ↔ c ∈ f.constraints := by
  unfold keyed
  split
  · rw [List.mem_append, List.mem_singleton, or_iff_left]
    rintro rfl
    exact h rfl
  · rfl

/-- Key lines add nothing to what the other constraints of a field say. -/
lemma filterMap_keyed {α : Type} {pick : Clause → Option α} (h : pick .primaryKey = none) :
    (keyed node span f).constraints.filterMap (fun c => pick c.clause) =
      f.constraints.filterMap fun c => pick c.clause := by
  unfold keyed
  split
  · rw [List.filterMap_append]
    simp [h]
  · rfl

/-- Key lines change no kind of constraint but the key. -/
lemma carries_keyed {kind : ConstraintKind} (h : kind ≠ .primaryKey) :
    (keyed node span f).carries kind = f.carries kind := by
  unfold keyed
  split
  · have : (Clause.primaryKey.kind == kind) = false := beq_eq_false_iff_ne.2 h.symm
    simp [Field.carries, List.any_append, this]
  · rfl

/-- A field is a key if it was marked or is the only column of the key lines. -/
lemma carries_keyed_primaryKey : (keyed node span f).carries .primaryKey =
    (f.carries .primaryKey || node.mergedKey == [f.name]) := by
  unfold keyed
  cases marked : f.carries .primaryKey with
  | true => simp [marked]
  | false =>
    cases only : node.mergedKey == [f.name] with
    | true =>
      rw [if_pos (by rfl)]
      simp [Field.carries, Clause.kind]
    | false => simpa using marked

end Keyed

/-- What a field of a schema keeps of a field line. -/
structure LineKept (s : Schema) (names : Names) (node : Document.Entity) (f : Document.Field)
    (g : Field) : Prop where
  name : g.name = f.name
  cardinality : g.cardinality = f.cardinality
  type : g.type = bindType names f.type
  primaryKey : g.carries .primaryKey = node.marks f
  unique : g.carries .unique = f.states .unique
  notNull : g.carries .notNull = f.states .notNull
  foreignKey : g.carries .foreignKey = f.statesForeignKey
  defaults : g.constraints.filterMap (fun c => c.clause.default?) = f.defaults
  checks : g.constraints.filterMap (fun c => c.clause.check?) = f.checks
  bound : ∀ target name span, ⟨.foreignKey target name, span⟩ ∈ g.constraints →
    ∃ id, target = some id ∧ id < s.entities.length

/-- A field with its key lines keeps its line, where its foreign keys are bound. -/
lemma lineKept_keyed {s : Schema} {names : Names} {node : Document.Entity} {span : Span}
    {f : Document.Field}
    (bound : ∀ target name place, ⟨.foreignKey target name, place⟩ ∈ (buildField names f).constraints →
      ∃ id, target = some id ∧ id < s.entities.length) :
    LineKept s names node f (keyed node span (buildField names f)) := by
  obtain ⟨key, unique, notNull, foreignKey⟩ := carries_buildField_simple names f
  constructor
  · exact keyed_name _ _ _
  · exact keyed_cardinality _ _ _
  · exact keyed_type _ _ _
  · rw [carries_keyed_primaryKey, key]
    rfl
  · rw [carries_keyed _ _ _ (by decide), unique]
  · rw [carries_keyed _ _ _ (by decide), notNull]
  · rw [carries_keyed _ _ _ (by decide), foreignKey]
  · exact (filterMap_keyed _ _ _ rfl).trans (filterMap_buildField _ _).1
  · exact (filterMap_keyed _ _ _ rfl).trans (filterMap_buildField _ _).2
  · intro target name place hc
    have before := (mem_keyed node span _ (c := ⟨.foreignKey target name, place⟩) nofun).1 hc
    exact bound target name place before

/-! ### References -/

/-- An entity that leaves no name unbound has a target for each foreign key. -/
lemma target_isSome_of_unresolvedOf_eq_nil {entity : String} {f : Field}
    (h : unresolvedOf entity f = []) {target : Option Nat} {name : String} {span : Span}
    (hc : ⟨.foreignKey target name, span⟩ ∈ f.constraints) : ∃ id, target = some id := by
  have none := (List.append_eq_nil_iff.1 h).1
  rw [Option.toList_eq_nil_iff, List.findSome?_eq_none_iff] at none
  cases target with
  | none => cases none _ hc
  | some id => exact ⟨id, rfl⟩

/-- A column whose foreign keys are all bound is a reference exactly if it carries one. -/
lemma isReference_eq {s : Schema} {f : Field}
    (bound : ∀ target name span, ⟨.foreignKey target name, span⟩ ∈ f.constraints →
      ∃ id, target = some id ∧ id < s.entities.length) :
    Ddl.isReference s f = (f.isColumn && f.carries .foreignKey) := by
  rw [Ddl.isReference]
  congr 1
  cases found : f.constraint? .foreignKey with
  | none =>
    have : f.carries .foreignKey = false := by
      rw [Field.carries, List.any_eq_false]
      exact List.find?_eq_none.1 found
    rw [this, Field.foreignKey?, found]
    rfl
  | some c =>
    have mem := List.mem_of_find?_eq_some found
    have kind : c.clause.kind = .foreignKey := by simpa using List.find?_some found
    have : f.carries .foreignKey = true := List.any_eq_true.2 ⟨c, mem, by simp [kind]⟩
    obtain ⟨clause, span⟩ := c
    cases clause with
    | foreignKey target name =>
      obtain ⟨id, rfl, lt⟩ := bound target name span mem
      rw [this, Field.foreignKey?, found]
      simp [entity?, lt]
    | _ => cases kind

end Schema

namespace Ddl

open Schema

/-! ### The key in a column -/

/-- Without composite key, the key in a column is the first marked field. -/
lemma inlineKey?_eq_map {e : Entity} (composite : e.compositeKey? = none) :
    inlineKey? e = (e.fields.find? (·.carries .primaryKey)).map (·.name) := by
  rw [inlineKey?, composite, Entity.primaryKey, composite]
  dsimp only
  split <;> simp_all

section Key
variable {e : Entity} {f : Field} (one : Check.primaryKeyCount e ≤ 1) (hf : f ∈ e.fields)
include one hf

/-- A marked field stands in the composite key, if there is one. -/
lemma mem_compositeKey {key : List String} (composite : e.compositeKey? = some key)
    (marked : f.carries .primaryKey = true) : f.name ∈ key := by
  rw [Check.primaryKeyCount, composite] at one
  by_contra outside
  have : 0 < e.fields.countP fun f => f.carries .primaryKey && !((some key).getD []).contains f.name :=
    List.countP_pos_iff.2 ⟨f, hf, by simp [marked, outside]⟩
  simp only [Option.toList_some, List.length_singleton] at one
  omega

/-- The column that carries the key itself is the marked one, where there is no composite key. -/
lemma inlineKey?_eq_some_iff (nodup : (e.fields.map (·.name)).Nodup) :
    inlineKey? e = some f.name ↔ f.carries .primaryKey = true ∧ e.compositeKey? = none := by
  cases composite : e.compositeKey? with
  | some key => simp [inlineKey?, composite]
  | none =>
    rw [inlineKey?_eq_map composite, Option.map_eq_some_iff]
    constructor
    · rintro ⟨g, found, same⟩
      have marked : g.carries .primaryKey = true := by simpa using List.find?_some found
      obtain rfl := List.inj_on_of_nodup_map nodup (List.mem_of_find?_eq_some found) hf same
      exact ⟨marked, rfl⟩
    · rintro ⟨marked, -⟩
      -- the first marked field is the only one
      rw [Check.primaryKeyCount, composite] at one
      have marks : (e.fields.filter (·.carries .primaryKey)).length ≤ 1 := by
        simpa [List.countP_eq_length_filter] using one
      have mem : f ∈ e.fields.filter (·.carries .primaryKey) := List.mem_filter.2 ⟨hf, marked⟩
      obtain ⟨g, only⟩ := List.length_eq_one_iff.1 (le_antisymm marks (List.length_pos_of_mem mem))
      rw [only, List.mem_singleton] at mem
      exact ⟨f, by rw [← List.head?_filter, only, mem]; rfl, rfl⟩

end Key

/-! ### Counting places -/

section Places
variable {s : Schema} (entities : (s.entities.map (·.name)).Nodup)
  (fields : ∀ e ∈ s.entities, (e.fields.map (·.name)).Nodup)
include entities fields

/-- No place stands twice in the list of places. -/
lemma nodup_places (p : Field → Bool) : (places s p).Nodup := by
  rw [places, List.nodup_flatMap]
  constructor
  · intro e he
    have names : ((e.fields.filter p).map (·.name)).Nodup :=
      (fields e he).sublist (List.filter_sublist.map _)
    have pairs := names.map (f := Prod.mk e.name) fun _ _ h => (Prod.mk.inj h).2
    rwa [List.map_map] at pairs
  · rw [List.nodup_iff_pairwise_ne, List.pairwise_map] at entities
    refine entities.imp fun ne => ?_
    rw [Function.onFun, List.disjoint_left]
    intro place h h'
    obtain ⟨f, -, rfl⟩ := List.mem_map.1 h
    obtain ⟨g, -, same⟩ := List.mem_map.1 h'
    exact ne (Prod.mk.inj same).1.symm

/-- A column stands in the list of places once if it has the property, and else not at all. -/
lemma count_places (p : Field → Bool) {e : Entity} (he : e ∈ s.entities) {f : Field}
    (hf : f ∈ e.fields) : (places s p).count (e.name, f.name) = if p f then 1 else 0 := by
  rw [(nodup_places entities fields p).count]
  have mem : (e.name, f.name) ∈ places s p ↔ p f = true := by
    constructor
    · intro h
      obtain ⟨e', he', h⟩ := List.mem_flatMap.1 h
      obtain ⟨f', hf', same⟩ := List.mem_map.1 h
      obtain ⟨hf', hp⟩ := List.mem_filter.1 hf'
      obtain ⟨sameEntity, sameField⟩ := Prod.mk.inj same
      obtain rfl := List.inj_on_of_nodup_map entities he' he sameEntity
      rwa [← List.inj_on_of_nodup_map (fields e' he') hf' hf sameField]
    · intro hp
      exact List.mem_flatMap.2 ⟨e, he, List.mem_map.2 ⟨f, List.mem_filter.2 ⟨hf, hp⟩, rfl⟩⟩
  simp only [mem]

end Places

end Ddl

namespace Compilation

open Ddl Schema

/-! ### What a script keeps -/

/-- The constraints in the text of a column, by what the document states: the key unless it is composite,
the uniqueness unless it is that of a set, and the others behind the name of the field. -/
def clauseTexts (doc : Document) (d : Dialect) (node : Document.Entity) (f : Document.Field) :
    List String :=
  (if node.marks f && node.mergedKey.length < 2 then ["PRIMARY KEY"] else []) ++
    (if f.states .unique && f.cardinality != .set then ["UNIQUE"] else []) ++
    (if f.states .notNull then ["NOT NULL"] else []) ++
    (f.defaults.map fun v =>
      "DEFAULT " ++ defaultExpr d (ofDocument doc).1 (buildField (declaredNames doc) f) v) ++
    (f.checks.map fun e => "CHECK (" ++ e ++ ")")

/-- The text of a column of a type: its constraints, and the labels that it may hold if there are no
enumeration types. -/
def columnText (doc : Document) (d : Dialect) (node : Document.Entity) (f : Document.Field)
    (type : String) (labels : Option (List String)) : String :=
  Text.join " " ([Sql.name f.name, type] ++ clauseTexts doc d node f ++
    (labels.toList.map fun ls => "CHECK (" ++ Sql.name f.name ++ " IN (" ++ d.stringList ls ++ "))"))

/-- What a column keeps of a field line. Each clause is there exactly if the line states it, in the column
and in its text; a set leaves its uniqueness to a trigger of the script, and a foreign key stands once in
the script. -/
structure ColumnKeeps (doc : Document) (out : Output) (node : Document.Entity) (t : Table)
    (f : Document.Field) (c : Column) : Prop where
  name : c.name = f.name
  isSet : c.isSet = (f.cardinality == .set)
  primaryKey : c.primaryKey = (node.marks f && t.primaryKeys.isEmpty)
  listed : node.marks f = true → c.primaryKey = true ∨ ∃ key ∈ t.primaryKeys, f.name ∈ key
  unique : c.unique = (f.states .unique && f.cardinality != .set)
  distinct : out.distinctPlaces.count (node.name, f.name) =
    if f.states .unique && f.cardinality == .set then 1 else 0
  notNull : c.notNull = f.states .notNull
  default : ∀ x, c.default = some x ↔ ∃ v, f.states (.default v) = true ∧
    x = defaultExpr out.dialect (ofDocument doc).1 (buildField (declaredNames doc) f) v
  check : ∀ x, c.check = some x ↔ f.states (.check x) = true
  labels : ∀ ls, c.labels = some ls → out.dialect = .sqlite ∧ f.cardinality = .scalar ∧
    ∃ enum ∈ (ofDocument doc).1.enums, enum.name = f.type.name ∧ ls = enum.labels
  foreignKey : (out.placedKeys.map fun p => (p.1, p.2.column)).count (node.name, f.name) =
    if f.statesForeignKey then 1 else 0
  text : c.sql out.dialect =
    columnText doc out.dialect node f (c.typeSql out.dialect) c.labels

/-- What a table keeps of an entity block: the merged key if it has several columns, the other key
lines in order, and one column for each field line that is no list. Nothing else but its foreign keys
stands among the definitions in its text. -/
structure TableKeeps (doc : Document) (out : Output) (node : Document.Entity) (t : Table) : Prop where
  name : t.name = node.name
  primaryKeys : t.primaryKeys = if node.mergedKey.length < 2 then [] else [node.mergedKey]
  uniques : t.uniques = node.uniqueLines
  checks : t.checks = node.checkLines
  columnNames : (t.columns.map (·.name)).Nodup
  columns : List.Forall₂ (ColumnKeeps doc out node t)
    (node.fields.filter fun f => f.cardinality != .list) t.columns
  text : t.sql out.dialect = t.sqlWith (t.columns.map (·.sql out.dialect) ++
    keyTexts (if node.mergedKey.length < 2 then [] else [node.mergedKey]) node.uniqueLines node.checkLines ++
    t.foreignKeys.map ForeignKey.clause)

/-- The entity that a block of a document becomes. -/
def builtEntity (doc : Document) (id : Nat) (node : Document.Entity) : Entity :=
  (buildEntity doc.path (declaredNames doc) id node).entity

/-- A default is lowered by its type alone. -/
lemma defaultExpr_congr {d : Dialect} {s : Schema} {f g : Field} (h : f.type = g.type) (v : Literal) :
    defaultExpr d s f v = defaultExpr d s g v := by
  unfold defaultExpr enumOf?
  rw [h]

/-- A type bound to an enumeration has the name of the enumeration. -/
lemma enum_of_enumOf? {doc : Document} {t : Document.TypeRef} {f : Field}
    (ht : f.type = bindType (declaredNames doc) t) {enum : Enum}
    (h : (ofDocument doc).1.enumOf? f = some enum) :
    enum ∈ (ofDocument doc).1.enums ∧ enum.name = t.name := by
  unfold enumOf? at h
  split at h
  · next id bound =>
    refine ⟨List.mem_of_getElem? h, ?_⟩
    rw [ht] at bound
    unfold bindType at bound
    split at bound
    · cases bound
    · split at bound
      · next found =>
        cases bound
        obtain ⟨lt, same, -⟩ := List.findIdx?_eq_some_iff_getElem.1 found
        have name := eq_of_beq same
        simp only [declaredNames, List.getElem_map] at name
        rw [enum?, ofDocument] at h
        simp only [List.getElem?_mapIdx, Option.map_eq_some_iff] at h
        obtain ⟨x, hx, rfl⟩ := h
        obtain ⟨_, hx⟩ := List.getElem?_eq_some_iff.1 hx
        rw [← name, ← hx]
      · split at bound <;> cases bound
  · cases h

/-- The text of a column that has the constraints of a field line. -/
lemma sql_eq_columnText {doc : Document} {d : Dialect} {node : Document.Entity} {f : Document.Field}
    {c : Column} (name : c.name = f.name)
    (primaryKey : c.primaryKey = (node.marks f && decide (node.mergedKey.length < 2)))
    (unique : c.unique = (f.states .unique && f.cardinality != .set)) (notNull : c.notNull = f.states .notNull)
    (default : c.default.toList = f.defaults.map
      (defaultExpr d (ofDocument doc).1 (buildField (declaredNames doc) f)))
    (check : c.check.toList = f.checks) : c.sql d = columnText doc d node f (c.typeSql d) c.labels := by
  rw [Column.sql, columnText, clauseTexts, name, primaryKey, unique, notNull, default, check, List.map_map]
  simp only [List.append_assoc]
  rfl

section Accepted
variable {doc : Document} (reported : (ofDocument doc).2 = [])
  (checked : Diagnostic.hasErrors (Check.run (ofDocument doc).1) = false)
  {id : Nat} {node : Document.Entity} (hn : (declaredEntities doc)[id]? = some node)

include hn in
/-- The entity of a declared block stands in the schema. -/
lemma builtEntity_mem : builtEntity doc id node ∈ (ofDocument doc).1.entities := by
  rw [entities_ofDocument]
  obtain ⟨lt, e⟩ := List.getElem?_eq_some_iff.1 hn
  exact List.mem_mapIdx.2 ⟨id, lt, by rw [e]; rfl⟩

include reported checked hn

/-- What the key lines of an accepted block become. -/
lemma builtEntity_keys :
    (∃ span, (builtEntity doc id node).fields =
        (node.fields.map (buildField (declaredNames doc))).map (keyed node span)) ∧
      (builtEntity doc id node).compositeKey? =
        (if node.mergedKey.length < 2 then none else some node.mergedKey) ∧
      uniqueKeys (builtEntity doc id node) = node.uniqueLines ∧
      checkKeys (builtEntity doc id node) = node.checkLines := by
  obtain ⟨kept, nodup⟩ :=
    fieldLines_of_diagnostics_eq_nil (diagnostics_eq_nil_of_snd_eq_nil reported hn)
  refine buildEntity_keys kept nodup fun c hc hk => ?_
  exact Check.columns_of_mem_constraints checked (builtEntity_mem hn) hc hk

/-- An accepted field line leaves no name unbound. -/
lemma unresolvedOf_eq_nil {f : Document.Field} (hf : f ∈ node.fields) :
    unresolvedOf node.name (buildField (declaredNames doc) f) = [] := by
  have unresolved := Check.unresolved_eq_nil checked
  rw [unresolved_ofDocument, List.flatMap_eq_nil_iff] at unresolved
  obtain ⟨lt, e⟩ := List.getElem?_eq_some_iff.1 hn
  have block := unresolved _ (List.mem_mapIdx.2 ⟨id, lt, rfl⟩)
  obtain ⟨kept, -⟩ :=
    fieldLines_of_diagnostics_eq_nil (diagnostics_eq_nil_of_snd_eq_nil reported hn)
  rw [e, buildEntity_unresolved, kept, List.flatMap_eq_nil_iff] at block
  exact block _ (List.mem_map_of_mem hf)

/-- The foreign keys of an accepted field line point at entities of the schema. -/
lemma target_of_mem_buildField {f : Document.Field} (hf : f ∈ node.fields) {target : Option Nat}
    {name : String} {span : Span}
    (hc : ⟨.foreignKey target name, span⟩ ∈ (buildField (declaredNames doc) f).constraints) :
    ∃ id, target = some id ∧ id < (ofDocument doc).1.entities.length := by
  have line := unresolvedOf_eq_nil reported checked hn hf
  obtain ⟨id', rfl⟩ := target_isSome_of_unresolvedOf_eq_nil line hc
  refine ⟨id', rfl, ?_⟩
  rw [length_entities_ofDocument]
  exact target_lt_of_mem_buildField hc

/-- The columns of the table of an accepted block are those of its field lines, lists apart. -/
lemma columns_of_accepted (opts : Options) (keys : List ForeignKey) :
    ∃ span, (builtEntity doc id node).fields =
        (node.fields.map (buildField (declaredNames doc))).map (keyed node span) ∧
      (tableOf opts (ofDocument doc).1 keys (builtEntity doc id node)).columns =
        (node.fields.filter fun f => f.cardinality != .list).map fun f =>
          column opts.dialect (ofDocument doc).1 (inlineKey? (builtEntity doc id node))
            (keyed node span (buildField (declaredNames doc) f)) := by
  obtain ⟨⟨span, fields⟩, -⟩ := builtEntity_keys reported checked hn
  refine ⟨span, fields, ?_⟩
  have same : node.fields.filter ((fun g => g.isColumn) ∘ keyed node span ∘
      buildField (declaredNames doc)) = node.fields.filter fun f => f.cardinality != .list := by
    refine List.filter_congr fun f _ => ?_
    simp [Field.isColumn]
  rw [(tableOf_views _ _ _ _).1, fields, List.map_map, List.filter_map, List.map_map, same]
  rfl

variable {opts : Options} {out : Output}
  (generated : generate opts (ofDocument doc).1 = .ok out)
include generated

omit reported in
/-- The column of an accepted field line keeps what the line states. -/
lemma columnKeeps_of_accepted {keys : List ForeignKey} {f : Document.Field} {g : Field}
    (kept : LineKept (ofDocument doc).1 (declaredNames doc) node f g)
    (hg : g ∈ (builtEntity doc id node).fields) (scalar : f.cardinality ≠ .list)
    (composite : (builtEntity doc id node).compositeKey? =
      if node.mergedKey.length < 2 then none else some node.mergedKey) :
    ColumnKeeps doc out node (tableOf opts (ofDocument doc).1 keys (builtEntity doc id node)) f
      (column opts.dialect (ofDocument doc).1 (inlineKey? (builtEntity doc id node)) g) := by
  have he := builtEntity_mem hn
  have names := field_names_nodup doc
  have one := Check.primaryKeyCount_le_one checked he
  have once := fun kind hk => @Check.count_le_one _ checked _ he _ hg kind hk
  have count := fun p => count_places (entity_names_nodup doc) names p he hg
  rw [kept.name, builtEntity, buildEntity_name] at count
  have trailing : (tableOf opts (ofDocument doc).1 keys (builtEntity doc id node)).primaryKeys =
      (builtEntity doc id node).compositeKey?.toList := (tableOf_views _ _ _ _).2.1
  have inline : (inlineKey? (builtEntity doc id node) == some g.name) =
      (node.marks f && (builtEntity doc id node).compositeKey?.toList.isEmpty) := by
    rw [Bool.eq_iff_iff, ← kept.primaryKey]
    simpa using inlineKey?_eq_some_iff one hg (names _ he)
  have defaults : (g.default?.map (defaultExpr opts.dialect (ofDocument doc).1 g)).toList =
      f.defaults.map (defaultExpr opts.dialect (ofDocument doc).1 (buildField (declaredNames doc) f)) := by
    rw [Option.toList_map, Field.toList_default? (once .default (by decide)), kept.defaults]
    exact List.map_congr_left fun v _ => defaultExpr_congr kept.type v
  have checks : g.check?.toList = f.checks := by
    rw [Field.toList_check? (once .check (by decide)), kept.checks]
  constructor
  · exact kept.name
  · rw [column, kept.cardinality]
  · rw [column, inline, trailing]
  · intro marked
    rw [column, inline, trailing, marked]
    cases composite : (builtEntity doc id node).compositeKey? with
    | none => exact .inl rfl
    | some key =>
      have mem := mem_compositeKey one hg composite (kept.primaryKey.trans marked)
      exact .inr ⟨key, List.mem_singleton_self key, kept.name ▸ mem⟩
  · rw [column, kept.unique, kept.cardinality]
  · rw [distinctPlaces_of_generate generated, count, kept.unique, kept.cardinality, Bool.and_comm]
  · exact kept.notNull
  · intro x
    rw [dialect_of_generate generated, column, ← Option.mem_toList, defaults, List.mem_map]
    exact exists_congr fun v => and_congr Document.Field.mem_defaults eq_comm
  · intro x
    rw [column, ← Option.mem_toList, checks, Document.Field.mem_checks]
  · intro ls h
    rw [column] at h
    split at h
    · next cond =>
      obtain ⟨enum, found, rfl⟩ := Option.map_eq_some_iff.1 h
      obtain ⟨mem, name⟩ := enum_of_enumOf? kept.type found
      rw [kept.cardinality, Bool.and_eq_true, beq_iff_eq] at cond
      refine ⟨?_, cond.1, enum, mem, name, rfl⟩
      rw [dialect_of_generate generated]
      cases hd : opts.dialect with
      | postgresql => rw [hd] at cond; cases cond.2
      | sqlite => rfl
    · cases h
  · rw [placedKeys_of_generate generated, List.map_map]
    show (out.foreignKeys.map ForeignKey.place).count (node.name, f.name) = _
    rw [foreignKeys_of_generate generated, count, isReference_eq kept.bound, Field.isColumn,
      kept.cardinality, kept.foreignKey]
    simp [scalar]
  · rw [dialect_of_generate generated]
    refine sql_eq_columnText kept.name ?_ ?_ kept.notNull ?_ ?_
    · rw [column, inline, composite]
      by_cases few : node.mergedKey.length < 2 <;> simp [few]
    · rw [column, kept.unique, kept.cardinality]
    · exact defaults
    · exact checks

/-- The table of an accepted block keeps what the block states. -/
lemma tableKeeps_of_accepted (keys : List ForeignKey) :
    TableKeeps doc out node (tableOf opts (ofDocument doc).1 keys (builtEntity doc id node)) := by
  obtain ⟨-, composite, uniques, checks⟩ := builtEntity_keys reported checked hn
  obtain ⟨columnsView, keysView, uniquesView, checksView, -⟩ :=
    tableOf_views opts (ofDocument doc).1 keys (builtEntity doc id node)
  constructor
  · exact buildEntity_name
  · rw [keysView, composite]
    split <;> rfl
  · exact uniquesView.trans uniques
  · exact checksView.trans checks
  · rw [columnsView, List.map_map]
    exact (field_names_nodup doc _ (builtEntity_mem hn)).sublist (List.filter_sublist.map _)
  · obtain ⟨span, fields, columns⟩ := columns_of_accepted reported checked hn opts keys
    rw [columns, List.forall₂_map_right_iff, List.forall₂_same]
    intro f hf
    obtain ⟨hf, scalar⟩ := List.mem_filter.1 hf
    refine columnKeeps_of_accepted checked hn generated ?_ ?_ (by simpa using scalar) composite
    · exact lineKept_keyed fun target name place hc => target_of_mem_buildField reported checked hn hf hc
    · rw [fields, List.map_map]
      exact List.mem_map_of_mem hf
  · rw [sql_tableOf, keysView, composite, uniquesView, uniques, checksView, checks]
    split <;> rfl

end Accepted

/-- No constraint is lost or added on the way to a script: the script of a document without errors has
one table for each entity block, and each table keeps the constraints of its block and of its field
lines, in its text as well. The foreign keys of the script and its triggers for distinct elements are on
the tables that their texts name. -/
theorem constraints_kept {path : String} {src : List UInt8} {o : CompileOptions}
    (accepted : (run path src o).valid = true) :
    ∃ out, (run path src o).output = some out ∧ out.dialect = o.dialect ∧
      (out.tables.map (·.name)).Nodup ∧ (∀ st ∈ out.statements, st.Spelled out.dialect) ∧
      List.Forall₂ (TableKeeps (document path src o) out) (document path src o).entities out.tables := by
  obtain ⟨out, output, generated⟩ := exists_output_of_valid accepted
  have reported := ofDocument_snd_eq_nil accepted
  have checked := check_of_valid accepted
  rw [run_schema] at generated checked
  refine ⟨out, output, dialect_of_generate generated, ?_, fun st _ => st.spelled _, ?_⟩
  · rw [map_name_tables_of_generate generated]
    exact entity_names_nodup _
  · rw [← declaredEntities_of_snd_eq_nil reported, tables_of_generate generated,
      List.forall₂_iff_get]
    have length : (ofDocument (document path src o)).1.entities.length =
        (declaredEntities (document path src o)).length := by
      rw [entities_ofDocument, List.length_mapIdx]
    refine ⟨by simp [length_keyGroups, length], ?_⟩
    intro i hi ht
    have hn := List.getElem?_eq_getElem hi
    have hk : i < (keyGroups (ofDocument (document path src o)).1).length := by
      rw [length_keyGroups, length]
      exact hi
    have keeps := tableKeeps_of_accepted reported checked hn generated
      (keyGroups (ofDocument (document path src o)).1)[i]
    simpa [entities_ofDocument, builtEntity] using keeps

/-- Two blocks with an enumeration, a unique set, a list, a reference, a check and a composite key. -/
def teams : List UInt8 :=
  Text.bytes ("ENUM Color \x7b RED, BLUE \x7d\n:Team\n  INT $.id PK\n  TEXT %.tags UNIQUE\n" ++
    "  Member @.members\n:Member\n  INT $.team NOT NULL FK\n  INT $.nr CHECK (nr > 0)\n" ++
    "  Color $.color DEFAULT RED\n  PK(team, nr)\n  UNIQUE(color)\n")

/-- The script of the two blocks keeps their constraints, also where there are no enumeration types. -/
theorem constraints_kept_of_teams :
    let o : CompileOptions := { dialect := .sqlite }
    (run "teams.erd" teams o).valid = true ∧ (document "teams.erd" teams o).entities.length = 2 ∧
      (run "teams.erd" teams o).output.map (fun out => out.tables.map (·.sql out.dialect)) =
        some ["CREATE TABLE Team (id INT PRIMARY KEY, tags TEXT)",
          "CREATE TABLE Member (team INT NOT NULL, nr INT CHECK (nr > 0), " ++
            "color TEXT DEFAULT 'RED' CHECK (color IN ('RED', 'BLUE')), PRIMARY KEY (team, nr), " ++
            "UNIQUE (color), CONSTRAINT fk_Member_team FOREIGN KEY (team) REFERENCES Team (id))"] ∧
      ∃ out, (run "teams.erd" teams o).output = some out ∧ out.dialect = .sqlite ∧
        (out.tables.map (·.name)).Nodup ∧ (∀ st ∈ out.statements, st.Spelled out.dialect) ∧
        List.Forall₂ (TableKeeps (document "teams.erd" teams o) out)
          (document "teams.erd" teams o).entities out.tables := by
  intro o
  have facts : (run "teams.erd" teams o).valid = true ∧ (document "teams.erd" teams o).entities.length = 2 ∧
      (run "teams.erd" teams o).output.map (fun out => out.tables.map (·.sql out.dialect)) =
        some ["CREATE TABLE Team (id INT PRIMARY KEY, tags TEXT)",
          "CREATE TABLE Member (team INT NOT NULL, nr INT CHECK (nr > 0), " ++
            "color TEXT DEFAULT 'RED' CHECK (color IN ('RED', 'BLUE')), PRIMARY KEY (team, nr), " ++
            "UNIQUE (color), CONSTRAINT fk_Member_team FOREIGN KEY (team) REFERENCES Team (id))"] := by
    -- the characters of short texts are cheaper to list than their encoding is to decode
    rw [run, analyse, document, teams, read_bytes, String.toList_append, String.toList_append]
    decide +kernel
  exact ⟨facts.1, facts.2.1, facts.2.2, constraints_kept facts.1⟩

end Compilation

end ErdSql
