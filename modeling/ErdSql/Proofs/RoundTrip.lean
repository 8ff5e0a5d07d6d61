import ErdSql.Compilation
import ErdSql.Proofs.Resolution
import ErdSql.Proofs.TableText

/-!
# Tables of a document

The tables that are read from the script of a document of enumerations and entities.

* `Schema.basic_ofDocument`: the schema of a basic document is basic.
* `Document.tables_of_basic`: the script can be generated, and what is read from it is every entity
  with its columns but those whose names open with the word `EXCLUDE`.
* `Document.tables_eq_declaredTables_iff`: so names survive the round trip exactly if no column has
  such a name.
-/

namespace ErdSql

/-! ### Basic documents -/

namespace Document

/-- Whether a type is that of an entity or enumeration of the document, or a base type. -/
def TypeRef.isKnown (doc : Document) (t : TypeRef) : Bool :=
  (doc.statements.filterMap Schema.Declaration.ofStatement?).any (·.name == t.name) ||
    BaseType.isBase t.name

/-- Whether a constraint is a key, a foreign key, `UNIQUE`, `NOT NULL` or a constant for a default. -/
def Clause.isBasic : Clause → Bool
  | .default v => v.isConstant
  | .check _ => false
  | _ => true

/-- Whether a field line has a known type with numbers for arguments and basic constraints. -/
def Field.isBasic (doc : Document) (f : Field) : Bool :=
  Scan.isName f.name && f.type.isKnown doc &&
    f.type.args.all (fun a => a.kind == .number && Scan.isNumber a.text) &&
    f.constraints.all (·.clause.isBasic)

/-- Whether a key line lists columns. -/
def Key.isBasic : Key → Bool
  | .check _ => false
  | _ => true

/-- Whether a feature line asks for audit triggers or the view of live rows. -/
def Feature.isBasic : Feature → Bool
  | .auditable => true
  | .softDelete _ => true
  | _ => false

/-- Whether an entity block has basic lines only. -/
def Entity.isBasic (doc : Document) (e : Entity) : Bool :=
  Scan.isName e.name && e.fields.all (·.isBasic doc) && e.keys.all (·.key.isBasic) &&
    e.directives.all (·.feature.isBasic)

/-- Whether a document is made of enumerations and basic entity blocks. -/
def isBasic (doc : Document) : Bool :=
  doc.statements.all fun
    | .entity e => e.isBasic doc
    | .enum _ => true
    | _ => false

/-- The tables that a document declares: the name of each entity and of its fields that are no lists,
in order of declaration. -/
def declaredTables (doc : Document) : List Script.Table :=
  (Schema.declaredEntities doc).map fun node =>
    ⟨Text.bytes node.name, ((Schema.fieldLines doc.path node).filter fun f => f.cardinality != .list).map
      fun f => Text.bytes f.name⟩

/-- The declared tables without the columns whose names open a table constraint. -/
def readTables (doc : Document) : List Script.Table :=
  (Schema.declaredEntities doc).map fun node =>
    ⟨Text.bytes node.name, (((Schema.fieldLines doc.path node).filter fun f =>
      f.cardinality != .list).filter fun f => !Ddl.opensConstraint f.name).map
        fun f => Text.bytes f.name⟩

end Document

namespace Schema

/-! ### Declarations -/

/-- Every declaration that is seen leaves its name. -/
lemma name_mem_declare {path : String} {taken ds : List Declaration} {d : Declaration}
    (h : d ∈ taken ∨ d ∈ ds) : d.name ∈ (declare path taken ds).1.map Declaration.name := by
  induction ds generalizing taken d with
  | nil => exact List.mem_map_of_mem (h.resolve_right nofun)
  | cons x xs ih =>
    rw [declare]
    split
    · apply ih
      rcases h with h | h
      · exact .inl (List.mem_append_left _ h)
      · rcases List.mem_cons.1 h with rfl | h
        · exact .inl (List.mem_append_right _ List.mem_cons_self)
        · exact .inr h
    · next first found =>
      dsimp only
      rcases h with h | h
      · exact ih (.inl h)
      · rcases List.mem_cons.1 h with rfl | h
        · have same : first.name = d.name := by simpa using List.find?_some found
          rw [← same]
          exact ih (.inl (List.mem_of_find?_eq_some found))
        · exact ih (.inr h)

/-- A known type is bound. -/
lemma bindType_of_isKnown {doc : Document} {t : Document.TypeRef} (h : t.isKnown doc = true) :
    (bindType (declaredNames doc) t).binding ≠ .unresolved := by
  unfold bindType
  split
  · nofun
  · next noEntity =>
    split
    · nofun
    · next noEnum =>
      split
      · nofun
      · next noBase =>
        -- a declared name is that of an entity or of an enumeration
        rw [Document.TypeRef.isKnown, Bool.or_eq_true, List.any_eq_true] at h
        rcases h with ⟨d, hd, same⟩ | h
        · rw [beq_iff_eq] at same
          obtain ⟨x, hx, named⟩ := List.mem_map.1 (@name_mem_declare doc.path [] _ d (.inr hd))
          rw [Names.entity?, List.findIdx?_eq_none_iff] at noEntity
          rw [Names.enum?, List.findIdx?_eq_none_iff] at noEnum
          cases x with
          | entity e =>
            have mem : e.name ∈ (declaredNames doc).entities :=
              List.mem_map_of_mem (List.mem_filterMap.2 ⟨_, hx, rfl⟩)
            have equal : e.name = t.name := named.trans same
            exact absurd (noEntity e.name mem) (by simpa using equal)
          | enum e =>
            have mem : e.name ∈ (declaredNames doc).enums :=
              List.mem_map_of_mem (List.mem_filterMap.2 ⟨_, hx, rfl⟩)
            have equal : e.name = t.name := named.trans same
            exact absurd (noEnum e.name mem) (by simpa using equal)
        · exact absurd h noBase

/-- The upper-case name of a base type is a plain word. -/
lemma isPlainWord_of_isBase {name : String} (h : BaseType.isBase name = true) :
    Sql.isPlainWord (Text.upper name) = true := by
  have table : ∀ p ∈ BaseType.catalogue, Sql.isPlainWord p.1 = true := by decide +kernel
  obtain ⟨p, hp, same⟩ := List.lookup_isSome_iff.1 h
  rw [beq_iff_eq.1 same]
  exact table p hp

/-- The name of a bound base type is a plain word. -/
lemma isPlainWord_of_base {names : Names} {t : Document.TypeRef}
    (h : (bindType names t).binding = .base) : Sql.isPlainWord (bindType names t).name = true := by
  unfold bindType at h ⊢
  split at h
  · cases h
  · next noEntity =>
    split at h
    · cases h
    · next noEnum =>
      split at h
      · next base =>
        rw [if_pos base]
        dsimp only
        rw [BaseType.canonical, if_pos base]
        exact isPlainWord_of_isBase base
      · cases h

/-! ### Fields -/

lemma bindType_args (names : Names) (t : Document.TypeRef) : (bindType names t).args = t.args := by
  unfold bindType
  split
  · rfl
  · split
    · rfl
    · split <;> rfl

/-- The constraints of a built field that say what a document writes out. -/
lemma clause_of_mem_buildField {names : Names} {f : Document.Field} {c : Constraint}
    (h : c ∈ (buildField names f).constraints) :
    (∀ v, c.clause = .default v → ∃ x ∈ f.constraints, x.clause = .default v) ∧
      ∀ e, c.clause = .check e → ∃ x ∈ f.constraints, x.clause = .check e := by
  obtain ⟨x, hx, rfl⟩ := List.mem_map.1 h
  unfold bindConstraint
  cases e : x.clause with
  | default v => exact ⟨fun w hw => ⟨x, hx, by cases hw; exact e⟩, nofun⟩
  | check b => exact ⟨nofun, fun w hw => ⟨x, hx, by cases hw; exact e⟩⟩
  | primaryKey => exact ⟨nofun, nofun⟩
  | unique => exact ⟨nofun, nofun⟩
  | notNull => exact ⟨nofun, nofun⟩
  | foreignKey target => exact ⟨nofun, nofun⟩

/-- A built field of a basic field line is basic, marked or not. -/
lemma basic_of_marked {doc : Document} {f : Document.Field} (h : f.isBasic doc = true) {g : Field}
    (marked : Marked (buildField (declaredNames doc) f) g) : g.Basic := by
  simp only [Document.Field.isBasic, Bool.and_eq_true, List.all_eq_true, beq_iff_eq] at h
  obtain ⟨⟨⟨name, known⟩, args⟩, clauses⟩ := h
  -- a mark is no default and no check
  have stated : ∀ c ∈ g.constraints, (∀ v, c.clause = .default v → v.isConstant = true) ∧
      ∀ e, c.clause ≠ .check e := by
    have built : ∀ c ∈ (buildField (declaredNames doc) f).constraints,
        (∀ v, c.clause = .default v → v.isConstant = true) ∧ ∀ e, c.clause ≠ .check e := by
      intro c hc
      obtain ⟨default, check⟩ := clause_of_mem_buildField hc
      constructor
      · intro v hv
        obtain ⟨x, hx, e⟩ := default v hv
        have := clauses x hx
        rwa [e] at this
      · intro e he
        obtain ⟨x, hx, e⟩ := check e he
        have := clauses x hx
        rw [e] at this
        cases this
    rcases marked with rfl | ⟨span, rfl⟩
    · exact built
    · intro c hc
      rcases List.mem_append.1 hc with hc | hc
      · exact built c hc
      · rw [List.mem_singleton.1 hc]
        exact ⟨nofun, nofun⟩
  have view : g.name = f.name ∧ g.type = bindType (declaredNames doc) f.type := by
    rcases marked with rfl | ⟨span, rfl⟩ <;> exact ⟨rfl, rfl⟩
  constructor
  · rw [view.1]
    exact Scan.nul_not_mem_of_isName name
  · rw [view.2]
    exact bindType_of_isKnown known
  · rw [view.2]
    exact isPlainWord_of_base
  · rw [view.2, bindType_args]
    exact fun a ha => (args a ha).2
  · intro v hv
    unfold Field.default? at hv
    split at hv
    · next w span found =>
      cases hv
      exact (stated _ (List.mem_of_find?_eq_some found)).1 v rfl
    · cases hv
  · unfold Field.check?
    split
    · next e span found => exact absurd rfl ((stated _ (List.mem_of_find?_eq_some found)).2 e)
    · rfl

/-! ### Entities -/

/-- Basic feature lines set nothing but audit triggers and the view of live rows. -/
lemma addFeatures_of_basic (path : String) (e : Entity) {ds : List Document.Directive}
    (h : ∀ d ∈ ds, d.feature.isBasic = true) :
    (addFeatures path e ds).1.partition = e.partition ∧ (addFeatures path e ds).1.ttl = e.ttl ∧
      (addFeatures path e ds).1.fts = e.fts ∧ (addFeatures path e ds).1.rls = e.rls ∧
      (addFeatures path e ds).1.policies = e.policies := by
  induction ds generalizing e with
  | nil => exact ⟨rfl, rfl, rfl, rfl, rfl⟩
  | cons d ds ih =>
    have rest := fun e => ih e fun x hx => h x (List.mem_cons_of_mem d hx)
    have first := h d List.mem_cons_self
    rw [addFeatures]
    split
    · next e' added =>
      rw [addFeature] at added
      cases feature : d.feature with
      | auditable =>
        rw [feature] at added
        dsimp only at added
        split at added
        · cases added
        · cases added
          exact rest _
      | softDelete column =>
        rw [feature] at added
        dsimp only at added
        split at added
        · cases added
        · cases added
          exact rest _
      | _ =>
        rw [feature] at first
        cases first
    · exact rest e

lemma mem_distinctFields {path entity : String} {taken fs : List Document.Field} {f : Document.Field}
    (h : f ∈ (distinctFields path entity taken fs).1) : f ∈ taken ∨ f ∈ fs := by
  induction fs generalizing taken with
  | nil => exact .inl h
  | cons x xs ih =>
    rw [distinctFields] at h
    split at h
    · rcases ih h with h | h
      · rcases List.mem_append.1 h with h | h
        · exact .inl h
        · exact .inr (List.mem_cons.2 (.inl (List.mem_singleton.1 h)))
      · exact .inr (List.mem_cons_of_mem x h)
    · rcases ih h with h | h
      · exact .inl h
      · exact .inr (List.mem_cons_of_mem x h)

/-- The constraints that key lines give: a composite key and the other lines. -/
lemma mem_buildKeys {fs : List Field} {keys : List Document.KeyLine} {c : EntityConstraint}
    (h : c ∈ (buildKeys fs keys).2) :
    (∃ columns, c.clause = .compositeKey columns) ∨ c ∈ otherKeys keys := by
  unfold buildKeys at h
  split at h
  · exact .inr h
  · split at h
    · exact .inr h
    · rcases List.mem_cons.1 h with rfl | h
      · exact .inl ⟨_, rfl⟩
      · exact .inr h
  · rcases List.mem_cons.1 h with rfl | h
    · exact .inl ⟨_, rfl⟩
    · exact .inr h

/-- The entity of a basic block is basic. -/
lemma basic_buildEntity {doc : Document} {node : Document.Entity} (h : node.isBasic doc = true)
    (id : Nat) : (buildEntity doc.path (declaredNames doc) id node).entity.Basic := by
  simp only [Document.Entity.isBasic, Bool.and_eq_true, List.all_eq_true] at h
  obtain ⟨⟨⟨name, fields⟩, keys⟩, directives⟩ := h
  obtain ⟨partition, ttl, fts, rls, policies⟩ := addFeatures_of_basic doc.path
    (⟨id, node.name, (buildKeys ((fieldLines doc.path node).map (buildField (declaredNames doc)))
      node.keys).1, (buildKeys ((fieldLines doc.path node).map (buildField (declaredNames doc)))
      node.keys).2, none, none, [], none, [], false, none, node.span⟩ : Entity) directives
  refine ⟨?_, ?_, ?_, partition, ttl, fts, rls, policies⟩
  · rw [buildEntity_name]
    exact Scan.nul_not_mem_of_isName name
  · rw [buildEntity_fields]
    intro g hg
    have marked := forall₂_buildKeys ((fieldLines doc.path node).map (buildField (declaredNames doc)))
      node.keys
    obtain ⟨i, hi, rfl⟩ := List.getElem_of_mem hg
    have hj := marked.length_eq ▸ hi
    have pair := (List.forall₂_iff_get.1 marked).2 i hj hi
    rw [List.length_map] at hj
    refine basic_of_marked (fields _ ?_) (by simpa using pair)
    exact (mem_distinctFields (List.getElem_mem hj)).resolve_left nofun
  · rw [Ddl.checkKeys, List.filterMap_eq_nil_iff, buildEntity_constraints]
    intro c hc
    rcases mem_buildKeys hc with ⟨columns, e⟩ | other
    · rw [e]
    · obtain ⟨k, hk, e⟩ := List.mem_filterMap.1 other
      have basic := keys k hk
      cases key : k.key with
      | primary columns =>
        rw [key] at e
        cases e
      | unique columns =>
        rw [key] at e
        cases e
        rfl
      | check expr =>
        rw [key] at basic
        cases basic

/-! ### Documents -/

/-- The schema of a basic document is basic. -/
lemma basic_ofDocument {doc : Document} (h : doc.isBasic = true) : (ofDocument doc).1.Basic := by
  rw [Document.isBasic, List.all_eq_true] at h
  constructor
  · rw [entities_ofDocument]
    intro e he
    obtain ⟨i, hi, rfl⟩ := List.mem_mapIdx.1 he
    exact basic_buildEntity (h _ (mem_entities_of_declared (List.getElem_mem hi))) i
  all_goals
    refine List.filterMap_eq_nil_iff.2 fun st hst => ?_
    have basic := h st hst
    cases st with
    | entity _ => rfl
    | enum _ => rfl
    | _ => cases basic

/-- The names and the cardinalities of the fields of a built entity are those of its field lines. -/
lemma columns_buildEntity (path : String) (names : Names) (id : Nat) (node : Document.Entity)
    (p : String → Bool) :
    (((buildEntity path names id node).entity.fields.filter (·.isColumn)).filter fun f => p f.name).map
        (fun f => Text.bytes f.name) =
      (((fieldLines path node).filter fun f => f.cardinality != .list).filter fun f => p f.name).map
        fun f => Text.bytes f.name := by
  have marked := forall₂_buildKeys ((fieldLines path node).map (buildField names)) node.keys
  rw [buildEntity_fields]
  generalize (buildKeys ((fieldLines path node).map (buildField names)) node.keys).1 = gs at marked
  rw [List.forall₂_map_left_iff] at marked
  generalize fieldLines path node = fs at marked
  induction marked with
  | nil => rfl
  | @cons f g fs gs first _ ih =>
    have view : g.name = f.name ∧ g.isColumn = (f.cardinality != .list) := by
      rcases first with rfl | ⟨span, rfl⟩ <;> exact ⟨rfl, rfl⟩
    simp only [List.filter_cons, view.2]
    split
    · simp only [List.filter_cons, view.1]
      split
      · rw [List.map_cons, List.map_cons, ih, view.1]
      · exact ih
    · exact ih

end Schema

namespace Document

/-- The script of a basic document can be generated, and the tables that are read from it are the
declared ones without the columns whose names open a table constraint. -/
theorem tables_of_basic {doc : Document} (h : doc.isBasic = true) {opts : Ddl.Options}
    (bare : opts.overlay = Overlay.empty) :
    ∃ out, Ddl.generate opts (Schema.ofDocument doc).1 = .ok out ∧
      Script.tables (Text.bytes out.sql) = doc.readTables := by
  obtain ⟨out, ok, read⟩ := Ddl.tables_of_basic bare (Schema.basic_ofDocument h)
  refine ⟨out, ok, read.trans ?_⟩
  rw [Schema.entities_ofDocument, readTables]
  refine List.ext_getElem (by simp) fun i hi hj => ?_
  simp only [List.getElem_map, List.getElem_mapIdx, Ddl.readEntity, Schema.buildEntity_name]
  rw [Schema.columns_buildEntity doc.path _ i _ fun name => !Ddl.opensConstraint name]

/-- Leaving out columns keeps all names exactly if there is nothing to leave out. -/
lemma map_filter_eq_iff {α β : Type} {p : α → Bool} {view : α → β} (xs : List α) :
    (xs.filter p).map view = xs.map view ↔ ∀ x ∈ xs, p x = true := by
  constructor
  · intro h
    have length := congrArg List.length h
    rw [List.length_map, List.length_map, List.length_filter_eq_length_iff] at length
    exact length
  · intro h
    rw [List.filter_eq_self.2 h]

/-- The script of a basic document can be generated, and the declared tables are read back from it
exactly if no column has a name that opens with the word `EXCLUDE`. -/
theorem tables_eq_declaredTables_iff {doc : Document} (h : doc.isBasic = true) {opts : Ddl.Options}
    (bare : opts.overlay = Overlay.empty) :
    ∃ out, Ddl.generate opts (Schema.ofDocument doc).1 = .ok out ∧
      Script.tables (Text.bytes out.sql) = doc.readTables ∧
      (Script.tables (Text.bytes out.sql) = doc.declaredTables ↔
        ∀ node ∈ Schema.declaredEntities doc, ∀ f ∈ Schema.fieldLines doc.path node,
          f.cardinality ≠ .list → Ddl.opensConstraint f.name = false) := by
  obtain ⟨out, ok, read⟩ := tables_of_basic h bare
  refine ⟨out, ok, read, ?_⟩
  rw [read, readTables, declaredTables]
  constructor
  · intro same node hn f hf column
    have table := List.map_inj_left.1 same node hn
    rw [Script.Table.mk.injEq] at table
    have all := (map_filter_eq_iff _).1 table.2 f (List.mem_filter.2 ⟨hf, by simpa using column⟩)
    simpa using all
  · intro free
    refine List.map_congr_left fun node hn => ?_
    rw [Script.Table.mk.injEq]
    refine ⟨rfl, (map_filter_eq_iff _).2 fun f hf => ?_⟩
    obtain ⟨mem, column⟩ := List.mem_filter.1 hf
    simpa using free node hn f mem (by simpa using column)

/-- A field line without place. -/
def line (type : String) (args : List Literal) (cardinality : Cardinality) (name : String)
    (clauses : List Clause) : Field :=
  ⟨false, ⟨type, args, default⟩, cardinality, name, clauses.map (⟨·, default⟩), default⟩

/-- Two blocks and an enumeration, with names that are reserved or divided by points and slashes. -/
def roster : Document where
  path := "roster.erd"
  statements := [
    .enum ⟨"Rank", [⟨"LOW", default⟩, ⟨"HIGH", default⟩], default⟩,
    .entity ⟨"Team", default,
      [line "INT" [] .scalar "id" [.primaryKey],
        line "varchar" [⟨.number, "80", default⟩] .scalar "order"
          [.unique, .notNull, .default ⟨.string, "'a ''; b'", default⟩],
        line "app.Member" [] .list "members" []], [], [], default⟩,
    .entity ⟨"app.Member", default,
      [line "Team" [] .scalar "team" [.foreignKey none],
        line "Rank" [] .scalar "app.rank" [.default ⟨.null, "NULL", default⟩],
        line "TEXT" [] .set "tags/x" [.unique, .default ⟨.string, "\"\\\"", default⟩],
        line "NUMERIC" [⟨.number, "8", default⟩, ⟨.number, "2", default⟩] .scalar "check"
          [.default ⟨.number, "1.5", default⟩]],
      [⟨.primary ["team", "check"], default⟩, ⟨.unique ["team"], default⟩],
      [⟨.auditable, default⟩, ⟨.softDelete "check", default⟩], default⟩]

/-- Tables for SQLite under a banner, with guards. -/
def guarded : Ddl.Options := { dialect := .sqlite, ifNotExists := true, header := "roster" }

/-- The declared tables of the roster are read back. -/
theorem tables_eq_declaredTables_of_roster :
    roster.isBasic = true ∧ roster.declaredTables.map (·.columns.length) = [2, 4] ∧
      ∃ out, Ddl.generate guarded (Schema.ofDocument roster).1 = .ok out ∧
        Script.tables (Text.bytes out.sql) = roster.declaredTables := by
  have basic : roster.isBasic = true := by decide +kernel
  have free : ∀ node ∈ Schema.declaredEntities roster, ∀ f ∈ Schema.fieldLines roster.path node,
      f.cardinality ≠ .list → Ddl.opensConstraint f.name = false := by decide +kernel
  have columns : roster.declaredTables.map (·.columns.length) = [2, 4] := by decide +kernel
  have bare : guarded.overlay = Overlay.empty := rfl
  obtain ⟨out, ok, -, same⟩ := tables_eq_declaredTables_iff basic bare
  exact ⟨basic, columns, out, ok, same.2 free⟩

/-- An entity with a column of the name `exclude`. -/
def exclusion : Document :=
  (Compilation.read "exclusion.erd" (Text.bytes ":A\n  INT $.exclude PK\n  INT $.b\n")
    Plugin.Registry.empty).1

/-- A column of the name `exclude` is not read back. -/
theorem tables_ne_declaredTables :
    exclusion.isBasic = true ∧
      ∃ out, Ddl.generate {} (Schema.ofDocument exclusion).1 = .ok out ∧
        Script.tables (Text.bytes out.sql) ≠ exclusion.declaredTables := by
  have basic : exclusion.isBasic = true := by decide +kernel
  obtain ⟨out, ok, read⟩ := @tables_of_basic exclusion basic {} rfl
  refine ⟨basic, out, ok, ?_⟩
  rw [read]
  decide +kernel

end Document

end ErdSql
