import ErdSql.Check
import Mathlib

/-!
# Findings of the checks

Which codes each rule reports, so that a code tells which rule found something.

* `Check.mem_of_mem_run`: the codes of the rules.
* `Check.filter_run_unresolvedCode`: one rule reports the names of a kind that have no declaration.
* `Check.mem_primaryKeys_of_code`: only one rule warns about a missing key.
* `Check.reports_noPrimaryKey_iff`: it does so exactly for the entities that have none.
-/

namespace ErdSql.Check

open Schema

/-- Whether the checks of a schema report a code for a name. -/
def reports (s : Schema) (code name : String) : Bool :=
  (run s).any fun d => d.code == code && d.entity == name

variable {s : Schema} {d : Diagnostic}

/-- A finding of a rule for fields is about a field. -/
lemma mem_perField {rule : Entity → Field → List Diagnostic} :
    d ∈ perField s rule ↔ ∃ e ∈ s.entities, ∃ f ∈ e.fields, d ∈ rule e f := by
  simp only [perField, List.mem_flatMap]

/-! ### Codes of the rules -/

lemma code_of_mem_unresolvedNames {kind : ReferenceKind} {code : String}
    {message : Unresolved → String} (h : d ∈ unresolvedNames s kind code message) : d.code = code := by
  obtain ⟨u, -, rfl⟩ := List.mem_map.1 h
  rfl

/-- The rule about foreign keys reports unbound targets, and warns about keys of several columns. -/
lemma foreignKeys_eq (s : Schema) : ∃ message warnings,
    foreignKeys s = unresolvedNames s .foreignKey Diagnostic.unresolvedForeignKey message ++ warnings ∧
      ∀ d ∈ warnings, d.code = Diagnostic.compositeForeignKey := by
  refine ⟨_, _, rfl, fun d h => ?_⟩
  obtain ⟨e, -, f, -, h⟩ := mem_perField.1 h
  split at h
  · cases h
  · split at h
    · cases h
    · split at h
      · cases List.mem_singleton.1 h
        rfl
      · cases h

lemma code_of_mem_foreignKeys (h : d ∈ foreignKeys s) :
    d.code = Diagnostic.unresolvedForeignKey ∨ d.code = Diagnostic.compositeForeignKey := by
  obtain ⟨message, warnings, eq, composite⟩ := foreignKeys_eq s
  rw [eq] at h
  exact (List.mem_append.1 h).imp code_of_mem_unresolvedNames (composite d)

lemma code_of_mem_keyColumns (h : d ∈ keyColumns s) :
    d.code = Diagnostic.badKeyColumns ∨ d.code = Diagnostic.badFeatureColumn := by
  obtain ⟨e, -, h⟩ := List.mem_flatMap.1 h
  rcases List.mem_append.1 h with h | h
  · obtain ⟨c, -, h⟩ := List.mem_flatMap.1 h
    left
    split at h
    · cases h
    · split at h
      · cases List.mem_singleton.1 h
        rfl
      · obtain ⟨column, -, rfl⟩ := List.mem_map.1 h
        rfl
  · obtain ⟨feature, -, h⟩ := List.mem_flatMap.1 h
    right
    dsimp only at h
    split at h
    · cases List.mem_singleton.1 h
      rfl
    · obtain ⟨column, -, rfl⟩ := List.mem_map.1 h
      rfl

/-- The rule about types reports unbound names, and labels that repeat. -/
lemma typeReferences_eq (s : Schema) : ∃ message repeated,
    typeReferences s = unresolvedNames s .type Diagnostic.unresolvedType message ++ repeated ∧
      ∀ d ∈ repeated, d.code = Diagnostic.duplicateVariant := by
  refine ⟨_, _, rfl, fun d h => ?_⟩
  obtain ⟨e, -, h⟩ := List.mem_flatMap.1 h
  obtain ⟨v, -, rfl⟩ := List.mem_map.1 h
  rfl

lemma code_of_mem_typeReferences (h : d ∈ typeReferences s) :
    d.code = Diagnostic.unresolvedType ∨ d.code = Diagnostic.duplicateVariant := by
  obtain ⟨message, repeated, eq, labels⟩ := typeReferences_eq s
  rw [eq] at h
  exact (List.mem_append.1 h).imp code_of_mem_unresolvedNames (labels d)

lemma code_of_mem_duplicateConstraints (h : d ∈ duplicateConstraints s) :
    d.code = Diagnostic.duplicateConstraint := by
  obtain ⟨e, -, f, -, h⟩ := mem_perField.1 h
  obtain ⟨kind, -, h⟩ := List.mem_flatMap.1 h
  split at h
  · cases List.mem_singleton.1 h
    rfl
  · cases h

lemma code_of_mem_unbalanced {span : Span} {expr : String} (h : d ∈ unbalanced s span expr) :
    d.code = Diagnostic.unbalancedCheck := by
  unfold unbalanced at h
  split at h
  · cases h
  · cases List.mem_singleton.1 h
    rfl

lemma code_of_mem_expressions (h : d ∈ expressions s) : d.code = Diagnostic.unbalancedCheck := by
  obtain ⟨e, -, h⟩ := List.mem_flatMap.1 h
  rcases List.mem_append.1 h with h | h
  · rcases List.mem_append.1 h with h | h
    · obtain ⟨f, -, h⟩ := List.mem_flatMap.1 h
      obtain ⟨c, -, h⟩ := List.mem_flatMap.1 h
      split at h
      · obtain ⟨d, hd, rfl⟩ := List.mem_map.1 h
        exact (code_of_mem_unbalanced hd :)
      · cases h
    · obtain ⟨c, -, h⟩ := List.mem_flatMap.1 h
      split at h
      · obtain ⟨d, hd, rfl⟩ := List.mem_map.1 h
        exact (code_of_mem_unbalanced hd :)
      · cases h
  · obtain ⟨p, -, h⟩ := List.mem_flatMap.1 h
    obtain ⟨expr, -, h⟩ := List.mem_flatMap.1 h
    obtain ⟨d, hd, rfl⟩ := List.mem_map.1 h
    exact (code_of_mem_unbalanced hd :)

lemma code_of_mem_defaults (h : d ∈ defaults s) : d.code = Diagnostic.defaultMismatch := by
  obtain ⟨e, -, f, -, h⟩ := mem_perField.1 h
  obtain ⟨c, -, h⟩ := List.mem_flatMap.1 h
  split at h
  · split at h
    · cases List.mem_singleton.1 h
      rfl
    · cases h
  · cases h

lemma code_of_mem_mapFields (h : d ∈ mapFields s) : d.code = Diagnostic.mapUnsupported := by
  obtain ⟨e, -, f, -, h⟩ := mem_perField.1 h
  split at h
  · cases List.mem_singleton.1 h
    rfl
  · cases h

/-- The findings of every rule have codes of their own. -/
lemma mem_of_mem_run (h : d ∈ run s) : d ∈ primaryKeys s ∨ d ∈ expressions s ∨
    d.code ∈ [Diagnostic.unresolvedForeignKey, Diagnostic.compositeForeignKey, Diagnostic.badKeyColumns,
      Diagnostic.badFeatureColumn, Diagnostic.unresolvedType, Diagnostic.duplicateVariant,
      Diagnostic.duplicateConstraint, Diagnostic.defaultMismatch, Diagnostic.mapUnsupported] := by
  simp only [run, List.mem_append] at h
  simp only [List.mem_cons, List.not_mem_nil, or_false]
  rcases h with ((((((h | h) | h) | h) | h) | h) | h) | h
  · exact .inl h
  · have := code_of_mem_foreignKeys h
    tauto
  · have := code_of_mem_keyColumns h
    tauto
  · have := code_of_mem_typeReferences h
    tauto
  · have := code_of_mem_duplicateConstraints h
    tauto
  · exact .inr (.inl h)
  · have := code_of_mem_defaults h
    tauto
  · have := code_of_mem_mapFields h
    tauto

lemma code_of_mem_primaryKeys (h : d ∈ primaryKeys s) :
    d.code = Diagnostic.noPrimaryKey ∨ d.code = Diagnostic.multiplePrimaryKeys := by
  obtain ⟨e, -, h⟩ := List.mem_flatMap.1 h
  split at h
  · cases List.mem_singleton.1 h
    exact .inl rfl
  · cases h
  · cases List.mem_singleton.1 h
    exact .inr rfl

/-- Only the rule about expressions reports that one is not balanced. -/
lemma mem_expressions_of_code (h : d ∈ run s) (code : d.code = Diagnostic.unbalancedCheck) :
    d ∈ expressions s := by
  rcases mem_of_mem_run h with h | h | h
  · rcases code_of_mem_primaryKeys h with other | other
    · exact absurd (other.symm.trans code) (by decide)
    · exact absurd (other.symm.trans code) (by decide)
  · exact h
  · rw [code] at h
    exact absurd h (by decide)

/-! ### Names without declaration -/

/-- The code under which names without declaration are reported. -/
def unresolvedCode : ReferenceKind → String
  | .foreignKey => Diagnostic.unresolvedForeignKey
  | .type => Diagnostic.unresolvedType

/-- A rule whose findings have other codes gives nothing under a code. -/
lemma filter_code_eq_nil {code : String} (ds : List Diagnostic) (codes : List String)
    (other : code ∉ codes) (found : ∀ d ∈ ds, d.code ∈ codes) :
    ds.filter (fun d => d.code == code) = [] := by
  rw [List.filter_eq_nil_iff]
  intro d hd same
  rw [← beq_iff_eq.1 same] at other
  exact other (found d hd)

/-- Names without declaration are reported by one rule and no other. -/
lemma filter_run_unresolvedCode (s : Schema) (kind : ReferenceKind) : ∃ message,
    (run s).filter (fun d => d.code == unresolvedCode kind) =
      unresolvedNames s kind (unresolvedCode kind) message := by
  have drop := @filter_code_eq_nil (unresolvedCode kind)
  have keep (message : Unresolved → String) :
      (unresolvedNames s kind (unresolvedCode kind) message).filter
          (fun d => d.code == unresolvedCode kind) =
        unresolvedNames s kind (unresolvedCode kind) message := by
    rw [List.filter_eq_self]
    intro d hd
    simpa using code_of_mem_unresolvedNames hd
  have primary := drop (primaryKeys s) [Diagnostic.noPrimaryKey, Diagnostic.multiplePrimaryKeys]
    (by cases kind <;> decide) fun d hd => by simpa using code_of_mem_primaryKeys hd
  have columns := drop (keyColumns s) [Diagnostic.badKeyColumns, Diagnostic.badFeatureColumn]
    (by cases kind <;> decide) fun d hd => by simpa using code_of_mem_keyColumns hd
  have repeated := drop (duplicateConstraints s) [Diagnostic.duplicateConstraint]
    (by cases kind <;> decide) fun d hd => by simpa using code_of_mem_duplicateConstraints hd
  have unbalanced := drop (expressions s) [Diagnostic.unbalancedCheck]
    (by cases kind <;> decide) fun d hd => by simpa using code_of_mem_expressions hd
  have mismatched := drop (defaults s) [Diagnostic.defaultMismatch]
    (by cases kind <;> decide) fun d hd => by simpa using code_of_mem_defaults hd
  have maps := drop (mapFields s) [Diagnostic.mapUnsupported]
    (by cases kind <;> decide) fun d hd => by simpa using code_of_mem_mapFields hd
  simp only [run, List.filter_append, primary, columns, repeated, unbalanced, mismatched, maps,
    List.nil_append, List.append_nil]
  cases kind with
  | foreignKey =>
    obtain ⟨message, warnings, eq, composite⟩ := foreignKeys_eq s
    have types := drop (typeReferences s) [Diagnostic.unresolvedType, Diagnostic.duplicateVariant]
      (by decide) fun d hd => by simpa using code_of_mem_typeReferences hd
    have rest := drop warnings [Diagnostic.compositeForeignKey] (by decide)
      fun d hd => by simpa using composite d hd
    refine ⟨message, ?_⟩
    rw [types, eq, List.filter_append, rest, List.append_nil, List.append_nil]
    exact keep message
  | type =>
    obtain ⟨message, labels, eq, duplicate⟩ := typeReferences_eq s
    have keys := drop (foreignKeys s)
      [Diagnostic.unresolvedForeignKey, Diagnostic.compositeForeignKey]
      (by decide) fun d hd => by simpa using code_of_mem_foreignKeys hd
    have rest := drop labels [Diagnostic.duplicateVariant] (by decide)
      fun d hd => by simpa using duplicate d hd
    refine ⟨message, ?_⟩
    rw [keys, eq, List.filter_append, rest, List.nil_append, List.append_nil]
    exact keep message

/-! ### Defaults -/

/-- Defaults are reported by one rule and no other. -/
lemma filter_run_defaultMismatch (s : Schema) :
    (run s).filter (fun d => d.code == Diagnostic.defaultMismatch) = defaults s := by
  have drop := @filter_code_eq_nil Diagnostic.defaultMismatch
  have primary := drop (primaryKeys s) [Diagnostic.noPrimaryKey, Diagnostic.multiplePrimaryKeys]
    (by decide) fun d hd => by simpa using code_of_mem_primaryKeys hd
  have keys := drop (foreignKeys s) [Diagnostic.unresolvedForeignKey, Diagnostic.compositeForeignKey]
    (by decide) fun d hd => by simpa using code_of_mem_foreignKeys hd
  have columns := drop (keyColumns s) [Diagnostic.badKeyColumns, Diagnostic.badFeatureColumn]
    (by decide) fun d hd => by simpa using code_of_mem_keyColumns hd
  have types := drop (typeReferences s) [Diagnostic.unresolvedType, Diagnostic.duplicateVariant]
    (by decide) fun d hd => by simpa using code_of_mem_typeReferences hd
  have repeated := drop (duplicateConstraints s) [Diagnostic.duplicateConstraint]
    (by decide) fun d hd => by simpa using code_of_mem_duplicateConstraints hd
  have unbalanced := drop (expressions s) [Diagnostic.unbalancedCheck]
    (by decide) fun d hd => by simpa using code_of_mem_expressions hd
  have maps := drop (mapFields s) [Diagnostic.mapUnsupported]
    (by decide) fun d hd => by simpa using code_of_mem_mapFields hd
  have mismatched : (defaults s).filter (fun d => d.code == Diagnostic.defaultMismatch) = defaults s := by
    apply List.filter_eq_self.2
    intro d hd
    simpa using code_of_mem_defaults hd
  simp only [run, List.filter_append, primary, keys, columns, types, repeated, unbalanced, maps,
    mismatched, List.nil_append, List.append_nil]

/-! ### Missing keys -/

/-- Only the rule about keys warns about a missing one. -/
lemma mem_primaryKeys_of_code (h : d ∈ run s) (code : d.code = Diagnostic.noPrimaryKey) :
    d ∈ primaryKeys s := by
  rcases mem_of_mem_run h with h | h | h
  · exact h
  · exact absurd ((code_of_mem_expressions h).symm.trans code) (by decide)
  · rw [code] at h
    exact absurd h (by decide)

/-- A missing key is reported exactly for the entities without one. -/
lemma reports_noPrimaryKey_iff (nodup : (s.entities.map (·.name)).Nodup) {e : Entity}
    (he : e ∈ s.entities) :
    reports s Diagnostic.noPrimaryKey e.name = true ↔ primaryKeyCount e = 0 := by
  rw [reports, List.any_eq_true]
  constructor
  · rintro ⟨d, hd, found⟩
    obtain ⟨code, name⟩ : d.code = Diagnostic.noPrimaryKey ∧ d.entity = e.name := by
      simpa using found
    obtain ⟨e', he', h⟩ := List.mem_flatMap.1 (mem_primaryKeys_of_code hd code)
    split at h
    · next none =>
      cases List.mem_singleton.1 h
      rwa [← List.inj_on_of_nodup_map nodup he' he name]
    · cases h
    · cases List.mem_singleton.1 h
      exact absurd code (show Diagnostic.multiplePrimaryKeys ≠ Diagnostic.noPrimaryKey by decide)
  · intro none
    refine ⟨(caution s Diagnostic.noPrimaryKey ("entity " ++ e.name ++ " has no primary key") e.span)
      |>.inEntity e.name, ?_, by simp [Diagnostic.inEntity, caution, Diagnostic.make]⟩
    simp only [run, List.append_assoc]
    refine List.mem_append_left _ (List.mem_flatMap.2 ⟨e, he, ?_⟩)
    rw [none]
    exact List.mem_singleton_self _

end ErdSql.Check
