import ErdSql.Compilation
import ErdSql.Proofs.Encoding
import ErdSql.Proofs.Resolution

/-!
# Accepted documents

A compilation without error diagnostics has a script, and its schema keeps every rule that is reported
as an error.

* `Compilation.exists_output_of_valid`: there is a script, generated from the schema of the document.
* `Compilation.ofDocument_snd_eq_nil`: building the schema reported nothing.
* `Check.primaryKeyCount_le_one`, `Check.unresolved_eq_nil`, `Check.count_le_one`,
  `Check.columns_of_mem_constraints`, `Check.columns_of_mem_columnFeatures`: one key, no unbound name,
  no constraint twice, and keys and features that name columns.
-/

namespace ErdSql

namespace Diagnostic

/-- A list has no errors when its parts have none. -/
lemma hasErrors_append_eq_false {as bs : List Diagnostic} :
    hasErrors (as ++ bs) = false ↔ hasErrors as = false ∧ hasErrors bs = false := by
  rw [hasErrors, List.any_append, Bool.or_eq_false_iff]
  rfl

/-- No member of a list without errors is an error. -/
lemma isError_eq_false_of_mem {ds : List Diagnostic} (h : hasErrors ds = false) {d : Diagnostic}
    (hd : d ∈ ds) : d.isError = false := by
  have none := List.any_eq_false.1 h d hd
  simpa using none

/-- A list of errors without errors is empty. -/
lemma eq_nil_of_hasErrors_eq_false {ds : List Diagnostic} (h : hasErrors ds = false)
    (all : ∀ d ∈ ds, d.isError = true) : ds = [] := by
  rw [List.eq_nil_iff_forall_not_mem]
  intro d hd
  have := isError_eq_false_of_mem h hd
  rw [all d hd] at this
  cases this

end Diagnostic

open Diagnostic

namespace Check

open Schema

variable {s : Schema}

/-- The rules that a schema without errors keeps. -/
lemma rules_of_hasErrors_eq_false (h : hasErrors (run s) = false) :
    hasErrors (primaryKeys s) = false ∧ hasErrors (foreignKeys s) = false ∧
      hasErrors (keyColumns s) = false ∧ hasErrors (typeReferences s) = false ∧
      hasErrors (duplicateConstraints s) = false := by
  simp only [run, hasErrors_append_eq_false] at h
  obtain ⟨⟨⟨⟨⟨⟨⟨keys, foreign⟩, columns⟩, types⟩, duplicates⟩, -⟩, -⟩, -⟩ := h
  exact ⟨keys, foreign, columns, types, duplicates⟩

/-- An entity has at most one primary key. -/
lemma primaryKeyCount_le_one (h : hasErrors (run s) = false) {e : Entity} (he : e ∈ s.entities) :
    primaryKeyCount e ≤ 1 := by
  obtain ⟨keys, -⟩ := rules_of_hasErrors_eq_false h
  by_contra more
  obtain ⟨n, hn⟩ : ∃ n, primaryKeyCount e = n + 2 := ⟨primaryKeyCount e - 2, by omega⟩
  have findings := fun d hd => isError_eq_false_of_mem keys
    (List.mem_flatMap.2 ⟨e, he, hd⟩ : d ∈ primaryKeys s)
  rw [hn] at findings
  exact Bool.noConfusion (findings _ (List.mem_singleton_self _))

/-- Every finding about unbound names is an error. -/
lemma not_mem_unresolved {kind : ReferenceKind} {code : String} {message : Unresolved → String}
    (h : hasErrors (unresolvedNames s kind code message) = false) {u : Unresolved}
    (hu : u ∈ s.unresolved) : u.kind ≠ kind := by
  intro hk
  have listed : u ∈ s.unresolved.filter (·.kind == kind) := List.mem_filter.2 ⟨hu, by simp [hk]⟩
  exact Bool.noConfusion (isError_eq_false_of_mem h (List.mem_map_of_mem listed))

/-- No name is left unbound. -/
lemma unresolved_eq_nil (h : hasErrors (run s) = false) : s.unresolved = [] := by
  obtain ⟨-, foreign, -, types, -⟩ := rules_of_hasErrors_eq_false h
  rw [List.eq_nil_iff_forall_not_mem]
  intro u hu
  have notKey := not_mem_unresolved (hasErrors_append_eq_false.1 foreign).1 hu
  have notType := not_mem_unresolved (hasErrors_append_eq_false.1 types).1 hu
  cases hk : u.kind with
  | foreignKey => exact notKey hk
  | type => exact notType hk

/-- A field carries each kind of constraint at most once. -/
lemma count_le_one (h : hasErrors (run s) = false) {e : Entity} (he : e ∈ s.entities) {f : Field}
    (hf : f ∈ e.fields) {kind : ConstraintKind} (hk : kind ∈ fieldKinds) : f.count kind ≤ 1 := by
  obtain ⟨-, -, -, -, duplicates⟩ := rules_of_hasErrors_eq_false h
  have findings := fun d hd => isError_eq_false_of_mem duplicates (List.mem_flatMap.2
    ⟨e, he, List.mem_flatMap.2 ⟨f, hf, List.mem_flatMap.2 ⟨kind, hk, hd⟩⟩⟩ :
      d ∈ duplicateConstraints s)
  rw [Field.count, List.countP_eq_length_filter]
  generalize f.constraints.filter (fun c => c.clause.kind == kind) = found at findings
  match found with
  | [] => simp
  | [_] => simp
  | _ :: _ :: _ => exact Bool.noConfusion (findings _ (List.mem_singleton_self _))

/-- A list of columns is sound if the rule that goes through it finds no error. -/
lemma columns_of_findings {e : Entity} {columns : List String} {found : List Diagnostic}
    {empty : Diagnostic} {unknown : String → Diagnostic} (clean : ∀ d ∈ found, d.isError = false)
    (eq : found = if columns.isEmpty then [empty]
      else (columns.filter fun column => !e.hasColumn column).map unknown)
    (isError : empty.isError = true) (areErrors : ∀ column, (unknown column).isError = true) :
    columns ≠ [] ∧ ∀ column ∈ columns, e.hasColumn column = true := by
  subst eq
  constructor
  · rintro rfl
    have := clean empty (List.mem_singleton_self _)
    rw [isError] at this
    cases this
  · intro column hc
    by_contra absent
    rw [if_neg (by simpa using List.ne_nil_of_mem hc)] at clean
    have := clean _ (List.mem_map_of_mem (List.mem_filter.2 ⟨hc, by simpa using absent⟩))
    rw [areErrors] at this
    cases this

section Columns
variable (h : hasErrors (run s) = false) {e : Entity} (he : e ∈ s.entities)
include h he

/-- The rules about columns find no error in an entity. -/
lemma clean_of_mem_columns {d : Diagnostic} (hd : d ∈ entityKeyColumns s e ++ featureColumns s e) :
    d.isError = false := by
  obtain ⟨-, -, columns, -⟩ := rules_of_hasErrors_eq_false h
  exact isError_eq_false_of_mem columns (List.mem_flatMap.2 ⟨e, he, hd⟩)

/-- A key of an entity lists at least one column, and columns only. -/
lemma columns_of_mem_constraints {c : EntityConstraint} (hc : c ∈ e.constraints)
    (hk : c.clause.kind ≠ .check) :
    c.clause.columns ≠ [] ∧ ∀ column ∈ c.clause.columns, e.hasColumn column = true := by
  have clean := fun d hd => clean_of_mem_columns h he (List.mem_append_left _
    (List.mem_flatMap.2 ⟨c, hc, hd⟩ : d ∈ entityKeyColumns s e))
  exact columns_of_findings clean (if_neg (by simpa using hk)) rfl fun _ => rfl

/-- A feature of an entity names at least one column, and columns only. -/
lemma columns_of_mem_columnFeatures {feature : String × List String × Span}
    (hf : feature ∈ columnFeatures e) :
    feature.2.1 ≠ [] ∧ ∀ column ∈ feature.2.1, e.hasColumn column = true := by
  have clean := fun d hd => clean_of_mem_columns h he (List.mem_append_right _
    (List.mem_flatMap.2 ⟨feature, hf, hd⟩ : d ∈ featureColumns s e))
  exact columns_of_findings clean rfl rfl fun _ => rfl

end Columns

end Check

namespace Compilation

variable {path : String} {src : List UInt8} {o : CompileOptions}

/-- The document that a compilation reads. -/
def document (path : String) (src : List UInt8) (o : CompileOptions) : Document :=
  (read path src o.plugins).1

/-- What is read from the bytes of a text. -/
lemma read_bytes (path s : String) (plugins : Plugin.Registry) :
    read path (Text.bytes s) plugins =
      let scan := Scan.ofChars s.toList
      let document := Document.ofTokens path s.toList plugins scan.tokens
      (document.1, scan.errors, document.2) := by
  rw [read, Scan.ofBytes, Text.decode?_bytes]
  rfl

/-- A compilation generates the script of the analysed schema. -/
lemma run_eq : run path src o =
    match Ddl.generate (generateOptions o) (analyse path src o).1 with
    | .ok output => ⟨path, (analyse path src o).1, some output, (analyse path src o).2⟩
    | .error e => ⟨path, (analyse path src o).1, none,
      (analyse path src o).2 ++ [generateDiagnostic path e]⟩ := rfl

/-- The schema of a compilation is that of its document. -/
@[simp]
lemma run_schema : (run path src o).schema = (Schema.ofDocument (document path src o)).1 := by
  rw [run_eq]
  split <;> rfl

/-- The diagnostics of a compilation start with the findings about the document. -/
lemma analyse_initial : (analyse path src o).2 <+: (run path src o).diagnostics := by
  rw [run_eq]
  split
  · exact List.prefix_refl _
  · exact List.prefix_append _ _

/-- The findings about an accepted document hold no error. -/
lemma analyse_of_valid (h : (run path src o).valid = true) :
    hasErrors (analyse path src o).2 = false := by
  rw [valid, Bool.not_eq_true'] at h
  rw [hasErrors, List.any_eq_false]
  intro d hd
  rw [isError_eq_false_of_mem h (analyse_initial.subset hd)]
  decide

/-- Building the schema of an accepted document reports nothing. -/
lemma ofDocument_snd_eq_nil (h : (run path src o).valid = true) :
    (Schema.ofDocument (document path src o)).2 = [] := by
  have none := analyse_of_valid h
  simp only [analyse, hasErrors_append_eq_false] at none
  obtain ⟨⟨⟨⟨-, built⟩, -⟩, -⟩, -⟩ := none
  exact eq_nil_of_hasErrors_eq_false built fun d hd => Schema.isError_of_mem_ofDocument hd

/-- The schema of an accepted document keeps the rules. -/
lemma check_of_valid (h : (run path src o).valid = true) :
    hasErrors (Check.run (run path src o).schema) = false := by
  have none := analyse_of_valid h
  simp only [analyse, hasErrors_append_eq_false] at none
  obtain ⟨⟨⟨-, checked⟩, -⟩, -⟩ := none
  rw [run_schema]
  exact checked

/-- An accepted document has a script. -/
lemma exists_output_of_valid (h : (run path src o).valid = true) :
    ∃ out, (run path src o).output = some out ∧
      Ddl.generate (generateOptions o) (run path src o).schema = .ok out := by
  rw [valid, Bool.not_eq_true'] at h
  rw [run_schema]
  cases generated : Ddl.generate (generateOptions o) (analyse path src o).1 with
  | ok out => exact ⟨out, by rw [run_eq, generated], generated⟩
  | error e =>
    have failed : generateDiagnostic path e ∈ (run path src o).diagnostics := by
      rw [run_eq, generated]
      exact List.mem_append_right _ (List.mem_singleton_self _)
    exact absurd (isError_eq_false_of_mem h failed) (by simp [generateDiagnostic, isError, make])

end Compilation

end ErdSql
