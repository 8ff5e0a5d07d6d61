import ErdSql.Proofs.Encoding
import ErdSql.Proofs.Expressions
import ErdSql.Proofs.NameTables
import ErdSql.Proofs.Statements
import ErdSql.Proofs.Totality
import ErdSql.Proofs.TokenRanges

/-!
# Statement keys

The key of a statement is a word for what the statement defines, a colon and a label. The labels of
tables are the names of entities, those of full-text indexes, views of live rows, audit triggers,
triggers for distinct elements and foreign keys are names that the generator makes, and the others come
from the document. Only the last can collide: nothing keeps the names of extensions, policies, indexes,
views and triggers apart, neither from each other nor from the made names of the same word.

* `Ddl.Statement.nodup_keys_iff`: keys are different if labels are, within a kind and between the kinds
  of one word.
* `Compilation.keys_nodup_iff`: the keys of a script are different exactly if the names are apart.
-/

namespace ErdSql

namespace Ddl

/-! ### Keys -/

/-- The word that the keys of a kind start with. -/
def Kind.keyWord : Kind → String
  | extension => "extension"
  | enum => "type"
  | table => "table"
  | partition => "partition"
  | ttl => "ttl"
  | fullText => "index"
  | rowSecurity => "rls"
  | policy => "policy"
  | audit => "trigger"
  | softDelete => "view"
  | migration => "migration"
  | foreignKey => "constraint"
  | index => "index"
  | view => "view"
  | trigger => "trigger"
  | plugin => "block"
  | distinctElements => "trigger"

lemma Kind.mem_all (k : Kind) : k ∈ all := by
  cases k <;> decide

lemma Kind.colon_notMem_keyWord (k : Kind) : ':' ∉ k.keyWord.toList := by
  cases k <;> decide

namespace Statement

/-- What the key of a statement has behind its word. -/
def label : Statement → String
  | extension name => name
  | enum name _ => name
  | table t => t.name
  | partition owner _ => owner
  | expiry owner _ _ => owner
  | search _ name _ _ _ => name
  | security owner mode => owner ++ (if mode == .force then ":force" else "")
  | policy owner p => owner ++ "." ++ p.name
  | audit name _ _ => name
  | distinctElements name _ _ => name
  | softDelete name _ _ => name
  | migration owner _ => owner
  | foreignKey k => k.name
  | index _ i => i.name
  | view _ v => v.name
  | trigger t => t.name
  | plugin keyword ordinal _ => keyword ++ ":" ++ toString ordinal

/-- A key is a word, a colon and a label. -/
lemma key_eq (st : Statement) : st.key = st.kind.keyWord ++ ":" ++ st.label := by
  cases st <;> simp [key, kind, Kind.keyWord, label, String.append_assoc]

end Statement

namespace Statement

lemma key_eq_key_iff {st st' : Statement} :
    st.key = st'.key ↔ st.kind.keyWord = st'.kind.keyWord ∧ st.label = st'.label := by
  constructor
  · intro same
    rw [key_eq, key_eq, ← String.toList_inj] at same
    simp only [String.toList_append, List.append_assoc] at same
    obtain ⟨word, label⟩ := Text.append_cons_inj st.kind.colon_notMem_keyWord
      st'.kind.colon_notMem_keyWord same
    exact ⟨String.toList_inj.1 word, String.toList_inj.1 label⟩
  · rintro ⟨word, label⟩
    rw [key_eq, key_eq, word, label]

end Statement

/-- The label of a block determines its number. -/
lemma plugin_label_inj {keyword keyword' sql sql' : String} {ordinal ordinal' : Nat}
    (same : (Statement.plugin keyword ordinal sql).label =
      (Statement.plugin keyword' ordinal' sql').label) : keyword = keyword' ∧ ordinal = ordinal' := by
  have digits (n : Nat) : ':' ∉ (toString n).toList.reverse := by
    rw [List.mem_reverse]
    exact Text.notMem_toString (by decide) n
  have reversed := congrArg List.reverse (String.toList_inj.2 same)
  simp only [Statement.label, String.toList_append, List.reverse_append] at reversed
  obtain ⟨ordinals, keywords⟩ := Text.append_cons_inj (digits ordinal) (digits ordinal') reversed
  exact ⟨String.toList_inj.1 (List.reverse_inj.1 keywords),
    Nat.repr_inj.1 (String.toList_inj.1 (List.reverse_inj.1 ordinals))⟩

/-- Whether the labels of a kind are names that the generator makes. -/
def Kind.isMade : Kind → Bool
  | fullText | audit | distinctElements | softDelete | foreignKey => true
  | _ => false

/-- A word stands for one kind only, the made names aside. -/
lemma Kind.eq_of_keyWord {k k' : Kind} (h : k.isMade = false) (h' : k'.isMade = false)
    (word : k.keyWord = k'.keyWord) : k = k' := by
  have table : ∀ k ∈ all, ∀ k' ∈ all, k.isMade = false → k'.isMade = false →
      k.keyWord = k'.keyWord → k = k' := by decide
  exact table k k.mem_all k' k'.mem_all h h' word

/-- The kinds of made names that share their word with another one. -/
lemma Kind.of_keyWord_eq {k k' : Kind} (h : k.isMade = true) (h' : k'.isMade = false)
    (word : k.keyWord = k'.keyWord) : k = fullText ∧ k' = index ∨ k = softDelete ∧ k' = view ∨
      k = audit ∧ k' = trigger ∨ k = distinctElements ∧ k' = trigger := by
  have table : ∀ k ∈ all, ∀ k' ∈ all, k.isMade = true → k'.isMade = false →
      k.keyWord = k'.keyWord → k = fullText ∧ k' = index ∨ k = softDelete ∧ k' = view ∨
        k = audit ∧ k' = trigger ∨ k = distinctElements ∧ k' = trigger := by decide
  exact table k k.mem_all k' k'.mem_all h h' word

/-- The labels of a kind in a list of statements. -/
def labels (k : Kind) (sts : List Statement) : List String :=
  (sts.filter fun st => st.kind == k).map (·.label)

/-- The made name of a statement, if it has one. -/
def Statement.made (st : Statement) : List String :=
  if st.kind.isMade then [st.label] else []

section Labels
variable {k : Kind} {sts sts' : List Statement}

lemma mem_labels {name : String} : name ∈ labels k sts ↔ ∃ st ∈ sts, st.kind = k ∧ st.label = name := by
  simp [labels, and_assoc]

@[simp]
lemma labels_nil : labels k [] = [] := rfl

lemma labels_append (k : Kind) (sts sts' : List Statement) :
    labels k (sts ++ sts') = labels k sts ++ labels k sts' := by
  rw [labels, List.filter_append, List.map_append]
  rfl

lemma labels_flatten (k : Kind) (groups : List (List Statement)) :
    labels k groups.flatten = (groups.map (labels k)).flatten := by
  rw [labels, List.filter_flatten, List.map_flatten, List.map_map]
  rfl

lemma labels_perm (h : sts.Perm sts') : (labels k sts).Perm (labels k sts') :=
  (h.filter _).map _

lemma labels_eq_map (h : ∀ st ∈ sts, st.kind = k) : labels k sts = sts.map (·.label) := by
  rw [labels, List.filter_eq_self.2 fun st hst => beq_iff_eq.2 (h st hst)]

lemma labels_eq_nil (h : ∀ st ∈ sts, st.kind ≠ k) : labels k sts = [] := by
  rw [labels, List.filter_eq_nil_iff.2 fun st hst => by simpa using h st hst, List.map_nil]

/-- The labels of statements of one kind. -/
lemma labels_eq_ite {j : Kind} (h : ∀ st ∈ sts, st.kind = j) :
    labels k sts = if j = k then sts.map (·.label) else [] := by
  split
  · next same => exact labels_eq_map (same ▸ h)
  · next differ => exact labels_eq_nil fun st hst same => differ ((h st hst).symm.trans same)

lemma flatMap_made (sts : List Statement) :
    sts.flatMap (·.made) = (sts.filter (·.kind.isMade)).map (·.label) := by
  induction sts with
  | nil => rfl
  | cons st sts ih =>
    rw [List.flatMap_cons, ih, List.filter_cons, Statement.made]
    split <;> rfl

/-- Where made names differ, keys differ exactly if the other labels of each kind do and none of them is
a made name of the same word. -/
lemma nodup_keys_iff (made : (sts.flatMap (·.made)).Nodup) :
    (sts.map (·.key)).Nodup ↔ ∀ k : Kind, k.isMade = false → (labels k sts).Nodup ∧
      ∀ st ∈ sts, st.kind.isMade = true → st.kind.keyWord = k.keyWord → st.label ∉ labels k sts := by
  constructor
  · intro nodup k own
    constructor
    · rw [List.Nodup, List.pairwise_map] at nodup
      rw [labels, List.Nodup, List.pairwise_map]
      refine (nodup.filter _).imp_of_mem fun {st st'} hst hst' differ same => differ ?_
      have kind := (List.mem_filter.1 hst).2
      have kind' := (List.mem_filter.1 hst').2
      rw [beq_iff_eq] at kind kind'
      exact Statement.key_eq_key_iff.2 ⟨by rw [kind, kind'], same⟩
    · intro st hst isMade word mem
      obtain ⟨st', hst', kind, label⟩ := mem_labels.1 mem
      obtain rfl : st = st' := List.inj_on_of_nodup_map nodup hst hst'
        (Statement.key_eq_key_iff.2 ⟨by rw [word, kind], label.symm⟩)
      rw [kind, own] at isMade
      cases isMade
  · intro apart
    rw [List.Nodup, List.pairwise_map, List.pairwise_iff_getElem]
    intro i j hi hj lt same
    obtain ⟨word, label⟩ := Statement.key_eq_key_iff.1 same
    have later {p : Statement → Bool} (nodup : ((sts.filter p).map (·.label)).Nodup) (h : p sts[i] = true)
        (h' : p sts[j] = true) : False := by
      rw [List.Nodup, List.pairwise_map, List.pairwise_filter, List.pairwise_iff_getElem] at nodup
      exact nodup i j hi hj lt h h' label
    cases first : sts[i].kind.isMade with
    | true =>
      cases second : sts[j].kind.isMade with
      | true => exact later (flatMap_made sts ▸ made) first second
      | false =>
        refine (apart _ second).2 _ (List.getElem_mem hi) first word ?_
        exact mem_labels.2 ⟨_, List.getElem_mem hj, rfl, label.symm⟩
    | false =>
      cases second : sts[j].kind.isMade with
      | true =>
        refine (apart _ first).2 _ (List.getElem_mem hj) second word.symm ?_
        exact mem_labels.2 ⟨_, List.getElem_mem hi, rfl, label⟩
      | false =>
        have kind := Kind.eq_of_keyWord first second word
        exact later (apart _ first).1 (beq_self_eq_true _) (beq_iff_eq.2 kind.symm)

end Labels

/-! ### Entities -/

open Schema

section Entities
variable (opts : Options) (s : Schema) (keys : List ForeignKey) (e : Entity)

/-- The labels of an entity that are no made names. -/
def ownLabels : Kind → List String
  | .table => [e.name]
  | .partition =>
    if opts.dialect.supports .partitioning then []
    else (partitionOf opts.overlay e).toList.map fun _ => e.name
  | .ttl => e.ttl.toList.map fun _ => e.name
  | .rowSecurity => (securityStatements opts.overlay e).map (·.label)
  | .policy => e.policies.map fun p => e.name ++ "." ++ p.policy.name
  | .migration => (migrationStatements opts.overlay e).map (·.label)
  | _ => []

/-- The base names of the made names of an entity, in the order in which they are drawn. -/
def entityBases : List String :=
  ((e.fields.filter fun f => f.cardinality == .set && f.carries .unique).map fun f =>
      derivedName [e.name, f.name, "distinct"]) ++
    (e.fts.zipIdx.map fun p => derivedName [e.name, "fts", toString (p.2 + 1)]) ++
    ((if e.auditable then [AuditEvent.created, .updated] else []).map fun event =>
      derivedName [e.name, "set", event.word, "at"]) ++
    (e.softDelete.toList.map fun _ => derivedName [e.name, "active"])

/-- The statements of an entity draw the names of its base names. -/
lemma claims_entityStatements (t : NameTable) : (NameTable.claims (entityBases e)).run t =
    (((entityStatements opts s e keys).run t).1.flatMap (·.made),
      ((entityStatements opts s e keys).run t).2) := by
  have distinct (t) : _ = (_, ((distinctStatements e).run t).2) :=
    NameTable.claims_map t _ (·.made) (fun _ _ => rfl) _
  have search (t) : _ = (_, ((searchStatements opts e).run t).2) :=
    NameTable.claims_map t _ (·.made) (fun _ _ => rfl) _
  have audit (t) : _ = (_, ((auditStatements e).run t).2) :=
    NameTable.claims_map t _ (·.made) (fun _ _ => rfl) _
  have soft (t) : _ = (_, ((softDeleteStatements e).run t).2) :=
    NameTable.claims_map t _ (·.made) (fun _ _ => rfl) _
  have table : (tableStatements opts s keys e).flatMap (·.made) = [] := by
    unfold tableStatements
    split <;> simp [Statement.made, Statement.kind, Kind.isMade]
  have security : (securityStatements opts.overlay e).flatMap (·.made) = [] := by
    unfold securityStatements
    split <;> simp [Statement.made, Statement.kind, Kind.isMade]
  have migration : (migrationStatements opts.overlay e).flatMap (·.made) = [] := by
    unfold migrationStatements
    split
    · split <;> simp [Statement.made, Statement.kind, Kind.isMade]
    · simp
  have ttl : (e.ttl.toList.map fun t => Statement.expiry e.name t.column t.interval.value).flatMap
      (·.made) = [] := by simp [Statement.made, Statement.kind, Kind.isMade]
  have policies : (e.policies.map fun p => Statement.policy e.name p.policy).flatMap (·.made) = [] := by
    simp [Statement.made, Statement.kind, Kind.isMade]
  rw [entityBases, NameTable.claims_append, NameTable.claims_append, NameTable.claims_append, distinct,
    search, audit, soft]
  refine Prod.ext ?_ rfl
  change _ = List.flatMap _ (tableStatements opts s keys e ++ _ ++
    (e.ttl.toList.map fun t => Statement.expiry e.name t.column t.interval.value) ++ _ ++
    securityStatements opts.overlay e ++ (e.policies.map fun p => Statement.policy e.name p.policy) ++ _ ++
    _ ++ migrationStatements opts.overlay e)
  simp only [List.flatMap_append, table, security, migration, ttl, policies, List.nil_append,
    List.append_nil]
  rfl

/-- The other labels of an entity do not depend on the names that are taken. -/
lemma labels_entityStatements {k : Kind} (own : k.isMade = false) (t : NameTable) :
    labels k ((entityStatements opts s e keys).run t).1 = ownLabels opts e k := by
  obtain ⟨searchNames, auditNames, softNames, run⟩ := entityStatements_run opts s keys e t
  have distinct : ∀ st ∈ ((distinctStatements e).run t).1, st.kind = .distinctElements :=
    forall_mem_mapM (fun _ _ => rfl) _ _
  have search : ∀ st ∈ ((searchStatements opts e).run searchNames).1, st.kind = .fullText :=
    forall_mem_mapM (fun _ _ => rfl) _ _
  have audit : ∀ st ∈ ((auditStatements e).run auditNames).1, st.kind = .audit :=
    forall_mem_mapM (fun _ _ => rfl) _ _
  have soft : ∀ st ∈ ((softDeleteStatements e).run softNames).1, st.kind = .softDelete :=
    forall_mem_mapM (fun _ _ => rfl) _ _
  have security : ∀ st ∈ securityStatements opts.overlay e, st.kind = .rowSecurity := by
    unfold securityStatements
    split <;> simp [Statement.kind]
  have migration : ∀ st ∈ migrationStatements opts.overlay e, st.kind = .migration := by
    unfold migrationStatements
    split
    · split <;> simp [Statement.kind]
    · simp
  have made {k' : Kind} {sts : List Statement} (isMade : k'.isMade = true)
      (kind : ∀ st ∈ sts, st.kind = k') : labels k sts = [] := by
    refine labels_eq_nil fun st hst same => ?_
    rw [← kind st hst, same, own] at isMade
    cases isMade
  have table : labels k (tableStatements opts s keys e) =
      (if Kind.table = k then [e.name] else []) ++
        (if Kind.partition = k then ownLabels opts e .partition else []) := by
    have first (t : Table) : labels k [.table t] = if Kind.table = k then [t.name] else [] :=
      labels_eq_ite (by simp [Statement.kind])
    unfold tableStatements ownLabels
    split
    · simp [first]
    · rw [← List.singleton_append, labels_append, first, labels_eq_ite (j := .partition)]
      · simp [Function.comp_def, Statement.label]
      · simp [Statement.kind]
  have ttl : ∀ st ∈ e.ttl.toList.map fun t => Statement.expiry e.name t.column t.interval.value,
      st.kind = .ttl := by simp [Statement.kind]
  have policies : ∀ st ∈ e.policies.map fun p => Statement.policy e.name p.policy,
      st.kind = .policy := by simp [Statement.kind]
  rw [run]
  simp only [labels_append]
  rw [made rfl distinct, made rfl search, made rfl audit, made rfl soft,
    labels_eq_ite security, labels_eq_ite migration, labels_eq_ite ttl, labels_eq_ite policies, table]
  cases k with
  | fullText | audit | distinctElements | softDelete | foreignKey => cases own
  | _ => simp [ownLabels, Function.comp_def, Statement.label]

end Entities

/-! ### Blocks -/

/-- The statement of a block is numbered behind those of the same keyword. -/
lemma ordinal_of_mem_blockStatements {plugins : Plugin.Registry} {seen : List String}
    {bs : List Document.Block} {sts : List Statement} (h : blockStatements plugins seen bs = .ok sts) :
    (∀ st ∈ sts, ∃ keyword ordinal sql, st = .plugin keyword ordinal sql ∧ seen.count keyword < ordinal) ∧
      (sts.map (·.label)).Nodup := by
  induction bs generalizing seen sts with
  | nil =>
    cases h
    exact ⟨List.forall_mem_nil _, List.nodup_nil⟩
  | cons b bs ih =>
    rw [blockStatements] at h
    split at h
    · cases h
    split at h
    · cases h
    dsimp only at h
    cases rest : blockStatements plugins (b.block.keyword :: seen) bs with
    | error e =>
      rw [rest] at h
      cases h
    | ok more =>
      obtain ⟨later, nodup⟩ := ih rest
      have further : ∀ st ∈ more, ∃ keyword ordinal sql,
          st = .plugin keyword ordinal sql ∧ seen.count keyword < ordinal := by
        intro st hst
        obtain ⟨keyword, ordinal, sql, rfl, lt⟩ := later st hst
        exact ⟨keyword, ordinal, sql, rfl, (List.count_le_count_cons ..).trans_lt lt⟩
      rw [rest] at h
      change (if _ then Except.ok more else Except.ok (_ :: more)) = Except.ok sts at h
      split at h
      · cases h
        exact ⟨further, nodup⟩
      · cases h
        refine ⟨?_, ?_⟩
        · intro st hst
          rcases List.mem_cons.1 hst with rfl | hst
          · exact ⟨_, _, _, rfl, by simp⟩
          · exact further st hst
        · rw [List.map_cons, List.nodup_cons]
          refine ⟨fun mem => ?_, nodup⟩
          obtain ⟨st, hst, same⟩ := List.mem_map.1 mem
          obtain ⟨keyword, ordinal, sql, rfl, lt⟩ := later st hst
          obtain ⟨rfl, rfl⟩ := plugin_label_inj same
          exact lt.false

/-! ### Scripts -/

/-- The labels of a script that are no made names. -/
def scriptLabels (opts : Options) (s : Schema) (blocks : List Statement) : Kind → List String
  | .extension => s.extensions.map (·.name)
  | .enum => if opts.dialect.supports .enumTypes then s.enums.map (·.name) else []
  | .index => s.indexes.map (·.index.name)
  | .view => s.views.map (·.name)
  | .trigger => s.triggers.map (·.name)
  | .plugin => blocks.map (·.label)
  | k => s.entities.flatMap (ownLabels opts · k)

/-- The labels of indexes, views and triggers are those of the document, in the order of its lines. -/
lemma labels_sourceStatements (opts : Options) (s : Schema) (k : Kind) :
    (labels k (sourceStatements opts s)).Perm
      ((if Kind.index = k then s.indexes.map (·.index.name) else []) ++
        (if Kind.view = k then s.views.map (·.name) else []) ++
        (if Kind.trigger = k then s.triggers.map (·.name) else [])) := by
  refine (labels_perm ((List.mergeSort_perm _ _).map _)).trans (.of_eq ?_)
  rw [List.map_append, List.map_append, labels_append, labels_append, labels_eq_ite (j := .index),
    labels_eq_ite (j := .view), labels_eq_ite (j := .trigger)]
  · simp [Function.comp_def, Statement.label]
  · simp [Statement.kind]
  · simp [Statement.kind]
  · simp [Statement.kind]

/-- The groups of statements have the other labels of their entities. -/
lemma labels_entityGroups (opts : Options) (s : Schema) {k : Kind} (own : k.isMade = false) :
    labels k (entityGroups opts s).flatten = s.entities.flatMap (ownLabels opts · k) := by
  have groups : (entityGroups opts s).map (labels k) =
      (s.entities.zip (keyGroups s)).map fun p => ownLabels opts p.1 k :=
    map_mapM (fun p t => labels_entityStatements opts s p.2 p.1 own t) _ _
  have same : (s.entities.zip (keyGroups s)).map Prod.fst = s.entities :=
    List.map_fst_zip (length_keyGroups s).ge
  rw [labels_flatten, groups, ← List.flatMap_def]
  conv_rhs => rw [← same, List.flatMap_map]

/-- The base names of all made names of a schema: those of foreign keys, then those of the entities. -/
def schemaBases (s : Schema) : List String :=
  (s.entities.flatMap fun e => (references s e).map fun reference =>
      derivedName ["fk", e.name, reference.1]) ++
    s.entities.flatMap entityBases

/-- The names given out for a schema are those of its foreign keys and those of its entities. -/
lemma given_schemaBases (opts : Options) (s : Schema) : NameTable.given (schemaBases s) =
    (keyGroups s).flatten.map (·.name) ++ (entityGroups opts s).flatten.flatMap (·.made) := by
  have keys := NameTable.claims_flatMap NameTable.empty (f := collectForeignKeys s) _
    (fun ks : List ForeignKey => ks.flatMap fun k => [k.name])
    (fun e t => NameTable.claims_map t _ _ (fun _ _ => rfl) (references s e)) s.entities
  have statements := NameTable.claims_flatMap
    ((s.entities.mapM (collectForeignKeys s)).run NameTable.empty).2
    (f := fun p : Entity × List ForeignKey => entityStatements opts s p.1 p.2) (fun p => entityBases p.1)
    (fun sts : List Statement => sts.flatMap (·.made))
    (fun p t => claims_entityStatements opts s p.2 p.1 t) (s.entities.zip (keyGroups s))
  have same : s.entities.flatMap entityBases =
      (s.entities.zip (keyGroups s)).flatMap fun p => entityBases p.1 := by
    conv_lhs => rw [← List.map_fst_zip (length_keyGroups s).ge, List.flatMap_map]
  rw [NameTable.given, schemaBases, NameTable.claims_append, keys, same, statements,
    List.map_eq_flatMap, List.flatten_eq_flatMap, List.flatten_eq_flatMap, List.flatMap_assoc,
    List.flatMap_assoc]
  rfl

/-- Indexes, views and triggers of a document have no made names. -/
lemma flatMap_made_sourceStatements (opts : Options) (s : Schema) :
    (sourceStatements opts s).flatMap (·.made) = [] := by
  rw [List.flatMap_eq_nil_iff]
  intro st hst
  obtain ⟨placed, hp, rfl⟩ := List.mem_map.1 hst
  rw [List.mem_mergeSort, List.mem_append, List.mem_append] at hp
  rcases hp with (hp | hp) | hp
  · obtain ⟨i, -, rfl⟩ := List.mem_map.1 hp
    rfl
  · obtain ⟨v, -, rfl⟩ := List.mem_map.1 hp
    rfl
  · obtain ⟨t, -, rfl⟩ := List.mem_map.1 hp
    rfl

section Generate
variable {opts : Options} {s : Schema} {out : Output}

/-- The made names of a script are those of its entities, then those of foreign keys that stand alone. -/
lemma flatMap_made_of_generate (h : generate opts s = .ok out) : out.statements.flatMap (·.made) =
    (entityGroups opts s).flatten.flatMap (·.made) ++
      (if opts.dialect.supports .alterConstraints then (keyGroups s).flatten.map (·.name) else []) := by
  obtain ⟨blocks, found, rfl⟩ := exists_blocks_of_generate h
  have extensions : (s.extensions.map fun x => Statement.extension x.name).flatMap (·.made) = [] := by
    simp [Statement.made, Statement.kind, Kind.isMade]
  have enums : (if opts.dialect.supports .enumTypes then
      s.enums.map fun e => Statement.enum e.name e.labels else []).flatMap (·.made) = [] := by
    split <;> simp [Statement.made, Statement.kind, Kind.isMade]
  have keys : (if opts.dialect.supports .alterConstraints then
      (keyGroups s).flatten.map Statement.foreignKey else []).flatMap (·.made) =
        if opts.dialect.supports .alterConstraints then (keyGroups s).flatten.map (·.name) else [] := by
    split
    · rw [List.flatMap_map, List.map_eq_flatMap]
      rfl
    · rfl
  have plugins : blocks.flatMap (·.made) = [] := by
    rw [List.flatMap_eq_nil_iff]
    intro st hst
    obtain ⟨_, _, _, rfl⟩ := exists_plugin_of_mem_blockStatements found st hst
    rfl
  rw [schemaStatements_eq]
  simp only [List.flatMap_append, extensions, enums, keys, plugins, flatMap_made_sourceStatements,
    List.nil_append, List.append_nil]

/-- The names that the generator makes up for a script are different. -/
lemma nodup_made_of_generate (h : generate opts s = .ok out) : (out.statements.flatMap (·.made)).Nodup := by
  have nodup := (NameTable.drawn_claims (schemaBases s) NameTable.empty).nodup
  rw [← NameTable.given, given_schemaBases opts] at nodup
  have keys : (if opts.dialect.supports .alterConstraints then (keyGroups s).flatten.map (·.name)
      else []).Sublist ((keyGroups s).flatten.map (·.name)) := by
    split
    · exact .refl _
    · exact List.nil_sublist _
  rw [flatMap_made_of_generate h]
  exact (List.perm_append_comm.nodup_iff.1 nodup).sublist ((List.Sublist.refl _).append keys)

/-- A script has made names and the labels of the document. -/
lemma labels_of_generate (h : generate opts s = .ok out) : ∃ blocks,
    blockStatements opts.plugins [] s.blocks = .ok blocks ∧
    (out.statements.flatMap (·.made)).Nodup ∧ ∀ k : Kind, k.isMade = false →
      (labels k out.statements).Perm (scriptLabels opts s blocks k) := by
  have made := nodup_made_of_generate h
  obtain ⟨blocks, found, rfl⟩ := exists_blocks_of_generate h
  have plugin : ∀ st ∈ blocks, st.kind = .plugin := by
    intro st hst
    obtain ⟨_, _, _, rfl⟩ := exists_plugin_of_mem_blockStatements found st hst
    rfl
  refine ⟨blocks, found, made, fun k own => ?_⟩
  have source := labels_sourceStatements opts s k
  have extensions : ∀ st ∈ s.extensions.map fun x => Statement.extension x.name,
      st.kind = .extension := by simp [Statement.kind]
  have enums : ∀ st ∈ (if opts.dialect.supports .enumTypes then
      s.enums.map fun e => Statement.enum e.name e.labels else []), st.kind = .enum := by
    split <;> simp [Statement.kind]
  have enumLabels : (if opts.dialect.supports .enumTypes then
      s.enums.map fun e => Statement.enum e.name e.labels else []).map (·.label) =
        if opts.dialect.supports .enumTypes then s.enums.map (·.name) else [] := by
    split <;> simp [Function.comp_def, Statement.label]
  have keys : ∀ st ∈ (if opts.dialect.supports .alterConstraints then
      (keyGroups s).flatten.map Statement.foreignKey else []), st.kind = .foreignKey := by
    split
    · exact fun st hst => by obtain ⟨k, -, rfl⟩ := List.mem_map.1 hst; rfl
    · exact fun st hst => absurd hst List.not_mem_nil
  rw [schemaStatements_eq]
  simp only [labels_append]
  rw [labels_entityGroups opts s own, labels_eq_ite extensions, labels_eq_ite enums,
    labels_eq_ite keys, labels_eq_ite plugin, enumLabels]
  refine ((source.append_left _).append_right _).trans (.of_eq ?_)
  cases k with
  | fullText | audit | distinctElements | softDelete | foreignKey => cases own
  | _ => simp [scriptLabels, ownLabels, Function.comp_def, Statement.label]

/-- The labels of an entity that are no policies are its name, possibly with a mark for forced
security. -/
lemma of_mem_ownLabels {e : Entity} {k : Kind} (h : k ≠ .policy) {l : String}
    (hl : l ∈ ownLabels opts e k) : l = e.name ∨ l = e.name ++ ":force" := by
  have security : ∀ st ∈ securityStatements opts.overlay e,
      st.label = e.name ∨ st.label = e.name ++ ":force" := by
    unfold securityStatements
    split
    · exact List.forall_mem_nil _
    · simp [Statement.label]
    · next mode other _ =>
      have plain : (mode == SecurityMode.force) = false := beq_eq_false_iff_ne.2 other
      intro st hst
      rw [List.mem_singleton.1 hst, Statement.label, plain]
      exact .inl String.append_empty
  have migration : ∀ st ∈ migrationStatements opts.overlay e, st.label = e.name := by
    unfold migrationStatements
    split
    · split <;> simp [Statement.label]
    · exact List.forall_mem_nil _
  cases k with
  | policy => exact absurd rfl h
  | rowSecurity =>
    obtain ⟨st, hst, rfl⟩ := List.mem_map.1 hl
    exact security st hst
  | migration =>
    obtain ⟨st, hst, rfl⟩ := List.mem_map.1 hl
    exact .inl (migration st hst)
  | _ => simp_all [ownLabels]

lemma nodup_ownLabels (e : Entity) {k : Kind} (h : k ≠ .policy) : (ownLabels opts e k).Nodup := by
  have small {α β : Type} (o : Option α) (f : α → β) : (o.toList.map f).Nodup := by
    cases o <;> simp
  cases k with
  | policy => exact absurd rfl h
  | rowSecurity =>
    simp only [ownLabels, securityStatements]
    split
    · simp
    · have longer : e.name ≠ e.name ++ ":force" := fun same => by
        simpa using congrArg String.length same
      simpa [Statement.label] using longer
    · simp
  | migration =>
    simp only [ownLabels, migrationStatements]
    split
    · split <;> simp
    · simp
  | ttl => exact small _ _
  | partition =>
    simp only [ownLabels]
    split
    · simp
    · exact small _ _
  | _ => simp [ownLabels]

/-- The names that a document gives are apart: those of a kind from each other, and from the names that
the generator makes for the same word. -/
structure NamesApart (s : Schema) (out : Output) : Prop where
  extensions : (s.extensions.map (·.name)).Nodup
  policies : (s.entities.flatMap fun e => e.policies.map fun p => e.name ++ "." ++ p.policy.name).Nodup
  indexes : (s.indexes.map (·.index.name)).Nodup
  views : (s.views.map (·.name)).Nodup
  triggers : (s.triggers.map (·.name)).Nodup
  search : ∀ i ∈ s.indexes, i.index.name ∉ labels .fullText out.statements
  softDelete : ∀ v ∈ s.views, v.name ∉ labels .softDelete out.statements
  audit : ∀ t ∈ s.triggers, t.name ∉ labels .audit out.statements
  distinct : ∀ t ∈ s.triggers, t.name ∉ labels .distinctElements out.statements

/-- Keys are different exactly if the names are apart, where no two entities or enumerations have the
same name and no entity has a colon in its name. -/
lemma nodup_keys_of_generate (h : generate opts s = .ok out) (entities : (s.entities.map (·.name)).Nodup)
    (enums : (s.enums.map (·.name)).Nodup) (colon : ∀ e ∈ s.entities, ':' ∉ e.name.toList) :
    (out.statements.map (·.key)).Nodup ↔ NamesApart s out := by
  obtain ⟨blocks, found, made, same⟩ := labels_of_generate h
  rw [nodup_keys_iff made]
  constructor
  · intro apart
    have nodup {k : Kind} (own : k.isMade = false) : (scriptLabels opts s blocks k).Nodup :=
      (same k own).nodup_iff.1 (apart k own).1
    have differ {k j : Kind} (own : k.isMade = false) (isMade : j.isMade = true)
        (word : j.keyWord = k.keyWord) : ∀ l ∈ scriptLabels opts s blocks k,
          l ∉ labels j out.statements := by
      intro l hl mem
      obtain ⟨st, hst, rfl, rfl⟩ := mem_labels.1 mem
      exact (apart k own).2 st hst isMade word ((same k own).mem_iff.2 hl)
    exact {
      extensions := nodup (k := .extension) rfl
      policies := nodup (k := .policy) rfl
      indexes := nodup (k := .index) rfl
      views := nodup (k := .view) rfl
      triggers := nodup (k := .trigger) rfl
      search := fun i hi => differ (k := .index) (j := .fullText) rfl rfl rfl _ (List.mem_map_of_mem hi)
      softDelete := fun v hv => differ (k := .view) (j := .softDelete) rfl rfl rfl _ (List.mem_map_of_mem hv)
      audit := fun t ht => differ (k := .trigger) (j := .audit) rfl rfl rfl _ (List.mem_map_of_mem ht)
      distinct := fun t ht => differ (k := .trigger) (j := .distinctElements) rfl rfl rfl _ (List.mem_map_of_mem ht) }
  · intro apart k own
    constructor
    · rw [(same k own).nodup_iff]
      have owned (h : k ≠ .policy) : (s.entities.flatMap (ownLabels opts · k)).Nodup := by
        rw [List.nodup_flatMap]
        refine ⟨fun e _ => nodup_ownLabels e h, ?_⟩
        rw [List.Nodup, List.pairwise_map] at entities
        refine entities.imp_of_mem fun {e e'} he he' differ l hl hl' => ?_
        -- the label has the name of either entity before its first colon
        have front {e : Entity} (he : e ∈ s.entities) (hl : l ∈ ownLabels opts e k) :
            l.toList.takeWhile (· != ':') = e.name.toList := by
          have all : ∀ c ∈ e.name.toList, (c != ':') = true := fun c hc =>
            bne_iff_ne.2 fun same => colon e he (same ▸ hc)
          rcases of_mem_ownLabels h hl with rfl | rfl
          · exact List.takeWhile_eq_self_iff.2 all
          · rw [String.toList_append, List.takeWhile_append_of_pos all]
            exact List.append_nil _
        exact differ (String.toList_inj.1 ((front he hl).symm.trans (front he' hl')))
      cases k with
      | fullText | audit | distinctElements | softDelete | foreignKey => cases own
      | extension => exact apart.extensions
      | enum =>
        simp only [scriptLabels]
        split
        · exact enums
        · exact List.nodup_nil
      | index => exact apart.indexes
      | view => exact apart.views
      | trigger => exact apart.triggers
      | plugin => exact (ordinal_of_mem_blockStatements found).2
      | policy => exact apart.policies
      | _ => exact owned nofun
    · intro st hst isMade word mem
      rw [(same k own).mem_iff] at mem
      have made := mem_labels.2 ⟨st, hst, rfl, rfl⟩
      rcases Kind.of_keyWord_eq isMade own word with
        ⟨kind, rfl⟩ | ⟨kind, rfl⟩ | ⟨kind, rfl⟩ | ⟨kind, rfl⟩
      · obtain ⟨i, hi, label⟩ := List.mem_map.1 mem
        exact apart.search i hi (by rwa [label, ← kind])
      · obtain ⟨v, hv, label⟩ := List.mem_map.1 mem
        exact apart.softDelete v hv (by rwa [label, ← kind])
      · obtain ⟨t, ht, label⟩ := List.mem_map.1 mem
        exact apart.audit t ht (by rwa [label, ← kind])
      · obtain ⟨t, ht, label⟩ := List.mem_map.1 mem
        exact apart.distinct t ht (by rwa [label, ← kind])

end Generate

end Ddl

/-! ### Names of entities -/

namespace Scan

/-- An entity marker is spelled by the name behind its colon. -/
lemma nameLength_of_step {opens : Bool} {c : Char} {cs : List Char} {spelling : String} {more : Nat}
    (h : step opens c cs = .token .entity spelling more) :
    spelling = String.ofList (cs.take (nameLength cs)) := by
  cases takes_of_step h with
  | entity => rfl

/-- The name of an entity marker has no colon. -/
lemma colon_notMem_of_mem_ofBytes {src : List UInt8} {t : Token} (h : t ∈ (ofBytes src).tokens)
    (kind : t.kind = .entity) : ':' ∉ t.spelling.toList := by
  unfold ofBytes at h
  split at h
  · obtain ⟨opens, c, cs, more, found⟩ := exists_step_of_mem_scanFrom h (by simp [kind])
    rw [kind] at found
    rw [nameLength_of_step found, String.toList_ofList]
    intro mem
    have := of_mem_take_nameLength mem
    revert this
    decide
  · cases h

end Scan

/-! ### Compilations -/

namespace Compilation

open Schema

/-- No entity has a colon in its name. -/
lemma colon_notMem_of_mem_entities {path : String} {src : List UInt8} {plugins : Plugin.Registry}
    {e : Entity} (he : e ∈ (ofDocument (read path src plugins).1).1.entities) :
    ':' ∉ e.name.toList := by
  have named := List.mem_map_of_mem (f := (·.name)) he
  rw [map_name_entities_ofDocument] at named
  obtain ⟨node, declared, name⟩ := List.mem_map.1 named
  have stands := mem_entities_of_declared declared
  obtain ⟨head, ts, atEnd, group, kind, rfl⟩ := Document.exists_group_of_entity stands
  rw [← name]
  refine @Scan.colon_notMem_of_mem_ofBytes src _ ?_ kind
  exact (List.takeWhile_sublist _).subset
    ((Document.sublist_of_mem_statementGroups group).subset List.mem_cons_self)

/-- The keys of a script are different exactly if the names that the document gives are apart. Then
every statement is the one that is found for its key. -/
theorem keys_nodup_iff {path : String} {src : List UInt8} {o : CompileOptions}
    (accepted : (run path src o).valid = true) : ∃ out, (run path src o).output = some out ∧
      ((out.statements.map (·.key)).Nodup ↔ Ddl.NamesApart (run path src o).schema out) ∧
      (Ddl.NamesApart (run path src o).schema out →
        ∀ st ∈ out.statements, out.statement? st.key = some st) := by
  obtain ⟨out, output, generated⟩ := exists_output_of_valid accepted
  have nodup : (out.statements.map (·.key)).Nodup ↔ Ddl.NamesApart (run path src o).schema out := by
    rw [run_schema] at generated ⊢
    exact Ddl.nodup_keys_of_generate generated (entity_names_nodup _)
      (List.nodup_append.1 names_nodup_ofDocument).2.1 fun e he => colon_notMem_of_mem_entities he
  refine ⟨out, output, nodup, fun apart st hst => ?_⟩
  have found : (out.statements.find? fun other => other.key == st.key).isSome = true :=
    List.find?_isSome.2 ⟨st, hst, beq_self_eq_true _⟩
  obtain ⟨other, found⟩ := Option.isSome_iff_exists.1 found
  rw [Ddl.Output.statement?, found, List.inj_on_of_nodup_map (nodup.2 apart)
    (List.mem_of_find?_eq_some found) hst (by simpa using List.find?_some found)]

/-- Two entities with made names and given ones of the same words. -/
def board : List UInt8 :=
  Text.bytes ("EXTENSION pgcrypto\n:Post\n  INT $.id PK\n  TEXT %.tags UNIQUE\n  FTS(tags)\n" ++
    "  POLICY own USING (true)\n  AUDITABLE\n:Note\n  INT $.id PK\n  TEXT $.gone\n  SOFT_DELETE(gone)\n" ++
    "  POLICY own USING (true)\nTRIGGER seen BEFORE UPDATE ON Post EXECUTE PROCEDURE seen()\n")

/-- The names of the two entities are apart, so every statement is found by its key. -/
theorem keys_nodup_iff_of_board : (run "board.erd" board {}).valid = true ∧
    ∃ out, (run "board.erd" board {}).output = some out ∧
      Ddl.NamesApart (run "board.erd" board {}).schema out ∧
      ∀ st ∈ out.statements, out.statement? st.key = some st := by
  have facts : (run "board.erd" board {}).valid = true ∧
      (run "board.erd" board {}).output.map (fun out => decide (out.statements.map (·.key)).Nodup) =
        some true := by
    rw [run, analyse, board, read_bytes, String.toList_append, String.toList_append]
    decide +kernel
  obtain ⟨out, output, nodup, found⟩ := keys_nodup_iff facts.1
  have differ := facts.2
  rw [output] at differ
  have apart := nodup.1 (of_decide_eq_true (Option.some.inj differ))
  exact ⟨facts.1, out, output, apart, found apart⟩

/-- An entity with a trigger that has the name of one of its audit triggers. -/
def audited : List UInt8 :=
  Text.bytes (":A\n  INT $.id PK\n  AUDITABLE\n" ++
    "TRIGGER A_set_created_at AFTER INSERT ON A EXECUTE PROCEDURE f()\n")

/-- The trigger is accepted, it has the key of the audit trigger, and it is not found by it. -/
theorem keys_collide : (run "audited.erd" audited {}).valid = true ∧
    ∃ out, (run "audited.erd" audited {}).output = some out ∧ ¬ (out.statements.map (·.key)).Nodup ∧
      ∃ st ∈ out.statements, out.statement? st.key ≠ some st := by
  have facts : (run "audited.erd" audited {}).valid = true ∧
      (run "audited.erd" audited {}).output.map (fun out => decide (¬ (out.statements.map (·.key)).Nodup ∧
        ∃ st ∈ out.statements, out.statement? st.key ≠ some st)) = some true := by
    rw [run, analyse, audited, read_bytes, String.toList_append]
    decide +kernel
  obtain ⟨out, output, differ⟩ := Option.map_eq_some_iff.1 facts.2
  exact ⟨facts.1, out, output, of_decide_eq_true differ⟩

end Compilation

end ErdSql
