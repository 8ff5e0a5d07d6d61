import ErdSql.Proofs.Integrity
import ErdSql.Proofs.Locality
import ErdSql.Proofs.Sentences
import ErdSql.Proofs.TableKeys

/-!
# Clauses of policies

A policy has one place for each kind of clause, which the last clause of the kind on its line fills. The
SQL of the policy has the clauses with a text.

* `Policy.kept_iff`: every clause is kept if and only if those of one kind ask for the same.
* `Policy.kept_written_iff`: every clause is in the SQL if and only if it has a text, too.
* `Document.policy_of_entityLine`: what a line with a policy says.
* `Ddl.policy_mem_of_generate`: the policies of an entity are in the script.
* `Compilation.policy_clauses_kept_iff`: from the line of a policy to the script.
-/

namespace ErdSql

namespace Policy

/-! ### Clauses of one policy -/

/-- What a policy has for a kind of clause. -/
def operand (p : Policy) : Slot → String
  | .command => p.command
  | .role => p.role
  | .usingExpr => p.usingExpr
  | .withCheck => p.withCheck

/-- A policy without clauses. -/
def bare (name : String) : Policy :=
  ⟨name, "", "", "", ""⟩

lemma operand_set (p : Policy) (part : Part) (slot : Slot) :
    (p.set part).operand slot = if part.slot = slot then part.operand else p.operand slot := by
  obtain ⟨kind, text⟩ := part
  cases kind <;> cases slot <;> rfl

lemma name_foldl_set (p : Policy) (parts : List Part) : (parts.foldl set p).name = p.name := by
  induction parts generalizing p with
  | nil => rfl
  | cons part parts ih =>
    rw [List.foldl_cons, ih]
    obtain ⟨kind, text⟩ := part
    cases kind <;> rfl

/-- For a kind of clause a policy has what the last one asks for. -/
lemma exists_operand_eq (p : Policy) {parts : List Part} {part : Part} (h : part ∈ parts) :
    ∃ last ∈ parts, last.slot = part.slot ∧ (parts.foldl set p).operand part.slot = last.operand := by
  induction parts using List.reverseRecOn with
  | nil => cases h
  | append_singleton parts last ih =>
    rw [List.foldl_append, List.foldl_cons, List.foldl_nil, operand_set]
    by_cases same : last.slot = part.slot
    · exact ⟨last, by simp, same, if_pos same⟩
    · have earlier : part ∈ parts := by
        rcases List.mem_append.1 h with earlier | here
        · exact earlier
        · exact absurd (congrArg Part.slot (List.mem_singleton.1 here)).symm same
      obtain ⟨before, mem, slot, eq⟩ := ih earlier
      exact ⟨before, List.mem_append_left _ mem, slot, by rw [if_neg same, eq]⟩

/-- Every clause is kept if and only if those of one kind ask for the same. -/
lemma kept_iff (p : Policy) (parts : List Part) :
    (∀ part ∈ parts, (parts.foldl set p).operand part.slot = part.operand) ↔
      ∀ a ∈ parts, ∀ b ∈ parts, a.slot = b.slot → a.operand = b.operand := by
  constructor
  · intro kept a ha b hb same
    rw [← kept a ha, ← kept b hb, same]
  · intro agree part hpart
    obtain ⟨last, mem, same, eq⟩ := exists_operand_eq p hpart
    rw [eq, agree last mem part hpart same]

/-- The clauses that the SQL of a policy has. -/
def written (p : Policy) : List Part :=
  [⟨.command, p.command⟩, ⟨.role, p.role⟩, ⟨.usingExpr, p.usingExpr⟩, ⟨.withCheck, p.withCheck⟩].filter
    (·.operand != "")

lemma mem_written {p : Policy} {part : Part} :
    part ∈ p.written ↔ p.operand part.slot = part.operand ∧ part.operand ≠ "" := by
  obtain ⟨kind, text⟩ := part
  rw [written, List.mem_filter, bne_iff_ne]
  cases kind <;> simp [operand, eq_comm]

/-- Every clause is in the SQL if and only if it has a text and those of one kind ask for the same. -/
lemma kept_written_iff (p : Policy) (parts : List Part) :
    (∀ part ∈ parts, part ∈ (parts.foldl set p).written) ↔
      (∀ a ∈ parts, ∀ b ∈ parts, a.slot = b.slot → a.operand = b.operand) ∧
        ∀ part ∈ parts, part.operand ≠ "" := by
  rw [← kept_iff p, ← forall₂_and]
  exact forall₂_congr fun part _ => mem_written

/-- A clause in SQL. -/
def Part.sql (part : Part) : String :=
  match part.slot with
  | .command => " FOR " ++ part.operand
  | .role => " TO " ++ Sql.name part.operand
  | .usingExpr => " USING (" ++ part.operand ++ ")"
  | .withCheck => " WITH CHECK (" ++ part.operand ++ ")"

/-- The SQL of a policy has its clauses one behind the other. -/
lemma policySql_eq (owner : String) (p : Policy) :
    Ddl.Statement.policySql owner p = "CREATE POLICY " ++ Sql.name p.name ++ " ON " ++ Sql.name owner ++
      String.join (p.written.map Part.sql) := by
  -- a clause is left out where the list of those with a text leaves it out
  have clause (part : Part) (parts : List Part) :
      String.join (((part :: parts).filter (·.operand != "")).map Part.sql) =
        (if part.operand == "" then "" else part.sql) ++
          String.join ((parts.filter (·.operand != "")).map Part.sql) := by
    by_cases empty : part.operand = ""
    · simp [empty]
    · simp [empty, String.join_cons]
  unfold written Ddl.Statement.policySql Ddl.Statement.optionalClause
  rw [clause, clause, clause, clause]
  simp only [Part.sql, List.filter_nil, List.map_nil, String.join_nil, String.append_empty,
    String.append_assoc]

end Policy

namespace Document

open ErdSql.Document.Parser

/-! ### Lines with policies -/

section Lines
variable {src : Source} {c : Cursor}

/-- A line with a policy that is read without a fault has a name and clauses, and gives the policy with
the clauses set one after another. -/
lemma policy_of_entityLine (kind : c.current.kind = .keyword .policy) (noField : startsField c.rest = false)
    (faultless : (entityLine src c).fault = none) :
    ∃ t name ts parts d, c.rest = t :: name :: ts ∧ InRow PartSays ts parts ∧
      (entityLine src c).item = some (.directive d) ∧
      d.feature = .policy (parts.foldl Policy.set (.bare name.spelling)) := by
  have line : entityLine src c = .ofParsed .directive (directiveLine src .policy c) := by
    unfold entityLine
    rw [kind]
    dsimp only
    rw [noField, if_neg Bool.false_ne_true]
  rw [line] at faultless ⊢
  obtain ⟨d, after, read, item⟩ := LineResult.returns_of_ofParsed rfl faultless
  have said := featureSays_of_directiveLine read kind (by simp)
  rw [rest_eq_cons (by simp [kind])] at said ⊢
  generalize c.current = t at kind said
  generalize c.skip.rest = ts at said
  generalize feature : d.feature = f at said
  cases said with
  | policy _ isName row => exact ⟨t, _, _, _, d, rfl, row, item, feature⟩
  | _ => simp_all

/-- What a line of an entity says stands in the entity. -/
lemma directive_mem_of_entityLine {head : Token} {tokens line : List Token} {atEnd atEnd' : Bool}
    {previous : Token} {d : Directive} (standing : Token.Standing (head :: tokens))
    (mem : line ∈ bodyLines head tokens)
    (item : (entityLine src ⟨previous, line, atEnd'⟩).item = some (.directive d)) :
    d ∈ (entity src head tokens atEnd).1.directives := by
  have columns : ∀ line ∈ bodyLines head tokens, ∃ t ts, line = t :: ts ∧ t.column ≠ 0 := by
    intro line hline
    obtain ⟨sub, ne⟩ := sublist_of_mem_bodyLines hline
    obtain ⟨t, ts, rfl⟩ := List.exists_cons_of_ne_nil ne
    exact ⟨t, ts, rfl, standing.column t (List.mem_cons_of_mem _ (sub.subset List.mem_cons_self))⟩
  obtain ⟨t, ts, rfl, column⟩ := columns line mem
  rw [item_alone column previous head ts atEnd' true] at item
  rw [entity_fst]
  dsimp only
  rw [filterMap_entityLines (f := (·.directive?)) (fun r r' same => by
    rw [LineResult.directive?, LineResult.directive?, same]) columns atEnd _ head]
  refine List.mem_flatMap.2 ⟨_, mem, ?_⟩
  simp [LineResult.directive?, item]

/-- An entity block of the text is a statement of the document. -/
lemma entity_mem_of_readStatements {plugins : Plugin.Registry} {recovering : Bool}
    {groups : List (Token × List Token)} {head : Token} {tokens : List Token}
    (mem : (head, tokens) ∈ groups) (kind : head.kind = .entity) :
    ∃ atEnd, .entity (entity src head tokens atEnd).1 ∈ (readStatements src plugins recovering groups).1 := by
  induction groups generalizing recovering with
  | nil => cases mem
  | cons g rest ih =>
    obtain ⟨first, ts⟩ := g
    rw [readStatements]
    rcases List.mem_cons.1 mem with here | later
    · cases here
      refine ⟨rest.isEmpty, List.mem_append_left _ ?_⟩
      simp [readStatement, kind]
    · obtain ⟨atEnd, found⟩ := ih later
      exact ⟨atEnd, List.mem_append_right _ found⟩

end Lines

end Document

namespace Schema

/-! ### Policies of a schema -/

/-- The policy that a feature line declares. -/
def policyLine? (d : Document.Directive) : Option PolicyLine :=
  match d.feature with
  | .policy p => some ⟨p, d.span⟩
  | _ => none

/-- The policies of an entity are those of its feature lines, in order. -/
lemma policies_addFeatures (path : String) (e : Entity) (ds : List Document.Directive) :
    (addFeatures path e ds).1.policies = e.policies ++ ds.filterMap policyLine? := by
  have one {e e' : Entity} {d : Document.Directive} (added : addFeature e d = some e') :
      e'.policies = e.policies ++ [d].filterMap policyLine? := by
    obtain ⟨feature, span⟩ := d
    cases feature with
    | policy p =>
      cases added
      rfl
    | fts columns method =>
      cases added
      exact (List.append_nil _).symm
    | _ =>
      obtain ⟨-, ⟨⟩⟩ := Option.ite_none_left_eq_some.1 added
      exact (List.append_nil _).symm
  have kept {e : Entity} {d : Document.Directive} (left : addFeature e d = none) : policyLine? d = none := by
    obtain ⟨feature, span⟩ := d
    cases feature <;> first | rfl | cases left
  induction ds generalizing e with
  | nil => exact (List.append_nil _).symm
  | cons d ds ih =>
    rw [addFeatures]
    split
    · next e' added =>
      rw [ih, one added, List.append_assoc, ← List.filterMap_append]
      rfl
    · next left => rw [ih, List.filterMap_cons_none (kept left)]

/-- The policies of a declared entity are in the schema. -/
lemma exists_policy_of_declared {doc : Document} {node : Document.Entity} {d : Document.Directive}
    {p : Policy} (declared : node ∈ declaredEntities doc) (mem : d ∈ node.directives)
    (feature : d.feature = .policy p) :
    ∃ e ∈ (ofDocument doc).1.entities, e.name = node.name ∧ ∃ line ∈ e.policies, line.policy = p := by
  obtain ⟨i, hi, rfl⟩ := List.mem_iff_getElem.1 declared
  rw [entities_ofDocument]
  refine ⟨_, List.mem_mapIdx.2 ⟨i, hi, rfl⟩, buildEntity_name, ⟨p, d.span⟩, ?_, rfl⟩
  change _ ∈ (addFeatures _ _ _).1.policies
  rw [policies_addFeatures]
  refine List.mem_append_right _ (List.mem_filterMap.2 ⟨d, mem, ?_⟩)
  rw [policyLine?, feature]

end Schema

namespace Ddl

/-- Statements create the policies of an entity. -/
def Creates (p : Schema.Entity × List ForeignKey) (sts : List Statement) : Prop :=
  ∀ line ∈ p.1.policies, Statement.policy p.1.name line.policy ∈ sts

/-- The policies of an entity are in the script. -/
lemma policy_mem_of_generate {opts : Options} {s : Schema} {out : Output} (h : generate opts s = .ok out)
    {e : Schema.Entity} (mem : e ∈ s.entities) {line : Schema.PolicyLine} (hline : line ∈ e.policies) :
    .policy e.name line.policy ∈ out.statements := by
  have one (p : Schema.Entity × List ForeignKey) (names : NameTable) : Creates p
      ((entityStatements opts s p.1 p.2).run names).1 := by
    intro line hline
    obtain ⟨searchNames, auditNames, softNames, run⟩ := entityStatements_run opts s p.2 p.1 names
    rw [run]
    simp only [List.mem_append]
    exact .inl (.inl (.inl (.inr (List.mem_map_of_mem hline))))
  obtain ⟨blocks, -, rfl⟩ := exists_blocks_of_generate h
  rw [← List.map_fst_zip (length_keyGroups s).ge] at mem
  obtain ⟨pair, inZip, rfl⟩ := List.mem_map.1 mem
  have groups := forall₂_mapM (R := Creates) one (s.entities.zip (keyGroups s))
    ((s.entities.mapM (collectForeignKeys s)).run NameTable.empty).2
  obtain ⟨group, inGroups, policies⟩ := Schema.exists_of_forall₂ groups.flip inZip
  dsimp only
  rw [schemaStatements_eq]
  have found : Statement.policy pair.1.name line.policy ∈ (entityGroups opts s).flatten :=
    List.mem_flatten.2 ⟨group, inGroups, policies line hline⟩
  simp only [List.mem_append]
  exact .inl (.inl (.inl (.inr found)))

end Ddl

namespace Compilation

open Document

/-- **What becomes of the clauses of a policy.** A line with a policy that is read without an error
gives a feature of its entity. For each kind of clause the policy keeps what the last one asks for, so it
keeps every clause if and only if those of one kind ask for the same. If the entity is the one declared under
its name, then the script creates the policy, and every clause on the line is in its SQL if and only if each of
them has a text, too. -/
theorem policy_clauses_kept_iff {path : String} {src : List UInt8} {o : CompileOptions} {cs : List Char}
    (valid : Text.decode? src = some cs) {head : Token} {tokens line : List Token}
    (statement : (head, tokens) ∈ statementGroups (Scan.ofBytes src).body) (isEntity : head.kind = .entity)
    (mem : line ∈ bodyLines head tokens) {previous : Token} {atEnd : Bool}
    (isPolicy : ∃ t ∈ line.head?, t.kind = .keyword .policy) (noField : startsField line = false)
    (faultless : (entityLine (Text.slice cs) ⟨previous, line, atEnd⟩).fault = none) :
    ∃ t name ts parts e d p, line = t :: name :: ts ∧ InRow PartSays ts parts ∧
      (entityLine (Text.slice cs) ⟨previous, line, atEnd⟩).item = some (.directive d) ∧
      d.feature = .policy p ∧ p.name = name.spelling ∧
      .entity e ∈ (document path src o).statements ∧ e.name = head.spelling ∧ d ∈ e.directives ∧
      ((∀ part ∈ parts, p.operand part.slot = part.operand) ↔
        ∀ a ∈ parts, ∀ b ∈ parts, a.slot = b.slot → a.operand = b.operand) ∧
      (e ∈ Schema.declaredEntities (document path src o) → ∀ out, (run path src o).output = some out →
        .policy e.name p ∈ out.statements ∧
          (Ddl.Statement.policy e.name p).sql out.dialect = "CREATE POLICY " ++ Sql.name p.name ++ " ON " ++
            Sql.name e.name ++ String.join (p.written.map Policy.Part.sql)) ∧
      ((∀ part ∈ parts, part ∈ p.written) ↔
        (∀ a ∈ parts, ∀ b ∈ parts, a.slot = b.slot → a.operand = b.operand) ∧
          ∀ part ∈ parts, part.operand ≠ "") := by
  have scan : Scan.ofBytes src = Scan.ofChars cs := by rw [Scan.ofBytes, valid]
  rw [scan] at statement
  have standing : Token.Standing (head :: tokens) := (Scan.standing_ofChars cs).sublist
    ((sublist_of_mem_statementGroups statement).trans (List.dropLast_sublist _))
  obtain ⟨first, isFirst, kind⟩ := isPolicy
  have current : (Cursor.mk previous line atEnd).current.kind = .keyword .policy := by
    obtain ⟨us, rfl⟩ := List.head?_eq_some_iff.1 isFirst
    exact kind
  obtain ⟨t, name, ts, parts, d, rest, row, item, feature⟩ :=
    policy_of_entityLine current noField faultless
  obtain ⟨final, inside⟩ : ∃ final, .entity (entity (Text.slice cs) head tokens final).1 ∈
      (document path src o).statements := by
    simp only [document, read, scan, valid, Option.getD_some, ofTokens, Scan.ofChars, Scan.takeWhile_tokens]
    exact entity_mem_of_readStatements statement isEntity
  have directive : d ∈ (entity (Text.slice cs) head tokens final).1.directives :=
    directive_mem_of_entityLine standing mem item
  refine ⟨t, name, ts, parts, _, d, _, rest, row, item, feature, Policy.name_foldl_set _ _, inside, ?_,
    directive, Policy.kept_iff _ _, fun declared out output => ?_, Policy.kept_written_iff _ _⟩
  · rw [entity_fst]
  · obtain ⟨e, inSchema, named, policy, inEntity, same⟩ :=
      Schema.exists_policy_of_declared declared directive feature
    have created := Ddl.policy_mem_of_generate (generate_of_output output) inSchema inEntity
    rw [named, same] at created
    exact ⟨created, Policy.policySql_eq _ _⟩

/-- The line of a policy with two clauses, as the tokens of a document. -/
def guardLine : List Token :=
  [⟨.keyword .policy, "POLICY", 2, 3, 5, 11, 2⟩, ⟨.identifier, "p", 2, 10, 12, 13, 2⟩,
    ⟨.identifier, "FOR", 2, 12, 14, 17, 2⟩, ⟨.identifier, "select", 2, 16, 18, 24, 2⟩,
    ⟨.identifier, "USING", 2, 23, 25, 30, 2⟩, ⟨.expr, "a", 2, 29, 31, 34, 2⟩]

theorem policy_clauses_kept_of_guardLine :
    (⟨.entity, "A", 1, 1, 0, 2, 1⟩, guardLine) ∈
        statementGroups (Scan.ofBytes (Text.bytes ":A\n  POLICY p FOR select USING (a)\n")).body ∧
      (entityLine (Text.slice ":A\n  POLICY p FOR select USING (a)\n".toList)
        ⟨⟨.entity, "A", 1, 1, 0, 2, 1⟩, guardLine, true⟩).fault = none ∧
      ∃ e d p, .entity e ∈ (document "" (Text.bytes ":A\n  POLICY p FOR select USING (a)\n") {}).statements ∧
        d ∈ e.directives ∧ d.feature = .policy p ∧ p.name = "p" := by
  have statement : (⟨.entity, "A", 1, 1, 0, 2, 1⟩, guardLine) ∈
      statementGroups (Scan.ofBytes (Text.bytes ":A\n  POLICY p FOR select USING (a)\n")).body := by
    rw [Scan.ofBytes_bytes]
    decide +kernel
  have faultless : (entityLine (Text.slice ":A\n  POLICY p FOR select USING (a)\n".toList)
      ⟨⟨.entity, "A", 1, 1, 0, 2, 1⟩, guardLine, true⟩).fault = none := by decide +kernel
  obtain ⟨t, name, ts, parts, e, d, p, line, -, -, feature, named, inside, -, mem, -⟩ :=
    @policy_clauses_kept_iff "" _ {} _ (Text.decode?_bytes _) _ _ _ statement rfl (by decide +kernel) _ _
      ⟨_, rfl, rfl⟩ rfl faultless
  cases line
  exact ⟨statement, faultless, e, d, p, inside, mem, feature, named⟩

/-- A policy with two clauses of one kind: the first one is in no SQL, and nothing is reported. -/
theorem policy_clause_lost :
    (read "" (Text.bytes ":A\n  INT $.id PK\n  POLICY p USING (a) USING (b)\n") Plugin.Registry.empty).2 =
        ([], []) ∧
      (run "" (Text.bytes ":A\n  INT $.id PK\n  POLICY p USING (a) USING (b)\n") {}).sql =
        "CREATE TABLE A (id INT PRIMARY KEY);\nCREATE POLICY p ON A USING (b);\n" := by
  constructor
  · rw [read_bytes]
    decide +kernel
  · simp only [run, analyse, read_bytes]
    decide +kernel

end Compilation

end ErdSql
