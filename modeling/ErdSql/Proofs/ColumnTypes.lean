import ErdSql.Proofs.Integrity
import ErdSql.Proofs.TableKeys

/-!
# Types of columns

Where the type of a column comes from.

* `Schema.bindType_cases`: what a type name is bound to.
* `Compilation.TypedAs`: the type that a field line asks for, by the rules of the language.
* `Compilation.typedAs_elementType`: the generator follows the rules, from reference to reference.
* `Compilation.column_types`: the columns of an accepted document.

A field of entity type has the type of the key that it refers to, which may be of entity type again.
The rules count the references that were followed, as the generator does with its fuel.
-/

namespace ErdSql

open Schema

/-! ### Binding -/

namespace Schema

/-- A type name is bound to an entity, else to an enumeration, else to a base type, else to nothing. -/
lemma bindType_cases (doc : Document) (t : Document.TypeRef) :
    (∃ id, (ofDocument doc).1.lookupEntity t.name = some id ∧
      bindType (declaredNames doc) t = ⟨t.name, t.args, .entity id, t.span⟩) ∨
    (∃ id, (ofDocument doc).1.lookupEnum t.name = some id ∧
      bindType (declaredNames doc) t = ⟨t.name, t.args, .enum id, t.span⟩) ∨
    ((ofDocument doc).1.lookupEntity t.name = none ∧ (ofDocument doc).1.lookupEnum t.name = none ∧
      ((BaseType.isBase t.name = true ∧
        bindType (declaredNames doc) t = ⟨BaseType.canonical t.name, t.args, .base, t.span⟩) ∨
      (BaseType.isBase t.name = false ∧
        bindType (declaredNames doc) t = ⟨t.name, t.args, .unresolved, t.span⟩))) := by
  unfold bindType
  rw [names_entity?, names_enum?]
  cases entity : (ofDocument doc).1.lookupEntity t.name with
  | some id => exact .inl ⟨id, rfl, rfl⟩
  | none =>
    cases enum : (ofDocument doc).1.lookupEnum t.name with
    | some id => exact .inr (.inl ⟨id, rfl, rfl⟩)
    | none =>
      cases base : BaseType.isBase t.name with
      | true => exact .inr (.inr ⟨rfl, rfl, .inl ⟨rfl, rfl⟩⟩)
      | false => exact .inr (.inr ⟨rfl, rfl, .inr ⟨rfl, rfl⟩⟩)

/-- A type that names an entity is bound to it. -/
lemma binding_of_lookupEntity {doc : Document} {t : Document.TypeRef} {id : Nat}
    (found : (ofDocument doc).1.lookupEntity t.name = some id) :
    (bindType (declaredNames doc) t).binding = .entity id := by
  rw [bindType, names_entity?, found]

end Schema

/-! ### The key that a reference is to -/

namespace Document.Entity

/-- The name of the first key column of a block: that of the merged key if it has several, else that of
the marked field; `id` without key. -/
def keyName (node : Entity) : String :=
  if node.mergedKey.length < 2 then ((node.fields.find? node.marks).map (·.name)).getD "id"
  else node.mergedKey.headD "id"

/-- The scalar field line that a reference to a block takes its type from. -/
def keyLine? (node : Entity) : Option Field :=
  (node.fields.find? fun f => f.name == node.keyName).filter fun f => f.cardinality == .scalar

end Document.Entity

namespace Compilation

open Ddl

/-! ### Rules for types -/

/-- The element type that a field line asks for in a script, where `depth` references lead to it. -/
inductive TypedAs (doc : Document) (out : Output) : Nat → Document.Field → ElementType → Prop
  /-- A base type, with the arguments as written. -/
  | base {depth : Nat} {f : Document.Field} {t : FieldType} :
      (ofDocument doc).1.lookupEntity f.type.name = none →
      (ofDocument doc).1.lookupEnum f.type.name = none →
      BaseType.isBase f.type.name = true → t.name = BaseType.canonical f.type.name →
      t.args = f.type.args → TypedAs doc out depth f (.written t)
  /-- An enumeration type, which the script creates. -/
  | enum {depth : Nat} {f : Document.Field} {labels : List String} :
      out.dialect = .postgresql → .enum f.type.name labels ∈ out.statements →
      TypedAs doc out depth f (.enum f.type.name)
  /-- An enumeration where there are no enumeration types. -/
  | label {depth : Nat} {f : Document.Field} {e : Enum} :
      out.dialect = .sqlite → e ∈ (ofDocument doc).1.enums → e.name = f.type.name →
      TypedAs doc out depth f .text
  /-- The type of the key that the field refers to. -/
  | key {depth : Nat} {f key : Document.Field} {node : Document.Entity} {t : ElementType} :
      node ∈ doc.entities → node.name = f.type.name → depth ≤ doc.entities.length →
      node.keyLine? = some key → TypedAs doc out (depth + 1) key t → TypedAs doc out depth f t
  /-- The key that the field refers to is no scalar, or the references lead in a circle. -/
  | fallback {depth : Nat} {f : Document.Field} {node : Document.Entity} :
      node ∈ doc.entities → node.name = f.type.name →
      (doc.entities.length < depth ∨ node.keyLine? = none) → TypedAs doc out depth f .text
  /-- A name that stands for nothing, on a field whose foreign key names its target. -/
  | foreign {depth : Nat} {f : Document.Field} {node : Document.Entity} {t : FieldType} :
      (ofDocument doc).1.lookupEntity f.type.name = none →
      (ofDocument doc).1.lookupEnum f.type.name = none →
      BaseType.isBase f.type.name = false → node ∈ doc.entities →
      f.states (.foreignKey (some node.name)) = true → t.name = f.type.name → t.args = f.type.args →
      TypedAs doc out depth f (.written t)

/-- The enumerations of a schema are created where there are enumeration types. -/
lemma enum_mem_of_generate {opts : Options} {s : Schema} {out : Output}
    (h : generate opts s = .ok out) (types : opts.dialect.supports .enumTypes = true) {e : Enum}
    (he : e ∈ s.enums) : .enum e.name e.labels ∈ out.statements := by
  obtain ⟨blocks, -, rfl⟩ := exists_blocks_of_generate h
  have created : Statement.enum e.name e.labels ∈
      if opts.dialect.supports .enumTypes then s.enums.map fun e => .enum e.name e.labels else [] := by
    rw [if_pos types]
    exact List.mem_map_of_mem he
  refine List.mem_append_left _ ?_
  rw [schemaStatements_eq]
  simp only [List.append_assoc]
  exact List.mem_append_right _ (List.mem_append_left _ created)

/-- An entity that is found by name was built from a block of that name. -/
lemma exists_block_of_lookupEntity {doc : Document} {name : String} {id : Nat}
    (h : (ofDocument doc).1.lookupEntity name = some id) :
    ∃ node, (declaredEntities doc)[id]? = some node ∧ node.name = name ∧
      (ofDocument doc).1.entity? id = some (builtEntity doc id node) := by
  have found := (findIdx?_name_eq_some_iff (entity_names_nodup doc)).1 h
  rw [entity?]
  rw [entities_ofDocument, List.getElem?_mapIdx] at found ⊢
  cases block : (declaredEntities doc)[id]? with
  | none =>
    rw [block] at found
    cases found
  | some node =>
    rw [block] at found
    refine ⟨node, rfl, ?_, rfl⟩
    simpa using found

section Accepted
variable {doc : Document} (reported : (ofDocument doc).2 = [])
  (checked : Diagnostic.hasErrors (Check.run (ofDocument doc).1) = false)
  {id : Nat} {node : Document.Entity} (hn : (declaredEntities doc)[id]? = some node)
include reported checked hn

/-- The first key column of an accepted block. -/
lemma head_primaryKey :
    (builtEntity doc id node).primaryKey.head?.getD "id" = node.keyName := by
  obtain ⟨⟨span, fields⟩, composite, -⟩ := builtEntity_keys reported checked hn
  rw [Entity.primaryKey, composite, Document.Entity.keyName]
  by_cases short : node.mergedKey.length < 2
  · have marked : (builtEntity doc id node).fields.find? (·.carries .primaryKey) =
        ((node.fields.find? node.marks).map (buildField (declaredNames doc))).map (keyed node span) := by
      rw [fields, List.find?_map, List.find?_map]
      refine congrArg (fun p => ((node.fields.find? p).map _).map _) (funext fun f => ?_)
      exact (carries_keyed_primaryKey _ _ _).trans
        (congrArg (· || _) (carries_buildField_simple _ f).1)
    rw [if_pos short, if_pos short, marked]
    cases node.fields.find? node.marks with
    | none => rfl
    | some f => simp
  · rw [if_neg short, if_neg short]
    cases node.mergedKey <;> rfl

/-- A field that refers to an accepted block has the type of its key line, as far as fuel lasts. -/
lemma elementType_reference {g : Field} (bound : g.type.binding = .entity id) (d : Dialect)
    (fuel : Nat) : ∃ span, elementType d (ofDocument doc).1 (fuel + 1) g =
      match node.keyLine? with
      | none => .text
      | some key => elementType d (ofDocument doc).1 fuel
          (keyed node span (buildField (declaredNames doc) key)) := by
  obtain ⟨⟨span, fields⟩, -⟩ := builtEntity_keys reported checked hn
  refine ⟨span, ?_⟩
  have target : (ofDocument doc).1.entity? id = some (builtEntity doc id node) := by
    rw [entity?, entities_ofDocument, List.getElem?_mapIdx, hn]
    rfl
  have found : (builtEntity doc id node).field? node.keyName =
      ((node.fields.find? fun f => f.name == node.keyName).map (buildField (declaredNames doc))).map
        (keyed node span) := by
    rw [Entity.field?, fields, List.find?_map, List.find?_map]
    refine congrArg (fun p => ((node.fields.find? p).map _).map _) (funext fun f => ?_)
    simp
  conv_lhs => unfold elementType
  rw [bound]
  dsimp only
  rw [target]
  dsimp only
  rw [head_primaryKey reported checked hn, found, Document.Entity.keyLine?]
  cases node.fields.find? fun f => f.name == node.keyName with
  | none => rfl
  | some key =>
    simp only [Option.map_some, keyed_cardinality, buildField_cardinality, Option.filter_some]
    split <;> simp_all

/-- A field line of an accepted block whose type stands for nothing has a foreign key that names its
target. -/
lemma states_foreignKey_of_unresolved {f : Document.Field} (hf : f ∈ node.fields)
    (unbound : (bindType (declaredNames doc) f.type).binding = .unresolved) :
    ∃ target ∈ doc.entities, f.states (.foreignKey (some target.name)) = true := by
  have typed := (List.append_eq_nil_iff.1 (unresolvedOf_eq_nil reported checked hn hf)).2
  have carried : (buildField (declaredNames doc) f).carries .foreignKey = true := by
    by_contra none
    have type : (buildField (declaredNames doc) f).type.binding = .unresolved := unbound
    rw [if_pos (by simp [type, none])] at typed
    cases typed
  rw [carries_buildField, List.any_eq_true] at carried
  obtain ⟨c, hc, kind⟩ := carried
  obtain ⟨clause, span⟩ := c
  cases clause with
  | foreignKey explicit =>
    obtain ⟨id, bound, -⟩ := target_of_mem_buildField reported checked hn hf
      (List.mem_map_of_mem hc)
    cases explicit with
    | none =>
      -- without a name, the target would be that of the type
      simp [unbound] at bound
    | some target =>
      replace bound : (declaredNames doc).entity? target = some id := bound
      rw [names_entity?] at bound
      obtain ⟨block, found, rfl, -⟩ := exists_block_of_lookupEntity bound
      rw [← declaredEntities_of_snd_eq_nil reported]
      exact ⟨block, List.mem_of_getElem? found, List.any_eq_true.2 ⟨_, hc, by simp⟩⟩
  | _ => cases kind

end Accepted

section Typing
variable {doc : Document} (reported : (ofDocument doc).2 = [])
  (checked : Diagnostic.hasErrors (Check.run (ofDocument doc).1) = false)
  {opts : Options} {out : Output} (generated : generate opts (ofDocument doc).1 = .ok out)
include reported checked generated

/-- A field whose type names no entity has the type that its line asks for, whatever fuel is left. -/
lemma typedAs_of_lookupEntity_eq_none {id : Nat} {node : Document.Entity}
    (hn : (declaredEntities doc)[id]? = some node) {f : Document.Field} (hf : f ∈ node.fields)
    {g : Field} (hg : g.type = bindType (declaredNames doc) f.type)
    (none : (ofDocument doc).1.lookupEntity f.type.name = none) (fuel depth : Nat) :
    TypedAs doc out depth f (elementType opts.dialect (ofDocument doc).1 fuel g) := by
  have dialect := dialect_of_generate generated
  unfold elementType
  rw [hg]
  rcases bindType_cases doc f.type with
    ⟨id, found, -⟩ | ⟨id, found, bound⟩ | ⟨-, unlabelled, ⟨base, bound⟩ | ⟨unknown, bound⟩⟩
  · rw [none] at found
    cases found
  · have nodup := (List.nodup_append.1 (@names_nodup_ofDocument doc)).2.1
    have known := (findIdx?_name_eq_some_iff nodup).1 found
    obtain ⟨e, he, name⟩ := Option.map_eq_some_iff.1 known
    rw [bound]
    dsimp only
    split
    · next types =>
      have created := enum_mem_of_generate generated types (List.mem_of_getElem? he)
      rw [name] at created
      refine .enum ?_ created
      rw [dialect]
      cases hd : opts.dialect with
      | postgresql => rfl
      | sqlite =>
        rw [hd] at types
        cases types
    · next types =>
      refine .label ?_ (List.mem_of_getElem? he) name
      rw [dialect]
      cases hd : opts.dialect with
      | postgresql =>
        rw [hd] at types
        exact absurd rfl types
      | sqlite => rfl
  · rw [bound]
    exact .base none unlabelled base rfl rfl
  · obtain ⟨target, known, states⟩ :=
      states_foreignKey_of_unresolved reported checked hn hf (by rw [bound])
    rw [bound]
    exact .foreign none unlabelled unknown known states rfl rfl

/-- The generator gives a field the type that its line asks for. The fuel left and the references that
were followed add up to one more than the number of blocks. -/
lemma typedAs_elementType {fuel depth : Nat} (steps : fuel + depth = doc.entities.length + 1)
    {id : Nat} {node : Document.Entity} (hn : (declaredEntities doc)[id]? = some node)
    {f : Document.Field} (hf : f ∈ node.fields) {g : Field}
    (hg : g.type = bindType (declaredNames doc) f.type) :
    TypedAs doc out depth f (elementType opts.dialect (ofDocument doc).1 fuel g) := by
  induction fuel generalizing depth id node f g with
  | zero =>
    cases found : (ofDocument doc).1.lookupEntity f.type.name with
    | none => exact typedAs_of_lookupEntity_eq_none reported checked generated hn hf hg found _ _
    | some target =>
      obtain ⟨block, hb, name, -⟩ := exists_block_of_lookupEntity found
      have known : block ∈ doc.entities := by
        rw [← declaredEntities_of_snd_eq_nil reported]
        exact List.mem_of_getElem? hb
      unfold elementType
      rw [hg, binding_of_lookupEntity found]
      exact .fallback known name (.inl (by omega))
  | succ fuel ih =>
    cases found : (ofDocument doc).1.lookupEntity f.type.name with
    | none => exact typedAs_of_lookupEntity_eq_none reported checked generated hn hf hg found _ _
    | some target =>
      obtain ⟨block, hb, name, -⟩ := exists_block_of_lookupEntity found
      have known : block ∈ doc.entities := by
        rw [← declaredEntities_of_snd_eq_nil reported]
        exact List.mem_of_getElem? hb
      have bound : g.type.binding = .entity target := by rw [hg, binding_of_lookupEntity found]
      obtain ⟨span, eq⟩ := elementType_reference reported checked hb bound opts.dialect fuel
      rw [eq]
      cases line : block.keyLine? with
      | none => exact .fallback known name (.inr line)
      | some key =>
        have mem : key ∈ block.fields := List.mem_of_find?_eq_some (Option.filter_eq_some_iff.1 line).1
        exact .key known name (by omega) line (ih (by omega) hb mem (keyed_type _ _ _))

end Typing

/-- The columns of a document without errors are typed by the rules, block by block and field line by
field line, lists apart: with a base type, with an enumeration that the same script creates, or as the
key that the field refers to. Only a foreign key that names its target lets another name through. -/
theorem column_types {path : String} {src : List UInt8} {o : CompileOptions}
    (accepted : (run path src o).valid = true) :
    ∃ out, (run path src o).output = some out ∧ out.dialect = o.dialect ∧
      List.Forall₂ (fun node t => t.name = node.name ∧
        List.Forall₂ (fun f c => c.name = f.name ∧ c.isSet = (f.cardinality == .set) ∧
            TypedAs (document path src o) out 0 f c.element)
          (node.fields.filter fun f => f.cardinality != .list) t.columns)
        (document path src o).entities out.tables := by
  obtain ⟨out, output, generated⟩ := exists_output_of_valid accepted
  have reported := ofDocument_snd_eq_nil accepted
  have checked := check_of_valid accepted
  rw [run_schema] at generated checked
  refine ⟨out, output, dialect_of_generate generated,
    forall₂_tables reported generated fun id node keys hn _ => ⟨buildEntity_name, ?_⟩⟩
  obtain ⟨span, -, columns⟩ := columns_of_accepted reported checked hn (generateOptions o) keys
  rw [columns, List.forall₂_map_right_iff, List.forall₂_same]
  intro f hf
  refine ⟨by simp [column], by simp [column], ?_⟩
  have length : (ofDocument (document path src o)).1.entities.length =
      (document path src o).entities.length := by
    rw [entities_ofDocument, List.length_mapIdx, declaredEntities_of_snd_eq_nil reported]
  rw [column, length]
  have type : (keyed node span (buildField (declaredNames (document path src o)) f)).type =
      bindType (declaredNames (document path src o)) f.type := by
    rw [keyed_type, buildField]
  exact typedAs_elementType reported checked generated (Nat.add_zero _) hn
    (List.mem_of_mem_filter hf) type

/-- Blocks with arguments in types, an enumeration, a set, a chain of references and a circle. -/
def shelf : List UInt8 :=
  Text.bytes ("enum Level { low, high }\n:Author\n  varchar(20) $.code PK\n  Level $.level\n" ++
    ":Book\n  Author $.author PK\n  Book $.sequel\n  int %.marks\n:Loan\n  Book $.book FK\n" ++
    "  Loan $.next PK\n")

/-- The columns of the blocks have the types of their lines. -/
theorem column_types_of_shelf :
    (run "shelf.erd" shelf {}).valid = true ∧
      (run "shelf.erd" shelf {}).output.map (fun out => out.tables.map fun t =>
          t.columns.map fun c => c.typeSql .postgresql) =
        some [["VARCHAR(20)", "Level"], ["VARCHAR(20)", "VARCHAR(20)", "INT[]"],
          ["VARCHAR(20)", "TEXT"]] ∧
      ∃ out, (run "shelf.erd" shelf {}).output = some out ∧ out.dialect = .postgresql ∧
        List.Forall₂ (fun node t => t.name = node.name ∧
          List.Forall₂ (fun f c => c.name = f.name ∧ c.isSet = (f.cardinality == .set) ∧
              TypedAs (document "shelf.erd" shelf {}) out 0 f c.element)
            (node.fields.filter fun f => f.cardinality != .list) t.columns)
          (document "shelf.erd" shelf {}).entities out.tables := by
  have facts : (run "shelf.erd" shelf {}).valid = true ∧
      (run "shelf.erd" shelf {}).output.map (fun out => out.tables.map fun t =>
          t.columns.map fun c => c.typeSql .postgresql) =
        some [["VARCHAR(20)", "Level"], ["VARCHAR(20)", "VARCHAR(20)", "INT[]"],
          ["VARCHAR(20)", "TEXT"]] := by
    rw [run, analyse, shelf, read_bytes, String.toList_append, String.toList_append]
    decide +kernel
  exact ⟨facts.1, facts.2, column_types facts.1⟩

/-- A field of a type that nothing declares, whose foreign key names its target. -/
def untyped : List UInt8 :=
  Text.bytes ":User\n  INT $.id PK\n:B\n  INT $.id PK\n  Foo $.x FK(User)\n"

/-- The document has no errors, and yet a column has a type that is neither a base type nor declared. -/
theorem column_types_unknown :
    (run "untyped.erd" untyped {}).valid = true ∧
      (run "untyped.erd" untyped {}).output.map (fun out => out.tables.map fun t =>
          t.columns.map fun c => (c.name, c.typeSql .postgresql)) =
        some [[("id", "INT")], [("id", "INT"), ("x", "Foo")]] ∧
      BaseType.isBase "Foo" = false ∧
      (run "untyped.erd" untyped {}).schema.lookupEntity "Foo" = none ∧
      (run "untyped.erd" untyped {}).schema.lookupEnum "Foo" = none := by
  rw [run, analyse, untyped, read_bytes]
  decide +kernel

end Compilation

end ErdSql
