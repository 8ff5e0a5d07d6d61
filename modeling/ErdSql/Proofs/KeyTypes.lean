import ErdSql.Proofs.References

/-!
# Types of references

A column that refers to an entity has the type of the key it refers to, however long the chain of
references is and whether it ends or not.

* `Schema.KeyOf`: the scalar key field that a field of entity type refers to.
* `Schema.exists_end_or_cycle`: a chain of references ends within as many steps as there are entities,
  or it runs into a circle.
* `Ddl.elementType_of_length_le`: the bound on the recursion never cuts off a chain that ends.
* `Ddl.elementType_eq_text_iff`: what leads to the type `TEXT`.
* `Ddl.reference_types`: the two columns have one type, for every schema of a document.

The generator counts the references that it has followed and does not remember where it was. The key
depends only on the entity that is referred to, so a chain with more steps than entities has been at
one of them twice and goes on forever.
-/

namespace ErdSql

open Relation (ReflTransGen TransGen)

/-! ### Chains of references -/

namespace Schema

variable {s : Schema} {f g h : Field}

/-- The entity that types a field. -/
def entityOf? (s : Schema) (f : Field) : Option Entity :=
  match f.type.binding with
  | .entity id => s.entity? id
  | _ => none

/-- A field of entity type refers to a scalar field of that entity: the one that stands first in its
primary key, or that is called `id` where it has none. -/
def KeyOf (s : Schema) (f : Field) (target : Entity) (key : Field) : Prop :=
  entityOf? s f = some target ∧ target.field? (target.primaryKey.headD "id") = some key ∧
    key.cardinality = .scalar

instance (s : Schema) (f : Field) (target : Entity) (key : Field) : Decidable (KeyOf s f target key) :=
  inferInstanceAs (Decidable (_ ∧ _ ∧ _))

/-- A field refers to another one, which is its key. -/
def Reference (s : Schema) (f key : Field) : Prop := ∃ target, KeyOf s f target key

/-- The key that a field refers to, if there is one. -/
def key? (s : Schema) (f : Field) : Option Field :=
  (entityOf? s f).bind fun target =>
    (target.field? (target.primaryKey.headD "id")).filter fun key => key.cardinality == .scalar

lemma reference_iff : Reference s f g ↔ key? s f = some g := by
  simp [Reference, KeyOf, key?, Option.bind_eq_some_iff, Option.filter_eq_some_iff]

/-- Fields with the same binding refer to the same key. -/
lemma key?_congr (same : f.type.binding = g.type.binding) : key? s f = key? s g := by
  rw [key?, key?, entityOf?, entityOf?, same]

/-- A field with a key is bound to an entity of the schema. -/
lemma exists_binding_of_key? (hk : key? s f = some g) :
    ∃ id, f.type.binding = .entity id ∧ id < s.entities.length := by
  obtain ⟨target, typed, -⟩ := Option.bind_eq_some_iff.1 hk
  rw [entityOf?] at typed
  split at typed
  · next id bound => exact ⟨id, bound, (List.getElem?_eq_some_iff.1 typed).1⟩
  · cases typed

/-- The field that a number of references leads to, if there are so many. -/
def follow (s : Schema) (f : Field) : Nat → Option Field
  | 0 => some f
  | n + 1 => (follow s f n).bind (key? s)

lemma follow_succ {n : Nat} : follow s f (n + 1) = some h ↔
    ∃ g, follow s f n = some g ∧ Reference s g h := by
  simp [follow, Option.bind_eq_some_iff, reference_iff]

/-- The first reference of a chain. -/
lemma follow_of_reference (step : Reference s f g) (n : Nat) : follow s f (n + 1) = follow s g n := by
  induction n with
  | zero => simpa [follow] using reference_iff.1 step
  | succ n ih => rw [follow, ih, follow]

lemma follow_add {m : Nat} (hm : follow s f m = some g) (n : Nat) :
    follow s f (m + n) = follow s g n := by
  induction n with
  | zero => exact hm
  | succ n ih => rw [← Nat.add_assoc, follow, ih, follow]

/-- A chain with a number of references has all smaller numbers of them. -/
lemma exists_follow_of_le {m n : Nat} (hm : follow s f m ≠ none) (le : n ≤ m) :
    ∃ g, follow s f n = some g := by
  rw [← Option.ne_none_iff_exists']
  induction le with
  | refl => exact hm
  | step _ ih =>
    refine ih fun none => hm ?_
    rw [follow, none]
    rfl

/-- What is followed is reached. -/
lemma reflTransGen_of_follow {n : Nat} (hn : follow s f n = some g) :
    ReflTransGen (Reference s) f g := by
  induction n generalizing g with
  | zero =>
    cases hn
    exact .refl
  | succ n ih =>
    obtain ⟨before, led, step⟩ := follow_succ.1 hn
    exact (ih led).tail step

/-- A chain with fewer references than asked for ends at a field without key. -/
lemma exists_end_of_follow {n : Nat} (short : follow s f n = none) :
    ∃ g, ReflTransGen (Reference s) f g ∧ key? s g = none := by
  induction n with
  | zero => cases short
  | succ n ih =>
    cases led : follow s f n with
    | none => exact ih led
    | some g => exact ⟨g, reflTransGen_of_follow led, by simpa [follow, led] using short⟩

/-- A chain with more references than there are entities runs into a circle: it has met one of the
entities twice, and the key depends on nothing else. -/
lemma exists_cycle_of_follow (long : follow s f (s.entities.length + 1) ≠ none) :
    ∃ g, ReflTransGen (Reference s) f g ∧ TransGen (Reference s) g g := by
  have met (n : Fin (s.entities.length + 1)) : ∃ id : Fin s.entities.length, ∃ g,
      follow s f n = some g ∧ g.type.binding = .entity id := by
    obtain ⟨h, hh⟩ := exists_follow_of_le long (Nat.succ_le_of_lt n.isLt)
    obtain ⟨g, led, step⟩ := follow_succ.1 hh
    obtain ⟨id, bound, lt⟩ := exists_binding_of_key? (reference_iff.1 step)
    exact ⟨⟨id, lt⟩, g, led, bound⟩
  choose id at_ led bound using met
  obtain ⟨i, j, apart, same⟩ := Fintype.exists_ne_map_eq_of_card_lt id (by simp)
  wlog lt : i < j generalizing i j
  · exact this j i apart.symm same.symm (lt_of_le_of_ne (not_lt.1 lt) apart.symm)
  -- both fields refer to the same key, so the references between the two lead from it to itself
  obtain ⟨g, hg⟩ := exists_follow_of_le long (Nat.succ_le_of_lt i.isLt)
  have again : follow s f (j + 1) = some g := by
    rw [follow, led] at hg ⊢
    rw [← hg]
    exact key?_congr (by rw [bound, bound, same])
  obtain ⟨n, hn⟩ : ∃ n, (j : Nat) = i + (n + 1) := ⟨j - i - 1, by omega⟩
  have circle : follow s g (n + 1) = some g := by
    rw [← follow_add hg, ← again]
    congr 1
    omega
  obtain ⟨before, led, step⟩ := follow_succ.1 circle
  exact ⟨g, reflTransGen_of_follow hg, .tail' (reflTransGen_of_follow led) step⟩

end Schema

open Schema

namespace Ddl

variable {d : Dialect} {s : Schema} {f g : Field} {fuel : Nat}

/-! ### The recursion along a chain -/

/-- A field of entity type has the type of its key, as far as fuel lasts. -/
lemma elementType_of_entity {id : Nat} (bound : f.type.binding = .entity id) :
    elementType d s (fuel + 1) f = match key? s f with
      | some key => elementType d s fuel key
      | none => .text := by
  conv_lhs => unfold elementType
  rw [key?, entityOf?, bound]
  dsimp only
  cases s.entity? id with
  | none => rfl
  | some target =>
    rw [Option.bind_some, List.headD_eq_head?_getD]
    dsimp only
    cases target.field? (target.primaryKey.head?.getD "id") with
    | none => rfl
    | some key =>
      rw [Option.filter_some]
      dsimp only
      split <;> rfl

/-- A field of entity type has the type of text without fuel. -/
lemma elementType_zero_of_entity {id : Nat} (bound : f.type.binding = .entity id) :
    elementType d s 0 f = .text := by
  rw [elementType, bound]

/-- A reference has the type of its key, found with the fuel that is left. -/
lemma elementType_succ (step : Reference s f g) :
    elementType d s (fuel + 1) f = elementType d s fuel g := by
  have key := reference_iff.1 step
  obtain ⟨id, bound, -⟩ := exists_binding_of_key? key
  rw [elementType_of_entity bound, key]

/-- Without key the fuel does not matter. -/
lemma elementType_of_key?_eq_none (none : key? s f = none) :
    elementType d s fuel f = elementType d s 0 f := by
  cases bound : f.type.binding with
  | entity id =>
    rw [elementType_zero_of_entity bound]
    cases fuel with
    | zero => exact elementType_zero_of_entity bound
    | succ fuel => rw [elementType_of_entity bound, none]
  | _ =>
    unfold elementType
    rw [bound]

/-- A chain that ends is followed to its end, if the fuel is no less than its references. -/
lemma elementType_of_follow_eq_none {n : Nat} (short : follow s f (n + 1) = none)
    (enough : n ≤ fuel) : elementType d s fuel f = elementType d s n f := by
  induction n generalizing f fuel with
  | zero => exact elementType_of_key?_eq_none (by simpa [follow] using short)
  | succ n ih =>
    cases key : key? s f with
    | none => rw [elementType_of_key?_eq_none key, ← elementType_of_key?_eq_none key]
    | some g =>
      have step := reference_iff.2 key
      obtain ⟨fuel, rfl⟩ : ∃ k, fuel = k + 1 := ⟨fuel - 1, by omega⟩
      rw [elementType_succ step, elementType_succ step]
      rw [follow_of_reference step] at short
      exact ih short (by omega)

/-- A chain that runs into a circle gives text, whatever the fuel. -/
lemma elementType_of_cycle (led : ReflTransGen (Reference s) f g)
    (circle : TransGen (Reference s) g g) : elementType d s fuel f = .text := by
  obtain ⟨key, step, onward⟩ : ∃ key, Reference s f key ∧ ReflTransGen (Reference s) key g := by
    rcases led.cases_head with rfl | first
    · exact TransGen.head'_iff.1 circle
    · exact first
  induction fuel generalizing f key with
  | zero =>
    obtain ⟨id, bound, -⟩ := exists_binding_of_key? (reference_iff.1 step)
    exact elementType_zero_of_entity bound
  | succ fuel ih =>
    rw [elementType_succ step]
    rcases onward.cases_head with rfl | ⟨next, first, rest⟩
    · obtain ⟨next, first, rest⟩ := TransGen.head'_iff.1 circle
      exact ih onward next first rest
    · exact ih onward next first rest

/-- The bound on the recursion cuts off no chain that ends: more fuel than entities changes
nothing. -/
lemma elementType_of_length_le (enough : s.entities.length ≤ fuel) :
    elementType d s fuel f = elementType d s s.entities.length f := by
  by_cases short : follow s f (s.entities.length + 1) = none
  · exact elementType_of_follow_eq_none short enough
  · obtain ⟨g, led, circle⟩ := exists_cycle_of_follow short
    rw [elementType_of_cycle led circle, elementType_of_cycle led circle]

/-- With as much fuel as entities, a reference and its key have one type. -/
lemma elementType_of_reference (step : Reference s f g) :
    elementType d s s.entities.length f = elementType d s s.entities.length g := by
  rw [← elementType_of_length_le (Nat.le_succ _), elementType_succ step]

/-! ### Chains that give text -/

/-- The type in SQL that a field has by itself; a reference has none. -/
def ownType (d : Dialect) (f : Field) : Option String :=
  match f.type.binding, d with
  | .entity _, _ => none
  | .enum _, .postgresql => some (Sql.name f.type.name)
  | .enum _, .sqlite => some "TEXT"
  | _, _ => some f.type.text

/-- A chain of references gives text: it ends at a field whose own type is `TEXT`, or at a reference
without scalar key, or it runs into a circle. -/
inductive LeadsToText (d : Dialect) (s : Schema) (f : Field) : Prop
  | written {g : Field} : ReflTransGen (Reference s) f g → ownType d g = some "TEXT" →
      LeadsToText d s f
  | lost {g : Field} {id : Nat} : ReflTransGen (Reference s) f g → g.type.binding = .entity id →
      (∀ key, ¬ Reference s g key) → LeadsToText d s f
  | circle {g : Field} : ReflTransGen (Reference s) f g → TransGen (Reference s) g g →
      LeadsToText d s f

/-- A field that is no reference has its own type. -/
lemma ownType_eq (apart : ∀ id, f.type.binding ≠ .entity id) :
    ownType d f = some (elementType d s fuel f).sql := by
  unfold ownType elementType
  cases bound : f.type.binding with
  | entity id => exact absurd bound (apart id)
  | enum id => cases d <;> rfl
  | _ => rfl

/-- The type that a chain of references gives is `TEXT` in three cases and no others. -/
lemma sql_elementType_eq_text_iff :
    (elementType d s s.entities.length f).sql = "TEXT" ↔ LeadsToText d s f := by
  have same {g : Field} (led : ReflTransGen (Reference s) f g) :
      elementType d s s.entities.length f = elementType d s s.entities.length g := by
    induction led with
    | refl => rfl
    | tail _ step ih => rw [ih, elementType_of_reference step]
  constructor
  · intro text
    by_cases short : follow s f (s.entities.length + 1) = none
    · obtain ⟨g, led, last⟩ := exists_end_of_follow short
      rw [same led] at text
      cases bound : g.type.binding with
      | entity id => exact .lost led bound fun key step => by simp [reference_iff.1 step] at last
      | _ => exact .written led (by rw [ownType_eq (by simp [bound]), text])
    · obtain ⟨g, led, circle⟩ := exists_cycle_of_follow short
      exact .circle led circle
  · rintro (⟨led, own⟩ | ⟨led, bound, lost⟩ | ⟨led, circle⟩)
    · rw [same led]
      refine Option.some.inj ((ownType_eq fun id bound => ?_).symm.trans own)
      unfold ownType at own
      rw [bound] at own
      cases own
    · have none := Option.eq_none_iff_forall_ne_some.2 fun key found => lost key (reference_iff.2 found)
      rw [same led, elementType_of_key?_eq_none none, elementType_zero_of_entity bound]
      rfl
    · rw [elementType_of_cycle led circle]
      rfl

/-! ### Columns of a script -/

/-- The type in SQL of a column of a script, by the names of its table and itself. -/
def Output.columnType? (out : Output) (table column : String) : Option String :=
  (out.column? table column).map (·.typeSql out.dialect)

/-- The column of a scalar field has the element type as its type. -/
lemma columnType?_of_generate {opts : Options} {s : Schema} {out : Output}
    (generated : generate opts s = .ok out) (apart : (s.entities.map (·.name)).Nodup) {e : Entity}
    (he : e ∈ s.entities) (nodup : (e.fields.map (·.name)).Nodup) {f : Field} (hf : f ∈ e.fields)
    (scalar : f.cardinality = .scalar) :
    out.columnType? e.name f.name =
      some (elementType opts.dialect s (s.entities.length + 1) f).sql := by
  have single : f.isColumn = true := by rw [Field.isColumn, scalar]; rfl
  rw [Output.columnType?, column?_of_generate generated apart he nodup hf single, Option.map_some,
    Column.typeSql, column, scalar]
  rfl

/-- A column that refers to an entity has the type of the column it refers to, for every schema of a
document, in both dialects and through any chain of references. No larger bound on the recursion would
give another type. The type is `TEXT` exactly if the chain ends in `TEXT` or at a reference without
scalar key, or runs into a circle. -/
theorem reference_types (doc : Document) {opts : Options} {out : Output}
    (generated : generate opts (ofDocument doc).1 = .ok out) {e : Entity}
    (he : e ∈ (ofDocument doc).1.entities) {f : Field} (hf : f ∈ e.fields)
    (scalar : f.cardinality = .scalar) {target : Entity} {key : Field}
    (refers : KeyOf (ofDocument doc).1 f target key) :
    ∃ type, out.columnType? e.name f.name = some type ∧
      out.columnType? target.name key.name = some type ∧
      (∀ fuel, (ofDocument doc).1.entities.length ≤ fuel →
        (elementType opts.dialect (ofDocument doc).1 fuel f).sql = type) ∧
      (type = "TEXT" ↔ LeadsToText opts.dialect (ofDocument doc).1 f) := by
  have apart := entity_names_nodup doc
  obtain ⟨typed, found, keyScalar⟩ := refers
  have known : target ∈ (ofDocument doc).1.entities := by
    rw [entityOf?] at typed
    split at typed
    · exact List.mem_of_getElem? typed
    · cases typed
  have listed : key ∈ target.fields := List.mem_of_find?_eq_some found
  have step : Reference (ofDocument doc).1 f key := ⟨target, typed, found, keyScalar⟩
  refine ⟨(elementType opts.dialect (ofDocument doc).1 (ofDocument doc).1.entities.length f).sql,
    ?_, ?_, ?_, sql_elementType_eq_text_iff⟩
  · rw [columnType?_of_generate generated apart he (field_names_nodup _ _ he) hf scalar,
      elementType_of_length_le (Nat.le_succ _)]
  · rw [columnType?_of_generate generated apart known (field_names_nodup _ _ known) listed keyScalar,
      elementType_of_length_le (Nat.le_succ _), ← elementType_of_reference step]
  · intro fuel enough
    rw [elementType_of_length_le enough]

lemma generate_of_mem_toOption {opts : Options} {s : Schema} {out : Output}
    (found : out ∈ (generate opts s).toOption) : generate opts s = .ok out := by
  cases outcome : generate opts s with
  | error _ => simp [outcome, Except.toOption] at found
  | ok _ => simpa [outcome, Except.toOption] using found

/-- Blocks with a chain of references to a key, and a block whose key refers to itself. -/
def branches : Document :=
  Compilation.document "branches.erd" (Text.bytes
    (":Firm\n  varchar(20) $.code PK\n:Branch\n  Firm $.firm PK\n:Knot\n  Knot $.knot PK\n" ++
      ":Visit\n  Branch $.branch\n  Knot $.knot\n")) {}

/-- The first reference of a visit has the type at the end of its chain; the other one is text. -/
theorem reference_types_of_branches :
    ∃ out, generate {} (ofDocument branches).1 = .ok out ∧
      out.columnType? "Visit" "branch" = some "VARCHAR(20)" ∧
      out.columnType? "Visit" "knot" = some "TEXT" ∧
      ∃ e ∈ (ofDocument branches).1.entities, ∃ f ∈ e.fields, ∃ target ∈ (ofDocument branches).1.entities,
        ∃ key ∈ target.fields, e.name = "Visit" ∧ f.name = "branch" ∧ f.cardinality = .scalar ∧
          KeyOf (ofDocument branches).1 f target key ∧
          ∃ type, out.columnType? e.name f.name = some type ∧
            out.columnType? target.name key.name = some type ∧
            (∀ fuel, (ofDocument branches).1.entities.length ≤ fuel →
              (elementType .postgresql (ofDocument branches).1 fuel f).sql = type) ∧
            (type = "TEXT" ↔ LeadsToText .postgresql (ofDocument branches).1 f) := by
  have facts : ∃ out ∈ (generate {} (ofDocument branches).1).toOption,
      (out.columnType? "Visit" "branch" = some "VARCHAR(20)" ∧
        out.columnType? "Visit" "knot" = some "TEXT") ∧
      ∃ e ∈ (ofDocument branches).1.entities, ∃ f ∈ e.fields, ∃ target ∈ (ofDocument branches).1.entities,
        ∃ key ∈ target.fields, e.name = "Visit" ∧ f.name = "branch" ∧ f.cardinality = .scalar ∧
          KeyOf (ofDocument branches).1 f target key := by
    rw [branches, Compilation.document, Compilation.read_bytes, String.toList_append]
    decide +kernel
  obtain ⟨out, found, types, e, he, f, hf, target, ht, key, hk, named, called, scalar, refers⟩ := facts
  have generated : generate {} (ofDocument branches).1 = .ok out := generate_of_mem_toOption found
  exact ⟨out, generated, types.1, types.2, e, he, f, hf, target, ht, key, hk, named, called, scalar, refers,
    reference_types branches generated he hf scalar refers⟩

end Ddl

end ErdSql
