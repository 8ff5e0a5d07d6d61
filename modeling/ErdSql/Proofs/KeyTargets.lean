import ErdSql.Proofs.ColumnTypes
import ErdSql.Proofs.Findings
import ErdSql.Proofs.Lexemes
import ErdSql.Proofs.References

/-!
# Targets of foreign keys

Which entity a foreign key refers to, and what is reported where there is none.

* `Schema.StemOf`: the part of a field name that names an entity.
* `Schema.KeyTarget`: the entity that a foreign key refers to, by the rules of the language.
* `Schema.keyTarget_iff`: resolution follows the rules.
* `Schema.unresolved_ofDocument_eq`: the names that a schema leaves unbound, field by field.
* `Schema.oneIf_findings`: the findings about the names that a field leaves unbound.
* `Schema.references_reported`: what is reported about each field, and the foreign keys of scripts.

A target is looked up once, when the schema is built. The checks read what was kept of the failures, and
the generator what was kept of the others, so the two agree field by field.
-/

namespace ErdSql

/-! ### Rules -/

namespace Schema

/-- The entities of a schema, by their names in order. -/
def entityNames (s : Schema) : List String := s.entities.map (·.name)

/-- Whether a name is neither that of an entity nor that of an enumeration. -/
def IsUndeclared (s : Schema) (name : String) : Prop :=
  name ∉ s.entityNames ∧ name ∉ s.enums.map (·.name)

/-- Whether an ending marks a field name as a reference: `_id` in any case, if it is not all of the
name. -/
def KeyEnding (front ending : String) : Prop :=
  ending ∈ ["_id", "_iD", "_Id", "_ID"] ∧ front ≠ ""

instance (front ending : String) : Decidable (KeyEnding front ending) :=
  inferInstanceAs (Decidable (_ ∧ _))

/-- A field name without its ending, if it has one that marks it. -/
inductive StemOf (Marks : String → String → Prop) (field : String) : String → Prop
  | cut {front ending : String} :
    Marks front ending →
    field = front ++ ending →
    StemOf Marks field front
  | whole :
    (∀ front ending, Marks front ending → field ≠ front ++ ending) →
    StemOf Marks field field

/-- The target of a foreign key: the one that it names; else the entity that types the field; else,
where the field has a base type, the entity named like the stem of the field, or the first one that is
apart from case and underscores. -/
inductive KeyTarget (s : Schema) (stem type : String) : Option String → String → Prop
  | explicit {name : String} :
    name ∈ s.entityNames →
    KeyTarget s stem type (some name) name
  | typed :
    type ∈ s.entityNames →
    KeyTarget s stem type none type
  | exact :
    s.IsUndeclared type →
    BaseType.isBase type = true →
    stem ∈ s.entityNames →
    KeyTarget s stem type none stem
  | folded {before after : List String} {name : String} :
    s.IsUndeclared type →
    BaseType.isBase type = true →
    stem ∉ s.entityNames →
    s.entityNames = before ++ name :: after →
    foldName name = foldName stem →
    (∀ other ∈ before, foldName other ≠ foldName stem) →
    KeyTarget s stem type none name

end Schema

/-- The foreign keys behind a field name, each with the target that it names, if it does. -/
def Document.Field.foreignKeys (line : Document.Field) : List (Option String) :=
  line.constraints.filterMap fun c =>
    match c.clause with
    | .foreignKey explicit => some explicit
    | _ => none

/-- Whether a field line has a foreign key to an entity. -/
def Document.Field.RefersTo (Marks : String → String → Prop) (s : Schema) (line : Document.Field)
    (target : String) : Prop :=
  ∃ explicit ∈ line.foreignKeys, ∃ stem, Schema.StemOf Marks line.name stem ∧
    Schema.KeyTarget s stem line.type.name explicit target

/-- A list has one element if a condition holds, and none otherwise. -/
def OneIf {α : Type} (p : Prop) (xs : List α) : Prop :=
  (p → ∃ x, xs = [x]) ∧ (¬ p → xs = [])

lemma OneIf.congr {α : Type} {p q : Prop} {xs : List α} (h : OneIf p xs) (same : p ↔ q) :
    OneIf q xs := by
  rwa [OneIf, ← same]

lemma OneIf.map {α β : Type} {p : Prop} {xs : List α} (h : OneIf p xs) (g : α → β) :
    OneIf p (xs.map g) := by
  refine ⟨fun hp => ?_, fun hp => by rw [h.2 hp, List.map_nil]⟩
  obtain ⟨x, rfl⟩ := h.1 hp
  exact ⟨g x, rfl⟩

lemma oneIf_toList {α : Type} {p : Prop} {x : Option α} (same : x.isSome = true ↔ p) :
    OneIf p x.toList := by
  cases x with
  | none => exact ⟨fun hp => Bool.noConfusion (same.2 hp), fun _ => rfl⟩
  | some x => exact ⟨fun _ => ⟨x, rfl⟩, fun hp => absurd (same.1 rfl) hp⟩

lemma oneIf_of_length {α : Type} {p : Prop} [Decidable p] {xs : List α}
    (length : xs.length = if p then 1 else 0) : OneIf p xs := by
  refine ⟨fun hp => ?_, fun hp => ?_⟩
  · rw [if_pos hp] at length
    exact List.length_eq_one_iff.1 length
  · rw [if_neg hp] at length
    exact List.length_eq_zero_iff.1 length

/-- The findings of the checks with a code about a field. -/
def Check.findings (s : Schema) (code entity field : String) : List Diagnostic :=
  (run s).filter fun d => d.field == field && d.entity == entity && d.code == code

/-- The foreign keys of a script on a column, in the table of a name or added to it. -/
def Ddl.Output.foreignKeysOn (out : Output) (table column : String) : List ForeignKey :=
  (out.placedKeys.filter fun p => p.1 == table && p.2.column == column).map Prod.snd

namespace Schema

/-- What is reported about a field line, and what the scripts have for it: one foreign key if the line
refers to an entity, in the text of a statement about the table of the line. -/
structure Reported (Marks : String → String → Prop) (s : Schema) (e : Entity) (line : Document.Field)
    (f : Field) : Prop where
  name : f.name = line.name
  key : OneIf (line.foreignKeys ≠ [] ∧ ∀ target, ¬ line.RefersTo Marks s target)
    (Check.findings s Diagnostic.unresolvedForeignKey e.name f.name)
  type : OneIf (s.IsUndeclared line.type.name ∧ BaseType.isBase line.type.name = false ∧
      line.foreignKeys = [])
    (Check.findings s Diagnostic.unresolvedType e.name f.name)
  clause : ∀ opts out, Ddl.generate opts s = .ok out →
    OneIf ((∃ target, line.RefersTo Marks s target) ∧ line.cardinality ≠ .list)
        (out.foreignKeysOn e.name f.name) ∧
      ∀ k ∈ out.foreignKeysOn e.name f.name, line.RefersTo Marks s k.target ∧
        ∃ st ∈ out.statements, st.PutsOn out.dialect e.name k

/-! ### Stems -/

section Stems
variable {Marks : String → String → Prop} {field part : String}

/-- A field name up to its last three characters. -/
def front (field : String) : String :=
  String.ofList (field.toList.take (field.toList.length - 3))

/-- The last three characters of a field name. -/
def ending (field : String) : String :=
  String.ofList (field.toList.drop (field.toList.length - 3))

/-- Where endings have three characters, there is one way to cut a field name. -/
lemma stemOf_iff [∀ front ending, Decidable (Marks front ending)]
    (three : ∀ front ending, Marks front ending → ending.length = 3) :
    StemOf Marks field part ↔ part = if Marks (front field) (ending field) then front field else field := by
  have split : field = front field ++ ending field := by
    rw [← String.toList_inj]
    simp [front, ending]
  have unique {a b : String} (mark : Marks a b) (same : field = a ++ b) :
      a = front field ∧ b = ending field := by
    have length := three a b mark
    rw [← String.length_toList] at length
    have chars : field.toList = a.toList ++ b.toList := by rw [same, String.toList_append]
    have total : field.toList.length - 3 = a.toList.length := by
      rw [chars, List.length_append]
      omega
    constructor
    · rw [front, total, chars, List.take_left, String.ofList_toList]
    · rw [ending, total, chars, List.drop_left, String.ofList_toList]
  by_cases marked : Marks (front field) (ending field)
  · rw [if_pos marked]
    constructor
    · rintro (⟨mark, same⟩ | whole)
      · exact (unique mark same).1
      · exact absurd split (whole _ _ marked)
    · rintro rfl
      exact .cut marked split
  · rw [if_neg marked]
    constructor
    · rintro (⟨mark, same⟩ | -)
      · obtain ⟨rfl, rfl⟩ := unique mark same
        exact absurd mark marked
      · rfl
    · rintro rfl
      refine .whole fun a b mark same => marked ?_
      obtain ⟨rfl, rfl⟩ := unique mark same
      exact mark

/-- A character beyond ASCII is none of the characters of an ending, in any case. -/
lemma foldChar_of_le {c : Char} (beyond : 0x80 ≤ c.toNat) : 'k'.toNat ≤ (Text.foldChar c).toNat := by
  unfold Text.foldChar
  split
  · decide
  · split
    · decide
    · have same : c.toLower = c := by
        rw [Char.toLower, dif_neg]
        rintro ⟨-, le⟩
        exact absurd (show c.toNat ≤ 'Z'.toNat from le) (by simp; omega)
      rw [same]
      exact le_trans (by decide) beyond

/-- The spellings of the characters of an ending. -/
lemma foldChar_eq_iff (c : Char) : (Text.foldChar c = '_' ↔ c = '_') ∧
    (Text.foldChar c = 'i' ↔ c = 'i' ∨ c = 'I') ∧ (Text.foldChar c = 'd' ↔ c = 'd' ∨ c = 'D') := by
  have table : ∀ c : Char, c.toNat < 0x80 → (Text.foldChar c = '_' ↔ c = '_') ∧
      (Text.foldChar c = 'i' ↔ c = 'i' ∨ c = 'I') ∧ (Text.foldChar c = 'd' ↔ c = 'd' ∨ c = 'D') :=
    Text.forall_ascii (by decide)
  by_cases ascii : c.toNat < 0x80
  · exact table c ascii
  · have above := foldChar_of_le (not_lt.1 ascii)
    have apart {a : Char} (small : a.toNat < 'k'.toNat) : Text.foldChar c ≠ a ∧ c ≠ a := by
      constructor
      · rintro rfl
        omega
      · rintro rfl
        exact ascii (lt_trans small (by decide))
    obtain ⟨foldLine, line⟩ := @apart '_' (by decide)
    obtain ⟨foldLower, lower⟩ := @apart 'i' (by decide)
    obtain ⟨-, upper⟩ := @apart 'I' (by decide)
    obtain ⟨foldLower', lower'⟩ := @apart 'd' (by decide)
    obtain ⟨-, upper'⟩ := @apart 'D' (by decide)
    simp only [foldLine, line, foldLower, lower, upper, foldLower', lower', upper', or_self, and_self]

/-- The spellings of the ending. -/
lemma spells_iff {s : String} :
    Text.spells "_id" s = true ↔ s ∈ ["_id", "_iD", "_Id", "_ID"] := by
  have chars : ["_id", "_iD", "_Id", "_ID"].map String.toList =
      [['_', 'i', 'd'], ['_', 'i', 'D'], ['_', 'I', 'd'], ['_', 'I', 'D']] := by decide
  have mem : s ∈ ["_id", "_iD", "_Id", "_ID"] ↔
      s.toList ∈ [['_', 'i', 'd'], ['_', 'i', 'D'], ['_', 'I', 'd'], ['_', 'I', 'D']] := by
    rw [← chars, List.mem_map_of_injective fun _ _ => String.toList_inj.1]
  rw [mem, Text.spells, beq_iff_eq, show "_id".toList.map Text.foldChar = ['_', 'i', 'd'] by decide]
  rcases s.toList with _ | ⟨a, _ | ⟨b, _ | ⟨c, _ | ⟨d, rest⟩⟩⟩⟩
  · simp
  · simp
  · simp
  · simp only [List.map_cons, List.map_nil, List.cons.injEq, and_true, foldChar_eq_iff, List.mem_cons,
      List.not_mem_nil, or_false]
    tauto
  · simp

/-- The stem of a field name is what stands in front of its ending. -/
lemma stemOf_stem_iff : StemOf KeyEnding field part ↔ part = stem field := by
  have three : ∀ front ending, KeyEnding front ending → ending.length = 3 := by
    rintro front ending ⟨spelled, -⟩
    fin_cases spelled <;> rfl
  rw [stemOf_iff three, stem]
  have cond : (!(field.toList.take (field.toList.length - 3)).isEmpty && Text.spells "_id" (ending field)) =
      true ↔ KeyEnding (front field) (ending field) := by
    rw [Bool.and_eq_true, spells_iff, KeyEnding, and_comm]
    simp [front]
  rw [← ending]
  by_cases marked : KeyEnding (front field) (ending field)
  · rw [if_pos marked, if_pos (cond.2 marked)]
    rfl
  · rw [if_neg marked, if_neg (mt cond.1 marked)]

end Stems

/-! ### Resolution -/

/-- A name is found exactly if it is one of the names. -/
lemma find?_beq_eq_some_iff {names : List String} {name found : String} :
    names.find? (· == name) = some found ↔ found = name ∧ name ∈ names := by
  constructor
  · intro h
    obtain rfl : found = name := by simpa using List.find?_some h
    exact ⟨rfl, List.mem_of_find?_eq_some h⟩
  · rintro ⟨rfl, mem⟩
    cases h : names.find? (· == found) with
    | none => exact absurd (List.find?_eq_none.1 h found mem) (by simp)
    | some other => rw [show other = found by simpa using List.find?_some h]

/-- The entity that a field name points to: the one named like the stem, or else the first one that is
apart from case and underscores. -/
lemma inferTarget_bind (names : Names) (field : String) :
    (inferTarget names field).1.bind (names.entities[·]?) =
      (names.entities.find? (· == stem field)).or
        (names.entities.find? fun e => foldName e == foldName (stem field)) := by
  rw [List.find?_eq_bind_findIdx?_getElem?, List.find?_eq_bind_findIdx?_getElem?, inferTarget,
    Names.entity?]
  cases exact : names.entities.findIdx? (· == stem field) with
  | some id =>
    obtain ⟨lt, -⟩ := List.findIdx?_eq_some_iff_getElem.1 exact
    rw [Option.bind_some, List.getElem?_eq_getElem lt, Option.some_or]
  | none =>
    rw [Option.bind_none, Option.none_or]
    dsimp only
    cases names.entities.findIdx? fun e => foldName e == foldName (stem field) with
    | some id => rfl
    | none => rfl

/-- A foreign key that names its target refers to the entity of that name. -/
lemma keyTarget_some_iff {s : Schema} {stem type name target : String} :
    KeyTarget s stem type (some name) target ↔ target = name ∧ name ∈ s.entityNames := by
  constructor
  · rintro ⟨mem⟩
    exact ⟨rfl, mem⟩
  · rintro ⟨rfl, mem⟩
    exact .explicit mem

/-- A foreign key that names no target refers to the entity that types its field, or to the one that is
found by the stem where the field has a base type. -/
lemma keyTarget_none_iff {s : Schema} {stem type target : String} :
    KeyTarget s stem type none target ↔ target = type ∧ type ∈ s.entityNames ∨
      s.IsUndeclared type ∧ BaseType.isBase type = true ∧
        (s.entityNames.find? (· == stem)).or
          (s.entityNames.find? fun e => foldName e == foldName stem) = some target := by
  rw [Option.or_eq_some_iff, find?_beq_eq_some_iff, List.find?_eq_some_iff_append, List.find?_eq_none]
  simp only [beq_iff_eq, Bool.not_eq_true', beq_eq_false_iff_ne]
  constructor
  · rintro (_ | typed | ⟨undeclared, base, mem⟩ | ⟨undeclared, base, none, split, same, first⟩)
    · exact .inl ⟨rfl, typed⟩
    · exact .inr ⟨undeclared, base, .inl ⟨rfl, mem⟩⟩
    · exact .inr ⟨undeclared, base, .inr ⟨fun name mem found => none (found ▸ mem), same, _, _, split, first⟩⟩
  · rintro (⟨rfl, typed⟩ | ⟨undeclared, base, ⟨rfl, mem⟩ | ⟨none, same, before, after, split, first⟩⟩)
    · exact .typed typed
    · exact .exact undeclared base mem
    · exact .folded undeclared base (fun mem => none _ mem rfl) split same first

/-- No position is found for a name exactly if no element has it. -/
lemma findIdx?_name_eq_none_iff {α : Type} {key : α → String} {xs : List α} {name : String} :
    (xs.findIdx? fun x => key x == name) = none ↔ name ∉ xs.map key := by
  simp [List.findIdx?_eq_none_iff]

lemma lookupEntity_eq_none_iff {s : Schema} {name : String} :
    s.lookupEntity name = none ↔ name ∉ s.entityNames :=
  findIdx?_name_eq_none_iff

lemma lookupEnum_eq_none_iff {s : Schema} {name : String} :
    s.lookupEnum name = none ↔ name ∉ s.enums.map (·.name) :=
  findIdx?_name_eq_none_iff

section Targets
variable {doc : Document}

lemma declaredNames_entities : (declaredNames doc).entities = (ofDocument doc).1.entityNames :=
  congrArg Names.entities declaredNames_eq

/-- A foreign key is bound to the target that the rules give it, and to none if they give none. -/
lemma keyTarget_iff {field : String} {type : Document.TypeRef} {explicit : Option String}
    {target : String} :
    KeyTarget (ofDocument doc).1 (stem field) type.name explicit target ↔
      (bindTarget (declaredNames doc) (bindType (declaredNames doc) type) field explicit).1.bind
        ((ofDocument doc).1.entityNames[·]?) = some target := by
  have found (name : String) : ((declaredNames doc).entity? name).bind
      ((ofDocument doc).1.entityNames[·]?) = some target ↔
        target = name ∧ name ∈ (ofDocument doc).1.entityNames := by
    rw [Names.entity?, declaredNames_entities, ← List.find?_eq_bind_findIdx?_getElem?,
      find?_beq_eq_some_iff]
  cases explicit with
  | some name => rw [keyTarget_some_iff, bindTarget, found]
  | none =>
    rw [keyTarget_none_iff]
    rcases bindType_cases doc type with ⟨id, entity, bound⟩ | ⟨id, enum, bound⟩ |
      ⟨noEntity, noEnum, ⟨base, bound⟩ | ⟨unknown, bound⟩⟩
    · have named := found type.name
      rw [names_entity?, entity] at named
      have mem : type.name ∈ (ofDocument doc).1.entityNames := by
        by_contra none
        rw [lookupEntity_eq_none_iff.2 none] at entity
        cases entity
      rw [bound, bindTarget, named]
      simp [IsUndeclared, mem]
    · have mem : type.name ∈ (ofDocument doc).1.enums.map (·.name) := by
        by_contra none
        rw [lookupEnum_eq_none_iff.2 none] at enum
        cases enum
      -- entities and enumerations share one name space
      have apart : type.name ∉ (ofDocument doc).1.entityNames := fun both =>
        (List.nodup_append.1 (@names_nodup_ofDocument doc)).2.2 _ both _ mem rfl
      rw [bound, bindTarget]
      simp only [IsUndeclared, mem, apart, not_true_eq_false, and_false, false_and, or_self,
        Option.bind_none, reduceCtorEq]
    · have undeclared : (ofDocument doc).1.IsUndeclared type.name :=
        ⟨lookupEntity_eq_none_iff.1 noEntity, lookupEnum_eq_none_iff.1 noEnum⟩
      rw [bound, bindTarget, ← declaredNames_entities, inferTarget_bind, declaredNames_entities]
      simp [undeclared, undeclared.1, base]
    · rw [lookupEntity_eq_none_iff] at noEntity
      rw [bound, bindTarget]
      simp [noEntity, unknown]

/-! ### Unbound names -/

/-- The mark of a key leaves no name unbound. -/
lemma unresolvedOf_of_marked {f g : Field} (marked : Marked f g) (entity : String) :
    unresolvedOf entity f = unresolvedOf entity g := by
  rcases marked with rfl | ⟨span, rfl⟩
  · rfl
  · simp [unresolvedOf, Field.carries, List.findSome?_append, List.any_append, Clause.kind]

/-- The names that a schema leaves unbound are those of its fields. -/
lemma unresolved_ofDocument_eq (doc : Document) : (ofDocument doc).1.unresolved =
    (ofDocument doc).1.entities.flatMap fun e => e.fields.flatMap (unresolvedOf e.name) := by
  have same {fs gs : List Field} (marked : List.Forall₂ Marked fs gs) (entity : String) :
      fs.flatMap (unresolvedOf entity) = gs.flatMap (unresolvedOf entity) := by
    induction marked with
    | nil => rfl
    | cons first _ ih => rw [List.flatMap_cons, List.flatMap_cons, unresolvedOf_of_marked first, ih]
  have built : (ofDocument doc).1.entities = ((declaredEntities doc).mapIdx fun id node =>
      buildEntity doc.path (declaredNames doc) id node).map (·.entity) := rfl
  rw [unresolved_ofDocument, built, List.flatMap_map]
  refine List.flatMap_congr fun b hb => ?_
  obtain ⟨id, hid, rfl⟩ := List.mem_mapIdx.1 hb
  rw [buildEntity_unresolved, buildEntity_name, buildEntity_fields]
  exact same (forall₂_buildKeys _ _) _

/-- What is found about one element of a list, where the keys of elements differ. -/
lemma filter_flatMap_of_nodup {α β : Type} {key : α → String} {label : β → String} {found : α → List β}
    {xs : List α} (nodup : (xs.map key).Nodup) (own : ∀ x, ∀ b ∈ found x, label b = key x) {x : α}
    (hx : x ∈ xs) : (xs.flatMap found).filter (fun b => label b == key x) = found x := by
  have all : (found x).filter (fun b => label b == key x) = found x := by
    rw [List.filter_eq_self]
    intro b hb
    simpa using own x b hb
  have none {y : α} (apart : key y ≠ key x) : (found y).filter (fun b => label b == key x) = [] := by
    rw [List.filter_eq_nil_iff]
    intro b hb
    simpa [own y b hb] using apart
  rw [List.filter_flatMap]
  induction xs with
  | nil => cases hx
  | cons y ys ih =>
    rw [List.map_cons, List.nodup_cons] at nodup
    rw [List.flatMap_cons]
    rcases List.mem_cons.1 hx with rfl | hx
    · rw [all, List.flatMap_eq_nil_iff.2, List.append_nil]
      exact fun z hz => none fun same => nodup.1 (same ▸ List.mem_map_of_mem hz)
    · rw [none fun same => nodup.1 (same ▸ List.mem_map_of_mem hx), List.nil_append]
      exact ih nodup.2 hx

/-- A name that a field leaves unbound is kept with its place. -/
lemma place_of_mem_unresolvedOf {entity : String} {f : Field} {u : Unresolved}
    (hu : u ∈ unresolvedOf entity f) : u.entity = entity ∧ u.field = f.name := by
  rcases List.mem_append.1 hu with hu | hu
  · obtain ⟨c, -, found⟩ := List.exists_of_findSome?_eq_some (Option.mem_toList.1 hu)
    split at found
    · cases found
      exact ⟨rfl, rfl⟩
    · cases found
  · split at hu
    · cases List.mem_singleton.1 hu
      exact ⟨rfl, rfl⟩
    · cases hu

/-- The findings about unbound names of a field are made from the names that the field leaves unbound. -/
lemma exists_findings_eq (kind : ReferenceKind) {e : Entity} (he : e ∈ (ofDocument doc).1.entities)
    {f : Field} (hf : f ∈ e.fields) : ∃ report : Unresolved → Diagnostic,
      Check.findings (ofDocument doc).1 (Check.unresolvedCode kind) e.name f.name =
        ((unresolvedOf e.name f).filter (·.kind == kind)).map report := by
  obtain ⟨message, run⟩ := Check.filter_run_unresolvedCode (ofDocument doc).1 kind
  have entity {x : Entity} : ∀ u ∈ x.fields.flatMap (unresolvedOf x.name), u.entity = x.name := by
    intro u hu
    obtain ⟨g, -, hu⟩ := List.mem_flatMap.1 hu
    exact (place_of_mem_unresolvedOf hu).1
  have unbound : ((ofDocument doc).1.unresolved.filter (·.entity == e.name)).filter (·.field == f.name) =
      unresolvedOf e.name f := by
    rw [unresolved_ofDocument_eq, filter_flatMap_of_nodup (entity_names_nodup doc) (fun _ => entity) he]
    exact filter_flatMap_of_nodup (field_names_nodup doc e he)
      (fun _ _ hu => (place_of_mem_unresolvedOf hu).2) hf
  have kinds : ((((ofDocument doc).1.unresolved.filter (·.kind == kind)).filter (·.entity == e.name)).filter
      (·.field == f.name)) = (unresolvedOf e.name f).filter (·.kind == kind) := by
    rw [← unbound]
    simp only [List.filter_filter]
    refine List.filter_congr fun u _ => ?_
    cases u.kind == kind <;> simp
  rw [Check.findings, ← List.filter_filter, ← List.filter_filter, run, Check.unresolvedNames,
    List.filter_map, List.filter_map, ← kinds]
  exact ⟨_, rfl⟩

/-! ### Foreign keys of a field -/

/-- What the foreign keys of a field are bound to, with the names that were looked up. -/
def Field.targets (f : Field) : List (Option Nat × String) :=
  f.constraints.filterMap fun c =>
    match c.clause with
    | .foreignKey target name => some (target, name)
    | _ => none

/-- The foreign keys of a field are those of its line. -/
lemma targets_of_marked {names : Names} {line : Document.Field} {f : Field}
    (marked : Marked (buildField names line) f) :
    f.targets = line.foreignKeys.map (bindTarget names (bindType names line.type) line.name) := by
  have built : (buildField names line).targets =
      line.foreignKeys.map (bindTarget names (bindType names line.type) line.name) := by
    rw [Field.targets, buildField, List.filterMap_map, Document.Field.foreignKeys, List.map_filterMap]
    refine List.filterMap_congr fun c _ => ?_
    rw [Function.comp_apply, bindConstraint]
    cases c.clause <;> rfl
  rcases marked with rfl | ⟨span, rfl⟩
  · exact built
  · rw [← built, Field.targets, List.filterMap_append]
    exact List.append_nil _

lemma carries_foreignKey_iff (f : Field) : f.carries .foreignKey = true ↔ f.targets ≠ [] := by
  rw [Field.carries, List.any_eq_true, Field.targets, ne_eq, List.filterMap_eq_nil_iff]
  simp only [not_forall, exists_prop]
  refine exists_congr fun c => and_congr_right fun _ => ?_
  cases c.clause <;> simp [Clause.kind]

/-- The foreign key of a field is the first one, if that is bound. -/
lemma map_fst_foreignKey? (f : Field) :
    f.foreignKey?.map Prod.fst = f.targets.head?.bind Prod.fst := by
  rw [Field.foreignKey?, Field.constraint?, Field.targets, List.head?_filterMap]
  induction f.constraints with
  | nil => rfl
  | cons c cs ih =>
    obtain ⟨clause, span⟩ := c
    rw [List.find?_cons, List.findSome?_cons]
    cases clause with
    | foreignKey target name => cases target <;> rfl
    | _ => exact ih

/-- Whether a field leaves a name of a kind unbound: that of a foreign key, or its type if it has none. -/
def Field.LeavesUnbound (f : Field) : ReferenceKind → Prop
  | .foreignKey => ∃ name, (none, name) ∈ f.targets
  | .type => f.type.binding = .unresolved ∧ f.targets = []

/-- The names that a field leaves unbound, one of each kind at most. -/
lemma exists_unresolvedOf_eq (entity : String) (f : Field) : ∃ keys types,
    unresolvedOf entity f = keys ++ types ∧
      (∀ u ∈ keys, u.kind = .foreignKey) ∧ (∀ u ∈ types, u.kind = .type) ∧
      OneIf (f.LeavesUnbound .foreignKey) keys ∧ OneIf (f.LeavesUnbound .type) types := by
  refine ⟨_, _, rfl, fun u hu => ?_, fun u hu => ?_, oneIf_toList ?_, ?_⟩
  · obtain ⟨c, -, found⟩ := List.exists_of_findSome?_eq_some (Option.mem_toList.1 hu)
    split at found
    · cases found
      rfl
    · cases found
  · split at hu
    · cases List.mem_singleton.1 hu
      rfl
    · cases hu
  · rw [List.findSome?_isSome_iff]
    simp only [Field.LeavesUnbound, Field.targets, List.mem_filterMap]
    rw [exists_comm]
    refine exists_congr fun c => ?_
    rw [exists_and_left]
    refine and_congr_right fun _ => ?_
    cases c.clause with
    | foreignKey target name => cases target <;> simp
    | _ => simp
  · have cond : (f.type.binding == .unresolved && !f.carries .foreignKey) = true ↔
        f.LeavesUnbound .type := by
      rw [Field.LeavesUnbound, Bool.and_eq_true, beq_iff_eq, Bool.not_eq_true', ← Bool.not_eq_true, carries_foreignKey_iff,
        not_not]
    rw [← cond]
    exact ⟨fun h => ⟨_, if_pos h⟩, fun h => if_neg h⟩

/-- The checks have one finding about a field for each kind of name that it leaves unbound. -/
lemma oneIf_findings {e : Entity} (he : e ∈ (ofDocument doc).1.entities) {f : Field}
    (hf : f ∈ e.fields) (kind : ReferenceKind) : OneIf (f.LeavesUnbound kind)
      (Check.findings (ofDocument doc).1 (Check.unresolvedCode kind) e.name f.name) := by
  obtain ⟨report, found⟩ := exists_findings_eq kind he hf
  obtain ⟨keys, types, eq, ofKeys, ofTypes, oneKey, oneType⟩ := exists_unresolvedOf_eq e.name f
  have keep {us : List Unresolved} {own : ReferenceKind} (all : ∀ u ∈ us, u.kind = own) :
      us.filter (·.kind == kind) = if own = kind then us else [] := by
    split
    · next same => simpa [List.filter_eq_self, ← same] using all
    · next apart =>
      rw [List.filter_eq_nil_iff]
      intro u hu
      simpa [all u hu] using apart
  rw [found, eq, List.filter_append, keep ofKeys, keep ofTypes]
  cases kind with
  | foreignKey => simpa using oneKey.map report
  | type => simpa using oneType.map report

/-! ### Lines and fields -/

/-- The target that a foreign key of a line is bound to. -/
def boundName? (doc : Document) (line : Document.Field) (explicit : Option String) : Option String :=
  (bindTarget (declaredNames doc) (bindType (declaredNames doc) line.type) line.name explicit).1.bind
    ((ofDocument doc).1.entityNames[·]?)

/-- Every position that a foreign key is bound to has a name. -/
lemma boundName?_eq_none_iff {line : Document.Field} {explicit : Option String} :
    boundName? doc line explicit = none ↔
      (bindTarget (declaredNames doc) (bindType (declaredNames doc) line.type) line.name explicit).1 =
        none := by
  rw [boundName?, Option.bind_eq_none_iff]
  refine ⟨fun h => ?_, fun h id found => by rw [h] at found; cases found⟩
  by_contra bound
  obtain ⟨id, found⟩ := Option.ne_none_iff_exists'.1 bound
  have lt := bindTarget_lt found
  rw [declaredNames_entities] at lt
  exact absurd (h id found) (by simpa using lt)

/-- The targets of a line, by the rules, are those that its foreign keys are bound to. -/
lemma refersTo_iff {line : Document.Field} {target : String} :
    line.RefersTo KeyEnding (ofDocument doc).1 target ↔
      ∃ explicit ∈ line.foreignKeys, boundName? doc line explicit = some target := by
  refine exists_congr fun explicit => and_congr_right fun _ => ?_
  rw [boundName?, ← keyTarget_iff]
  constructor
  · rintro ⟨part, cut, found⟩
    rwa [← stemOf_stem_iff.1 cut]
  · exact fun found => ⟨_, stemOf_stem_iff.2 rfl, found⟩

/-- The foreign keys on a column are those that name the column and its table. -/
lemma foreignKeysOn_eq {opts : Ddl.Options} {s : Schema} {out : Ddl.Output}
    (generated : Ddl.generate opts s = .ok out) (table column : String) :
    out.foreignKeysOn table column = out.foreignKeys.filter fun k => k.table == table && k.column == column := by
  rw [Ddl.Output.foreignKeysOn, Ddl.placedKeys_of_generate generated, List.filter_map, List.map_map]
  exact List.map_id _

/-- The text of some statement puts a foreign key on the table that it is found on. -/
lemma exists_putsOn_of_mem_foreignKeysOn {out : Ddl.Output} {table column : String} {k : Ddl.ForeignKey}
    (hk : k ∈ out.foreignKeysOn table column) : ∃ st ∈ out.statements, st.PutsOn out.dialect table k := by
  obtain ⟨⟨owner, k⟩, mem, rfl⟩ := List.mem_map.1 hk
  obtain ⟨mem, place⟩ := List.mem_filter.1 mem
  rw [Bool.and_eq_true, beq_iff_eq] at place
  obtain ⟨st, hst, here⟩ := List.mem_flatMap.1 mem
  exact ⟨st, hst, place.1 ▸ (st.spelled out.dialect).keys _ here⟩

section Line
variable {e : Entity} (he : e ∈ (ofDocument doc).1.entities) {line : Document.Field} {f : Field}
  (hf : f ∈ e.fields) (marked : Marked (buildField (declaredNames doc) line) f)
  (single : line.foreignKeys.length ≤ 1)
include marked

/-- A field has the name, the cardinality and the type of its line. -/
lemma views_of_marked : f.name = line.name ∧ f.cardinality = line.cardinality ∧
    f.type = bindType (declaredNames doc) line.type := by
  rcases marked with rfl | ⟨span, rfl⟩ <;> exact ⟨rfl, rfl, rfl⟩

/-- A field has no type exactly if the type name is none that is known. -/
lemma binding_eq_unresolved_iff : f.type.binding = .unresolved ↔
    (ofDocument doc).1.IsUndeclared line.type.name ∧ BaseType.isBase line.type.name = false := by
  rw [(views_of_marked marked).2.2, IsUndeclared, ← lookupEntity_eq_none_iff, ← lookupEnum_eq_none_iff]
  rcases bindType_cases doc line.type with ⟨id, entity, bound⟩ | ⟨id, enum, bound⟩ |
    ⟨noEntity, noEnum, ⟨base, bound⟩ | ⟨unknown, bound⟩⟩
  · simp [bound, entity]
  · simp [bound, enum]
  · simp [bound, base]
  · simp [bound, noEntity, noEnum, unknown]

lemma targets_eq_nil_iff : f.targets = [] ↔ line.foreignKeys = [] := by
  rw [targets_of_marked marked, List.map_eq_nil_iff]

include single

/-- A field leaves a foreign key unbound exactly if its line has one without target. -/
lemma unbound_iff : f.LeavesUnbound .foreignKey ↔
    line.foreignKeys ≠ [] ∧ ∀ target, ¬ line.RefersTo KeyEnding (ofDocument doc).1 target := by
  simp only [Field.LeavesUnbound, refersTo_iff, targets_of_marked marked]
  rcases keys : line.foreignKeys with _ | ⟨explicit, _ | ⟨second, rest⟩⟩
  · simp
  · have bound := @boundName?_eq_none_iff doc line explicit
    rw [Option.eq_none_iff_forall_ne_some] at bound
    simp only [List.mem_singleton, exists_eq_left, List.map_cons, List.map_nil, ne_eq,
      List.cons_ne_nil, not_false_eq_true, true_and]
    refine Iff.trans ?_ bound.symm
    constructor
    · rintro ⟨name, same⟩
      rw [← same]
    · exact fun unbound => ⟨_, Prod.ext unbound.symm rfl⟩
  · simp [keys] at single

/-- The foreign key of a field is bound to a target exactly if its line refers to it. -/
lemma foreignKey?_iff {target : String} :
    (f.foreignKey?.map Prod.fst).bind ((ofDocument doc).1.entityNames[·]?) = some target ↔
      line.RefersTo KeyEnding (ofDocument doc).1 target := by
  rw [map_fst_foreignKey?, targets_of_marked marked, refersTo_iff]
  rcases keys : line.foreignKeys with _ | ⟨explicit, _ | ⟨second, rest⟩⟩
  · simp
  · simp [boundName?]
  · simp [keys] at single

/-- A field is a reference exactly if its line refers to an entity and is no list. -/
lemma isReference_iff : Ddl.isReference (ofDocument doc).1 f = true ↔
    (∃ target, line.RefersTo KeyEnding (ofDocument doc).1 target) ∧ line.cardinality ≠ .list := by
  simp only [← foreignKey?_iff marked single]
  rw [Ddl.isReference, Bool.and_eq_true, and_comm, Field.isColumn, (views_of_marked marked).2.1]
  refine and_congr ?_ (by simp)
  rw [← Option.isSome_iff_exists]
  cases f.foreignKey? with
  | none => simp
  | some key => simp [entity?, entityNames]

include he hf

/-- A script has one foreign key on the column of a line that refers to an entity, and it points at that
entity from the table of the line. -/
lemma foreignKeysOn_of_generate {opts : Ddl.Options} {out : Ddl.Output}
    (generated : Ddl.generate opts (ofDocument doc).1 = .ok out) :
    OneIf ((∃ target, line.RefersTo KeyEnding (ofDocument doc).1 target) ∧ line.cardinality ≠ .list)
        (out.foreignKeysOn e.name f.name) ∧
      ∀ k ∈ out.foreignKeysOn e.name f.name, line.RefersTo KeyEnding (ofDocument doc).1 k.target ∧
        ∃ st ∈ out.statements, st.PutsOn out.dialect e.name k := by
  have names := entity_names_nodup doc
  have fields := field_names_nodup doc
  constructor
  · refine (oneIf_of_length ?_).congr (isReference_iff marked single)
    rw [← Ddl.count_places names fields _ he hf, ← Ddl.foreignKeys_of_generate generated,
      List.count_eq_countP, List.countP_map, List.countP_eq_length_filter, foreignKeysOn_eq generated]
    rfl
  · intro k hk
    refine ⟨?_, exists_putsOn_of_mem_foreignKeysOn hk⟩
    rw [foreignKeysOn_eq generated] at hk
    obtain ⟨hk, place⟩ := List.mem_filter.1 hk
    rw [Bool.and_eq_true, beq_iff_eq, beq_iff_eq] at place
    obtain ⟨e', he', f', hf', column, id, span, target, found, known, refers⟩ :=
      Ddl.refers_of_mem_foreignKeys generated hk
    -- names differ, so a key on this column comes from this field
    obtain rfl := List.inj_on_of_nodup_map names he' he (refers.table_eq.symm.trans place.1)
    obtain rfl := List.inj_on_of_nodup_map (fields e' he') hf' hf (column.symm.trans place.2)
    rw [← foreignKey?_iff marked single, found, refers.target_eq]
    simpa [entityNames, entity?] using congrArg (Option.map (·.name)) known

end Line

/-- A line and the field that comes from it. -/
lemma reported_of_marked {e : Entity} (he : e ∈ (ofDocument doc).1.entities) {line : Document.Field}
    {f : Field} (hf : f ∈ e.fields) (marked : Marked (buildField (declaredNames doc) line) f)
    (single : line.foreignKeys.length ≤ 1) : Reported KeyEnding (ofDocument doc).1 e line f := by
  constructor
  · exact (views_of_marked marked).1
  · exact (oneIf_findings he hf .foreignKey).congr (unbound_iff marked single)
  · refine (oneIf_findings he hf .type).congr ?_
    rw [Field.LeavesUnbound, binding_eq_unresolved_iff marked, targets_eq_nil_iff marked, and_assoc]
  · exact fun opts out generated => foreignKeysOn_of_generate he hf marked single generated

end Targets

/-- References are reported exactly, for every document without two foreign keys on one field. Each field
of its schema comes from the first line of that name in the first block of the entity. A foreign key
without target is reported once, and so is a type name that says nothing, on a field without foreign
key. A script has one foreign key on each column that refers to an entity, with its clause in a statement
about the table of the entity, and it points at the entity that the rules give. -/
theorem references_reported (doc : Document)
    (single : ∀ node ∈ doc.entities, ∀ line ∈ node.fields, line.foreignKeys.length ≤ 1) :
    List.Forall₂ (fun node e => e.name = node.name ∧
        List.Forall₂ (Reported KeyEnding (ofDocument doc).1 e) (firsts (·.name) node.fields) e.fields)
      ((firsts Declaration.name (declarations doc)).filterMap Declaration.entity?)
      (ofDocument doc).1.entities := by
  have length : (declaredEntities doc).length = (ofDocument doc).1.entities.length := by
    rw [entities_ofDocument, List.length_mapIdx]
  rw [← declaredEntities_eq, List.forall₂_iff_get]
  refine ⟨length, fun i hi hi' => ?_⟩
  have built : (ofDocument doc).1.entities[i] =
      (buildEntity doc.path (declaredNames doc) i (declaredEntities doc)[i]).entity := by
    simp only [entities_ofDocument, List.getElem_mapIdx]
  have he := List.getElem_mem hi'
  have hn : (declaredEntities doc)[i] ∈ doc.entities :=
    List.mem_filterMap.2 ⟨_, mem_entities_of_declared (List.getElem_mem hi), rfl⟩
  rw [List.get_eq_getElem, List.get_eq_getElem]
  rw [built] at he ⊢
  refine ⟨buildEntity_name, ?_⟩
  have lines := @forall₂_marked_buildEntity doc i (declaredEntities doc)[i]
  rw [List.forall₂_iff_zip] at lines ⊢
  refine ⟨lines.1, fun mem => ?_⟩
  obtain ⟨hl, hf⟩ := List.of_mem_zip mem
  exact reported_of_marked he hf (lines.2 mem) (single _ hn _ (mem_of_mem_firsts _ hl))

/-- Blocks with a foreign key of each kind, two of them without target, and a type that says nothing. -/
def posts : Document :=
  Compilation.document "posts.erd" (Text.bytes
    (":Forum\n  INT $.id PK\n:Post\n  INT $.id PK\n  INT $.FORUM_ID FK\n  Forum $.origin FK\n" ++
      "  INT $.author_id FK\n  INT $.editor FK(Editor)\n  Tags $.tags\n  Forum @.copies FK\n")) {}

/-- The post is reported about three times, and has two foreign keys. -/
theorem references_reported_of_posts :
    (∀ node ∈ posts.entities, ∀ line ∈ node.fields, line.foreignKeys.length ≤ 1) ∧
      (Check.run (ofDocument posts).1).map (fun d => (d.code, d.entity, d.field)) =
        [("E104", "Post", "author_id"), ("E104", "Post", "editor"), ("E105", "Post", "tags")] ∧
      (∃ out ∈ (Ddl.generate {} (ofDocument posts).1).toOption,
        out.foreignKeys.map (fun k => (k.table, k.column, k.target)) =
          [("Post", "FORUM_ID", "Forum"), ("Post", "origin", "Forum")]) ∧
      List.Forall₂ (fun node e => e.name = node.name ∧
          List.Forall₂ (Reported KeyEnding (ofDocument posts).1 e) (firsts (·.name) node.fields) e.fields)
        ((firsts Declaration.name (declarations posts)).filterMap Declaration.entity?)
        (ofDocument posts).1.entities := by
  have facts : (∀ node ∈ posts.entities, ∀ line ∈ node.fields, line.foreignKeys.length ≤ 1) ∧
      (Check.run (ofDocument posts).1).map (fun d => (d.code, d.entity, d.field)) =
        [("E104", "Post", "author_id"), ("E104", "Post", "editor"), ("E105", "Post", "tags")] ∧
      ∃ out ∈ (Ddl.generate {} (ofDocument posts).1).toOption,
        out.foreignKeys.map (fun k => (k.table, k.column, k.target)) =
          [("Post", "FORUM_ID", "Forum"), ("Post", "origin", "Forum")] := by
    rw [posts, Compilation.document, Compilation.read_bytes, String.toList_append]
    decide +kernel
  exact ⟨facts.1, facts.2.1, facts.2.2, references_reported posts facts.1⟩

/-! ### Endings in other cases -/

/-- An ending in lower case, also where it is all of the name. -/
def PlainEnding (_ ending : String) : Prop := ending = "_id"

instance (front ending : String) : Decidable (PlainEnding front ending) :=
  inferInstanceAs (Decidable (_ = _))

/-- A line whose foreign key names no target refers to nothing, where no entity types the field or is
named like its stem. -/
lemma not_refersTo {Marks : String → String → Prop} {s : Schema} {line : Document.Field}
    (keys : line.foreignKeys = [none]) (type : line.type.name ∉ s.entityNames)
    (stemless : ∀ stem, StemOf Marks line.name stem → ∀ name ∈ s.entityNames, foldName name ≠ foldName stem)
    (target : String) : ¬ line.RefersTo Marks s target := by
  rintro ⟨explicit, mem, stem, cut, found⟩
  rw [keys, List.mem_singleton] at mem
  subst mem
  cases found with
  | typed typed => exact type typed
  | exact _ _ named => exact stemless _ cut _ named rfl
  | folded _ _ _ split same _ => exact stemless stem cut target (by simp [split]) same

/-- A block with a reference in upper case, and one whose name is all ending. -/
def logins : Document :=
  Compilation.document "logins.erd" (Text.bytes
    ":User\n  INT $.id PK\n:Id\n  INT $.id PK\n:Login\n  INT $.user_ID FK\n  INT $._id FK\n") {}

/-- Were only endings in lower case cut off, and all of them, both references of the block would have no
target. Neither is reported, and each has a foreign key. -/
theorem not_reported_of_logins :
    (∀ node ∈ logins.entities, ∀ line ∈ node.fields, line.foreignKeys.length ≤ 1) ∧
      ∃ node ∈ logins.entities, node.name = "Login" ∧ node.fields.map (·.name) = ["user_ID", "_id"] ∧
        (∃ e ∈ (ofDocument logins).1.entities, e.name = node.name ∧
          e.fields.map (·.name) = node.fields.map (·.name)) ∧
        ∀ line ∈ node.fields, line.foreignKeys ≠ [] ∧
          (∀ target, ¬ line.RefersTo PlainEnding (ofDocument logins).1 target) ∧
          Check.findings (ofDocument logins).1 Diagnostic.unresolvedForeignKey node.name line.name = [] ∧
          ∃ out ∈ (Ddl.generate {} (ofDocument logins).1).toOption,
            (out.foreignKeysOn node.name line.name).length = 1 := by
  have facts : (∀ node ∈ logins.entities, ∀ line ∈ node.fields, line.foreignKeys.length ≤ 1) ∧
      ∃ node ∈ logins.entities, node.name = "Login" ∧ node.fields.map (·.name) = ["user_ID", "_id"] ∧
        (∃ e ∈ (ofDocument logins).1.entities, e.name = node.name ∧
          e.fields.map (·.name) = node.fields.map (·.name)) ∧
        ∀ line ∈ node.fields, line.foreignKeys = [none] ∧
          line.type.name ∉ (ofDocument logins).1.entityNames ∧
          (∀ name ∈ (ofDocument logins).1.entityNames, foldName name ≠ foldName
            (if PlainEnding (front line.name) (ending line.name) then front line.name else line.name)) ∧
          Check.findings (ofDocument logins).1 Diagnostic.unresolvedForeignKey node.name line.name = [] ∧
          ∃ out ∈ (Ddl.generate {} (ofDocument logins).1).toOption,
            (out.foreignKeysOn node.name line.name).length = 1 := by
    rw [logins, Compilation.document, Compilation.read_bytes]
    decide +kernel
  obtain ⟨single, node, hn, name, fields, kept, lines⟩ := facts
  refine ⟨single, node, hn, name, fields, kept, fun line hl => ?_⟩
  obtain ⟨keys, type, apart, silent, clause⟩ := lines line hl
  refine ⟨by simp [keys], not_refersTo keys type fun stem cut => ?_, silent, clause⟩
  have three : ∀ front ending, PlainEnding front ending → ending.length = 3 := by
    rintro front ending rfl
    rfl
  rw [stemOf_iff three] at cut
  rwa [cut]

end Schema

end ErdSql
