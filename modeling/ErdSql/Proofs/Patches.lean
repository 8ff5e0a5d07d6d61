import ErdSql.Proofs.EntryKeys

/-!
# Changes as patches

The changes between two scripts whose keys are different, as a list of what holds of the two scripts and
as a patch that turns the texts of one into the texts of the other.

* `Change.Holds`: what a change says about the statements of two scripts.
* `patch?_eq_some`: changes of different keys that fit some texts are applied independently.
* `changes_isDifference`: the changes are exactly those that hold, first what is added and changed in
  the order of the next script, then what is removed in the order of the previous one, no key twice, and
  they are a patch.
-/

namespace ErdSql.Script

/-! ### Patches -/

namespace Change

/-- The text of the key before a change. -/
def before : Change → Option (List UInt8)
  | added _ _ => none
  | removed _ previous => some previous
  | changed _ previous _ => some previous

/-- The text of the key behind a change. -/
def after : Change → Option (List UInt8)
  | added _ next => some next
  | removed _ _ => none
  | changed _ _ next => some next

/-- Whether a change removes a statement. -/
def isRemoval : Change → Bool
  | removed _ _ => true
  | _ => false

/-- What a change says about the statements before and after. -/
def Holds (previous next : List Entry) : Change → Prop
  | added key text => ⟨key, text⟩ ∈ next ∧ key ∉ previous.map (·.key)
  | removed key text => ⟨key, text⟩ ∈ previous ∧ key ∉ next.map (·.key)
  | changed key old new => ⟨key, old⟩ ∈ previous ∧ ⟨key, new⟩ ∈ next ∧ old ≠ new

/-- Applies a change to texts by key, if the key has the text that the change starts from. -/
def applyTo? (texts : List UInt8 → Option (List UInt8)) (c : Change) :
    Option (List UInt8 → Option (List UInt8)) :=
  if texts c.key = c.before then some (Function.update texts c.key c.after) else none

end Change

/-- Applies changes to texts by key, one after the other. -/
def patch? (texts : List UInt8 → Option (List UInt8)) (cs : List Change) :
    Option (List UInt8 → Option (List UInt8)) :=
  cs.foldlM Change.applyTo? texts

/-- Changes of different keys that fit some texts can be applied: each key of a change has the text
behind it, and the others keep theirs. -/
lemma patch?_eq_some {texts : List UInt8 → Option (List UInt8)} {cs : List Change}
    (nodup : (cs.map Change.key).Nodup) (fits : ∀ c ∈ cs, texts c.key = c.before) :
    ∃ patched, patch? texts cs = some patched ∧ (∀ c ∈ cs, patched c.key = c.after) ∧
      ∀ key ∉ cs.map Change.key, patched key = texts key := by
  induction cs generalizing texts with
  | nil => exact ⟨texts, rfl, nofun, fun _ _ => rfl⟩
  | cons c cs ih =>
    rw [List.map_cons, List.nodup_cons] at nodup
    have others (d : Change) (hd : d ∈ cs) : d.key ≠ c.key :=
      fun same => nodup.1 (same ▸ List.mem_map_of_mem hd)
    have first : c.applyTo? texts = some (Function.update texts c.key c.after) :=
      if_pos (fits c List.mem_cons_self)
    obtain ⟨patched, applied, behind, kept⟩ := @ih (Function.update texts c.key c.after) nodup.2 <| by
      intro d hd
      rw [Function.update_of_ne (others d hd)]
      exact fits d (List.mem_cons_of_mem c hd)
    refine ⟨patched, ?_, ?_, ?_⟩
    · rw [patch?, List.foldlM_cons, first]
      exact applied
    · intro d hd
      rcases List.mem_cons.1 hd with rfl | hd
      · rw [kept _ nodup.1, Function.update_self]
      · exact behind d hd
    · intro key hk
      rw [List.map_cons, List.mem_cons, not_or] at hk
      rw [kept key hk.2, Function.update_of_ne hk.1]

/-! ### Entries of different keys -/

section Entries
variable {previous next : List Entry}

lemma textOf?_eq_none_iff {es : List Entry} {key : List UInt8} :
    textOf? es key = none ↔ key ∉ es.map (·.key) := by
  constructor
  · intro none mem
    obtain ⟨e, he, rfl⟩ := List.mem_map.1 mem
    obtain ⟨text, found⟩ := exists_textOf?_eq_some he
    rw [none] at found
    cases found
  · intro missing
    by_contra some
    obtain ⟨text, found⟩ := Option.ne_none_iff_exists'.1 some
    exact missing (List.mem_map_of_mem (f := (·.key)) (mem_of_textOf?_eq_some found))

/-- The change of a next statement has its key. -/
lemma key_of_changeOf? {e : Entry} {c : Change} (h : changeOf? previous e = some c) : c.key = e.key := by
  unfold changeOf? at h
  split at h
  · cases h
    rfl
  · split at h
    · cases h
    · cases h
      rfl

/-- What is added and changed is in the order of the next statements. -/
lemma keys_filterMap_changeOf? (previous next : List Entry) :
    ((next.filterMap (changeOf? previous)).map Change.key).Sublist (next.map (·.key)) := by
  induction next with
  | nil => exact List.Sublist.refl _
  | cons e next ih =>
    cases h : changeOf? previous e with
    | none =>
      rw [List.filterMap_cons_none h]
      exact ih.cons _
    | some c =>
      rw [List.filterMap_cons_some h, List.map_cons, List.map_cons, key_of_changeOf? h]
      exact ih.cons_cons _

/-- What the next statements add or change. -/
lemma mem_filterMap_changeOf?_iff (unique : (previous.map (·.key)).Nodup) {c : Change} :
    c ∈ next.filterMap (changeOf? previous) ↔ c.isRemoval = false ∧ c.Holds previous next := by
  have old {key text : List UInt8} := @textOf?_eq_some_iff previous unique key text
  rw [List.mem_filterMap]
  constructor
  · rintro ⟨e, he, h⟩
    unfold changeOf? at h
    split at h
    · next missing =>
      cases h
      exact ⟨rfl, he, textOf?_eq_none_iff.1 missing⟩
    · next text found =>
      split at h
      · cases h
      · next differ =>
        cases h
        exact ⟨rfl, old.1 found, he, by simpa using differ⟩
  · rintro ⟨kept, holds⟩
    cases c with
    | added key text =>
      refine ⟨⟨key, text⟩, holds.1, ?_⟩
      rw [changeOf?, textOf?_eq_none_iff.2 holds.2]
    | changed key before after =>
      obtain ⟨mem, mem', differ⟩ := holds
      refine ⟨⟨key, after⟩, mem', ?_⟩
      rw [changeOf?, old.2 mem]
      exact if_neg (by simpa using differ)
    | removed key text => cases kept

/-- What is removed. -/
lemma mem_removals_iff {c : Change} :
    c ∈ (previous.filter fun e => !next.any fun n => n.key == e.key).map
        (fun e => Change.removed e.key e.text) ↔
      c.isRemoval = true ∧ c.Holds previous next := by
  have missing (e : Entry) : (!next.any fun n => n.key == e.key) = true ↔
      e.key ∉ next.map (·.key) := by
    simp
  simp only [List.mem_map, List.mem_filter, missing]
  constructor
  · rintro ⟨e, ⟨he, gone⟩, rfl⟩
    exact ⟨rfl, he, by simpa using gone⟩
  · rintro ⟨removes, holds⟩
    cases c with
    | removed key text => exact ⟨⟨key, text⟩, ⟨holds.1, by simpa using holds.2⟩, rfl⟩
    | added key text => cases removes
    | changed key before after => cases removes

/-- The changes between two scripts: everything that has changed and nothing else, what is added or
changed before what is removed, each in the order of its script, no key twice. They turn the texts of
the previous script into those of the next one. -/
structure IsDifference (previous next : List Entry) (cs : List Change) : Prop where
  complete : ∀ c, c ∈ cs ↔ c.Holds previous next
  ordered : ∃ kept gone, cs = kept ++ gone ∧
    (∀ c ∈ kept, c.isRemoval = false) ∧ (kept.map Change.key).Sublist (next.map (·.key)) ∧
    (∀ c ∈ gone, c.isRemoval = true) ∧ (gone.map Change.key).Sublist (previous.map (·.key))
  nodup : (cs.map Change.key).Nodup
  patches : patch? (textOf? previous) cs = some (textOf? next)

/-- The key of a change is gone exactly if the change removes it. -/
lemma Change.Holds.key_mem_next_iff {c : Change} (h : c.Holds previous next) :
    c.key ∈ next.map (·.key) ↔ c.isRemoval = false := by
  cases c with
  | added key text => exact iff_of_true (List.mem_map_of_mem h.1) rfl
  | removed key text => exact iff_of_false h.2 nofun
  | changed key old new => exact iff_of_true (List.mem_map_of_mem h.2.1) rfl

/-- A change that holds starts from the text of its key before and ends at the one after. -/
lemma Change.Holds.texts (unique : (previous.map (·.key)).Nodup) (unique' : (next.map (·.key)).Nodup)
    {c : Change} (h : c.Holds previous next) :
    textOf? previous c.key = c.before ∧ textOf? next c.key = c.after := by
  cases c with
  | added key text =>
    exact ⟨textOf?_eq_none_iff.2 h.2, (textOf?_eq_some_iff unique').2 h.1⟩
  | removed key text =>
    exact ⟨(textOf?_eq_some_iff unique).2 h.1, textOf?_eq_none_iff.2 h.2⟩
  | changed key old new =>
    exact ⟨(textOf?_eq_some_iff unique).2 h.1, (textOf?_eq_some_iff unique').2 h.2.1⟩

/-- A key without change has the same text before and after. -/
lemma textOf?_eq_of_unchanged {key : List UInt8}
    (h : ∀ c : Change, c.Holds previous next → c.key ≠ key) : textOf? previous key = textOf? next key := by
  cases old : textOf? previous key with
  | none =>
    cases new : textOf? next key with
    | none => rfl
    | some text =>
      exact absurd rfl (h (.added key text) ⟨mem_of_textOf?_eq_some new, textOf?_eq_none_iff.1 old⟩)
  | some text =>
    cases new : textOf? next key with
    | none =>
      exact absurd rfl (h (.removed key text) ⟨mem_of_textOf?_eq_some old, textOf?_eq_none_iff.1 new⟩)
    | some text' =>
      by_contra differ
      refine absurd rfl (h (.changed key text text')
        ⟨mem_of_textOf?_eq_some old, mem_of_textOf?_eq_some new, ?_⟩)
      rintro rfl
      exact differ rfl

/-- The changes between statements of different keys are their difference. -/
lemma isDifference_changes (unique : (previous.map (·.key)).Nodup)
    (unique' : (next.map (·.key)).Nodup) : IsDifference previous next (changes previous next) := by
  have complete (c : Change) : c ∈ changes previous next ↔ c.Holds previous next := by
    rw [changes, List.mem_append, mem_filterMap_changeOf?_iff unique, mem_removals_iff]
    cases c.isRemoval <;> simp
  have kept := keys_filterMap_changeOf? previous next
  have gone : (((previous.filter fun e => !next.any fun n => n.key == e.key).map
      fun e => Change.removed e.key e.text).map Change.key).Sublist (previous.map (·.key)) := by
    rw [List.map_map]
    exact List.filter_sublist.map _
  have nodup : ((changes previous next).map Change.key).Nodup := by
    rw [changes, List.map_append]
    refine List.nodup_append'.2 ⟨kept.nodup unique', gone.nodup unique, ?_⟩
    intro key mem mem'
    obtain ⟨d, hd, rfl⟩ := List.mem_map.1 mem'
    obtain ⟨removes, holds⟩ := mem_removals_iff.1 hd
    have stays := holds.key_mem_next_iff.1 (kept.subset mem)
    rw [removes] at stays
    cases stays
  refine ⟨complete, ⟨_, _, rfl, fun c hc => ((mem_filterMap_changeOf?_iff unique).1 hc).1, kept,
    fun c hc => (mem_removals_iff.1 hc).1, gone⟩, nodup, ?_⟩
  obtain ⟨patched, applied, behind, others⟩ := patch?_eq_some nodup fun c hc =>
    (((complete c).1 hc).texts unique unique').1
  rw [applied, Option.some_inj]
  funext key
  by_cases mem : key ∈ (changes previous next).map Change.key
  · obtain ⟨c, hc, rfl⟩ := List.mem_map.1 mem
    rw [behind c hc, (((complete c).1 hc).texts unique unique').2]
  · rw [others key mem]
    exact textOf?_eq_of_unchanged fun c holds same =>
      mem (same ▸ List.mem_map_of_mem ((complete c).2 holds))

end Entries

/-- The changes that a comparison lists are the difference of the two scripts, if the keys of each are
different. -/
theorem changes_isDifference {previous next : List UInt8} (hash : List UInt8 → List UInt8)
    (unique : UniqueKeys previous) (unique' : UniqueKeys next) :
    IsDifference (entries previous) (entries next) (compare hash previous next).changes :=
  isDifference_changes unique unique'

/-- A table is added, one is changed and one is removed, and one moves. -/
theorem changes_isDifference_of_revised :
    UniqueKeys (Text.bytes "CREATE TABLE a (x); CREATE TABLE b (y); CREATE TABLE c (z)") ∧
    UniqueKeys (Text.bytes "CREATE TABLE d (w); CREATE TABLE b (v); CREATE TABLE a (x)") ∧
    IsDifference (entries (Text.bytes "CREATE TABLE a (x); CREATE TABLE b (y); CREATE TABLE c (z)"))
      (entries (Text.bytes "CREATE TABLE d (w); CREATE TABLE b (v); CREATE TABLE a (x)"))
      [.added (Text.bytes "table:d") (Text.bytes "CREATE TABLE d (w)"),
        .changed (Text.bytes "table:b") (Text.bytes "CREATE TABLE b (y)")
          (Text.bytes "CREATE TABLE b (v)"),
        .removed (Text.bytes "table:c") (Text.bytes "CREATE TABLE c (z)")] := by
  have unique :
      UniqueKeys (Text.bytes "CREATE TABLE a (x); CREATE TABLE b (y); CREATE TABLE c (z)") := by
    rw [Text.bytes_ofList]
    decide +kernel
  have unique' :
      UniqueKeys (Text.bytes "CREATE TABLE d (w); CREATE TABLE b (v); CREATE TABLE a (x)") := by
    rw [Text.bytes_ofList]
    decide +kernel
  have difference := changes_isDifference Digest.Sha256.hash unique unique'
  have listed : (compare Digest.Sha256.hash
      (Text.bytes "CREATE TABLE a (x); CREATE TABLE b (y); CREATE TABLE c (z)")
      (Text.bytes "CREATE TABLE d (w); CREATE TABLE b (v); CREATE TABLE a (x)")).changes =
      [.added (Text.bytes "table:d") (Text.bytes "CREATE TABLE d (w)"),
        .changed (Text.bytes "table:b") (Text.bytes "CREATE TABLE b (y)")
          (Text.bytes "CREATE TABLE b (v)"),
        .removed (Text.bytes "table:c") (Text.bytes "CREATE TABLE c (z)")] := by
    rw [Text.bytes_ofList, Text.bytes_ofList]
    decide +kernel
  rw [listed] at difference
  exact ⟨unique, unique', difference⟩

end ErdSql.Script
