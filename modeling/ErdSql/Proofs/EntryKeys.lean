import ErdSql.Proofs.Drift
import ErdSql.Proofs.Encoding

/-!
# Keys of statements

The statements of a script that define one thing get numbers behind their common key, in the order in
which they stand. The numbers are spelled behind a mark, and nothing keeps a statement from defining a
thing whose name is spelled like a key with its number.

* `mem_entriesBehind_iff`: a statement has the key of what it defines and its number among the
  statements that define the same.
* `uniqueKeys_iff`: the keys of a script are different exactly if no statement defines what is spelled
  like a repetition of another.
* `drift_and_changes_of_perm`: statements that change places never cause drift, and cause no change
  exactly if the keys are different and the statements of each key keep their order.

All of it rests on `numbered_cases`: two numbered keys that are spelled the same are of one thing and
one number, or one of them has no number.
-/

namespace ErdSql.Script

open Text (ascii)

/-! ### Numbers -/

/-- A repetition has its number behind a mark. -/
lemma numbered_of_two_le {n : Nat} (h : 2 ≤ n) (key : List UInt8) :
    numbered key n = key ++ ascii '#' :: Text.bytes (toString n) := by
  have mark : Text.bytes "#" = [ascii '#'] := by decide
  rw [numbered, if_pos (by omega), Text.bytes_append, mark, List.singleton_append]

/-- A repetition is spelled longer than its key. -/
lemma length_lt_numbered {n : Nat} (h : 2 ≤ n) (key : List UInt8) :
    key.length < (numbered key n).length := by
  rw [numbered_of_two_le h, List.length_append, List.length_cons]
  omega

/-- The mark does not stand in a number. -/
lemma mark_notMem_number (n : Nat) : ascii '#' ∉ Text.bytes (toString n) := by
  rw [Text.bytes, Text.encode, List.mem_flatMap]
  rintro ⟨c, hc, mem⟩
  obtain rfl := Text.eq_of_ascii_mem_utf8EncodeChar (by decide) mem
  exact Text.notMem_toString (by decide) n hc

/-- Repetitions that are spelled the same are of one key and one number. -/
lemma numbered_inj {n n' : Nat} (h : 2 ≤ n) (h' : 2 ≤ n') {key key' : List UInt8}
    (same : numbered key n = numbered key' n') : key = key' ∧ n = n' := by
  rw [numbered_of_two_le h, numbered_of_two_le h'] at same
  -- the last mark is the first one from behind
  have reversed := congrArg List.reverse same
  simp only [List.reverse_append, List.reverse_cons, List.append_assoc, List.singleton_append]
    at reversed
  have noMark (n : Nat) : ascii '#' ∉ (Text.bytes (toString n)).reverse := by
    rw [List.mem_reverse]
    exact mark_notMem_number n
  obtain ⟨numbers, keys⟩ := Text.append_cons_inj (noMark n) (noMark n') reversed
  refine ⟨List.reverse_inj.1 keys, ?_⟩
  exact Nat.repr_inj.1 (Text.bytes_inj.1 (List.reverse_inj.1 numbers))

/-- Numbered keys that are spelled the same are of one key and one number, or just one of them has
the number behind it. -/
lemma numbered_cases {n n' : Nat} (h : 1 ≤ n) (h' : 1 ≤ n') {key key' : List UInt8}
    (same : numbered key n = numbered key' n') :
    (key = key' ∧ n = n') ∨ (n = 1 ∧ 2 ≤ n' ∧ key = numbered key' n') ∨
      (n' = 1 ∧ 2 ≤ n ∧ key' = numbered key n) := by
  rcases Nat.lt_or_ge 1 n with two | one
  · rcases Nat.lt_or_ge 1 n' with two' | one'
    · exact .inl (numbered_inj two two' same)
    · obtain rfl : n' = 1 := by omega
      exact .inr (.inr ⟨rfl, two, same.symm⟩)
  · obtain rfl : n = 1 := by omega
    rcases Nat.lt_or_ge 1 n' with two' | one'
    · exact .inr (.inl ⟨rfl, two', same⟩)
    · obtain rfl : n' = 1 := by omega
      exact .inl ⟨same, rfl⟩

/-- A key has every number once. -/
lemma numbered_right_inj {n n' : Nat} (h : 1 ≤ n) (h' : 1 ≤ n') {key : List UInt8}
    (same : numbered key n = numbered key n') : n = n' := by
  rcases numbered_cases h h' same with ⟨-, e⟩ | ⟨-, two, e⟩ | ⟨-, two, e⟩
  · exact e
  · exact absurd (congrArg List.length e) (length_lt_numbered two key).ne
  · exact absurd (congrArg List.length e) (length_lt_numbered two key).ne

/-! ### Entries -/

/-- The statements that define one thing, in their order. -/
def withKey (texts : List (List UInt8)) (key : List UInt8) : List (List UInt8) :=
  texts.filter fun text => statementKey text == key

/-- What all the statements define. -/
def definedKeys (texts : List (List UInt8)) : List (List UInt8) :=
  texts.map statementKey

lemma length_withKey (texts : List (List UInt8)) (key : List UInt8) :
    (withKey texts key).length = (definedKeys texts).count key := by
  rw [withKey, definedKeys, List.count_eq_countP, List.countP_map, List.countP_eq_length_filter]
  rfl

lemma statementKey_of_mem_withKey {texts : List (List UInt8)} {key text : List UInt8}
    (h : text ∈ withKey texts key) : statementKey text = key :=
  beq_iff_eq.1 (List.mem_filter.1 h).2

/-- A statement has the key of what it defines, with its number among the statements that define the
same. -/
lemma mem_entriesBehind_iff {seen texts : List (List UInt8)} {e : Entry} :
    e ∈ entriesBehind seen texts ↔ ∃ i, (withKey texts (statementKey e.text))[i]? = some e.text ∧
      e.key = numbered (statementKey e.text) (seen.count (statementKey e.text) + i + 1) := by
  induction texts generalizing seen with
  | nil => simp [entriesBehind, withKey]
  | cons text rest ih =>
    rw [entriesBehind, List.mem_cons, ih]
    by_cases same : statementKey text = statementKey e.text
    · have behind : (statementKey text :: seen).count (statementKey e.text) =
          seen.count (statementKey e.text) + 1 := by
        rw [same, List.count_cons_self]
      have front : withKey (text :: rest) (statementKey e.text) =
          text :: withKey rest (statementKey e.text) := by
        rw [withKey, List.filter_cons, if_pos (by simpa using same)]
        rfl
      rw [behind, front]
      constructor
      · rintro (rfl | ⟨i, found, key⟩)
        · exact ⟨0, rfl, rfl⟩
        · exact ⟨i + 1, found, by rw [key]; congr 1; omega⟩
      · rintro ⟨i, found, key⟩
        cases i with
        | zero =>
          obtain rfl : text = e.text := Option.some.inj found
          exact .inl (by cases e; simp_all)
        | succ i => exact .inr ⟨i, found, by rw [key]; congr 1; omega⟩
    · have behind : (statementKey text :: seen).count (statementKey e.text) =
          seen.count (statementKey e.text) := List.count_cons_of_ne same
      have front : withKey (text :: rest) (statementKey e.text) =
          withKey rest (statementKey e.text) := by
        rw [withKey, List.filter_cons, if_neg (by simpa using same)]
        rfl
      rw [behind, front, or_iff_right]
      rintro rfl
      exact same rfl

/-- The statements that define one thing, by their numbers. -/
lemma getElem?_withKey {texts : List (List UInt8)} {key text : List UInt8} {i : Nat} :
    (withKey texts key)[i]? = some text ↔
      statementKey text = key ∧ ⟨numbered key (i + 1), text⟩ ∈ entriesBehind [] texts := by
  constructor
  · intro found
    obtain rfl := statementKey_of_mem_withKey (List.mem_of_getElem? found)
    refine ⟨rfl, mem_entriesBehind_iff.2 ⟨i, found, ?_⟩⟩
    rw [List.count_nil, Nat.zero_add]
  · rintro ⟨rfl, mem⟩
    obtain ⟨j, found, number⟩ := mem_entriesBehind_iff.1 mem
    rw [List.count_nil, Nat.zero_add] at number
    obtain rfl : i = j := Nat.succ_inj.1 (numbered_right_inj (by omega) (by omega) number)
    exact found

/-- As many statements as define a thing have its key and a number up to theirs. -/
lemma exists_mem_entriesBehind {texts : List (List UInt8)} {key : List UInt8} {n : Nat} (first : 1 ≤ n)
    (last : n ≤ (definedKeys texts).count key) :
    ∃ text, statementKey text = key ∧ ⟨numbered key n, text⟩ ∈ entriesBehind [] texts := by
  rw [← length_withKey] at last
  have found := getElem?_withKey.1 (List.getElem?_eq_getElem (by omega : n - 1 < (withKey texts key).length))
  rw [Nat.sub_add_cancel first] at found
  exact ⟨_, found⟩

/-! ### Different keys -/

/-- The keys of a script are different. -/
def UniqueKeys (script : List UInt8) : Prop :=
  ((entries script).map (·.key)).Nodup

instance (script : List UInt8) : Decidable (UniqueKeys script) :=
  inferInstanceAs (Decidable (List.Nodup _))

/-- No statement defines what is spelled like a repetition of what some define. -/
def Unspelled (texts : List (List UInt8)) : Prop :=
  ∀ key ∈ definedKeys texts, ∀ n ≤ (definedKeys texts).count key, 2 ≤ n →
    numbered key n ∉ definedKeys texts

instance (texts : List (List UInt8)) : Decidable (Unspelled texts) :=
  inferInstanceAs (Decidable (∀ key ∈ _, ∀ n ≤ _, _ → _))

/-- Whether keys are spelled like repetitions does not depend on the order of statements. -/
lemma Unspelled.of_perm {texts texts' : List (List UInt8)} (h : Unspelled texts)
    (perm : texts.Perm texts') : Unspelled texts' := by
  have keys : (definedKeys texts).Perm (definedKeys texts') := perm.map _
  intro key mem n le two spelled
  rw [← keys.count_eq] at le
  exact h key (keys.mem_iff.2 mem) n le two (keys.mem_iff.2 spelled)

/-- Numbers that no key spells keep keys apart. The induction is on the statements, behind those whose
keys have been `seen`. -/
lemma nodup_keys_entriesBehind {seen texts : List (List UInt8)}
    (free : ∀ key n, 2 ≤ n → n ≤ seen.count key + (definedKeys texts).count key →
      numbered key n ∉ definedKeys texts) : ((entriesBehind seen texts).map (·.key)).Nodup := by
  induction texts generalizing seen with
  | nil => exact List.nodup_nil
  | cons text rest ih =>
    have total (key : List UInt8) : (statementKey text :: seen).count key +
        (definedKeys rest).count key = seen.count key + (definedKeys (text :: rest)).count key := by
      rw [definedKeys, definedKeys, List.map_cons, List.count_cons, List.count_cons]
      omega
    rw [entriesBehind, List.map_cons, List.nodup_cons]
    constructor
    · intro mem
      obtain ⟨e, he, same⟩ := List.mem_map.1 mem
      obtain ⟨i, found, key⟩ := mem_entriesBehind_iff.1 he
      have within : i < (definedKeys rest).count (statementKey e.text) := by
        rw [← length_withKey]
        exact (List.getElem?_eq_some_iff.1 found).1
      have later : statementKey e.text ∈ definedKeys rest :=
        List.count_pos_iff.1 (by omega)
      have bound := total (statementKey e.text)
      have bound' := total (statementKey text)
      rw [List.count_cons_self] at bound'
      rw [key] at same
      rcases numbered_cases (by omega) (by omega) same with ⟨one, number⟩ | ⟨-, two, spelled⟩ |
        ⟨-, two, spelled⟩
      · rw [one, List.count_cons_self] at number
        omega
      · refine free (statementKey text) _ two (by omega) ?_
        rw [← spelled]
        exact List.mem_cons_of_mem _ later
      · refine free (statementKey e.text) _ two (by omega) ?_
        rw [← spelled]
        exact List.mem_cons_self
    · refine ih fun key n two le => ?_
      rw [total] at le
      exact fun spelled => free key n two le (List.mem_cons_of_mem _ spelled)

/-- The keys of statements are different if no key is spelled like a repetition. -/
lemma Unspelled.nodup {texts : List (List UInt8)} (h : Unspelled texts) :
    ((entriesBehind [] texts).map (·.key)).Nodup := by
  refine nodup_keys_entriesBehind fun key n two le => ?_
  rw [List.count_nil, Nat.zero_add] at le
  exact h key (List.count_pos_iff.1 (by omega)) n le two

/-- If every key stands for one text, no key is spelled like a repetition: the two statements that
then had one key would define different things. -/
lemma unspelled_of_functional {texts : List (List UInt8)}
    (h : ∀ e ∈ entriesBehind [] texts, ∀ e' ∈ entriesBehind [] texts, e.key = e'.key →
      e.text = e'.text) : Unspelled texts := by
  intro key mem n le two spelled
  obtain ⟨text, defines, he⟩ := exists_mem_entriesBehind (by omega) le
  obtain ⟨text', defines', he'⟩ := exists_mem_entriesBehind le_rfl (List.count_pos_iff.2 spelled)
  obtain rfl : text = text' := h _ he _ he' rfl
  rw [defines] at defines'
  exact absurd (congrArg List.length defines') (length_lt_numbered two key).ne

/-- The keys of a script are different exactly if no statement defines what is spelled like a
repetition of what others define. Exactly then every statement is found by its key: none is hidden by
one that follows. -/
theorem uniqueKeys_iff (script : List UInt8) :
    (UniqueKeys script ↔ Unspelled (normalize script)) ∧
    (UniqueKeys script ↔ ∀ e ∈ entries script, textOf? (entries script) e.key = some e.text) := by
  have found (h : UniqueKeys script) :
      ∀ e ∈ entries script, textOf? (entries script) e.key = some e.text :=
    fun e he => (textOf?_eq_some_iff h).2 he
  have unspelled (h : ∀ e ∈ entries script, textOf? (entries script) e.key = some e.text) :
      Unspelled (normalize script) := by
    refine unspelled_of_functional fun e he e' he' same => ?_
    have one := h e he
    rw [same, h e' he'] at one
    exact (Option.some.inj one).symm
  exact ⟨⟨fun h => unspelled (found h), Unspelled.nodup⟩, found, fun h => (unspelled h).nodup⟩

/-- Two tables of one name, and a table that is named like the second of them. -/
def respelled : List UInt8 :=
  Text.bytes "CREATE TABLE a (x); CREATE TABLE a (y); CREATE TABLE \"a#2\" (z)"

/-- A table whose name is spelled like the repetition of another has the key of that repetition. -/
theorem repetition_spelled : ¬ UniqueKeys respelled := by
  rw [respelled, Text.bytes_ofList]
  decide +kernel

/-! ### Statements that change places -/

/-- The statements that define one thing stand in the same order. -/
def SameOrder (texts texts' : List (List UInt8)) : Prop :=
  ∀ key ∈ definedKeys texts, withKey texts key = withKey texts' key

instance (texts texts' : List (List UInt8)) : Decidable (SameOrder texts texts') :=
  inferInstanceAs (Decidable (∀ key ∈ _, _))

lemma SameOrder.withKey_eq {texts texts' : List (List UInt8)} (h : SameOrder texts texts')
    (perm : texts.Perm texts') (key : List UInt8) : withKey texts key = withKey texts' key := by
  by_cases mem : key ∈ definedKeys texts
  · exact h key mem
  · have none {texts : List (List UInt8)} (mem : key ∉ definedKeys texts) : withKey texts key = [] := by
      rw [← List.length_eq_zero_iff, length_withKey, List.count_eq_zero]
      exact mem
    rw [none mem, none fun mem' => mem ((perm.map _).mem_iff.2 mem')]

/-- The root of a script does not depend on the order of its statements. -/
lemma root_eq_of_perm {previous next : List UInt8} (hash : List UInt8 → List UInt8)
    (perm : (normalize previous).Perm (normalize next)) :
    root hash (entries previous) = root hash (entries next) := by
  have texts : ((entries previous).map (·.text)).Perm ((entries next).map (·.text)) := by
    rw [entries, entries, map_text_entriesBehind, map_text_entriesBehind]
    exact perm
  have sorted := sortedTexts_eq_iff.2 texts
  have empty : (entries previous).isEmpty = (entries next).isEmpty := by
    rw [← List.isEmpty_map (f := (·.text)), ← List.isEmpty_map (l := entries next) (f := (·.text))]
    exact texts.isEmpty_eq
  rw [root, root, ← sortedTexts, ← sortedTexts, sorted, empty]

/-- Statements that have changed places are the same for a comparison exactly if their keys are
different and the statements of each key have kept their order. -/
lemma sameStatements_iff_of_perm {previous next : List UInt8}
    (perm : (normalize previous).Perm (normalize next)) :
    SameStatements (entries previous) (entries next) ↔
      UniqueKeys previous ∧ SameOrder (normalize previous) (normalize next) := by
  constructor
  · intro same
    have unique : UniqueKeys previous := by
      refine Unspelled.nodup (Unspelled.of_perm (unspelled_of_functional ?_) perm.symm)
      intro e he e' he' key
      have found := (same e).1 he
      rw [key, (same e').1 he'] at found
      exact (Option.some.inj found).symm
    refine ⟨unique, fun key _ => ?_⟩
    have mem (e : Entry) : e ∈ entries previous ↔ e ∈ entries next := by
      rw [same, textOf?_eq_some_iff unique]
    refine List.ext_getElem? fun i => Option.ext fun text => ?_
    rw [getElem?_withKey, getElem?_withKey]
    exact and_congr_right fun _ => mem _
  · rintro ⟨unique, order⟩ e
    rw [textOf?_eq_some_iff unique, entries, entries, mem_entriesBehind_iff, mem_entriesBehind_iff,
      order.withKey_eq perm]

/-- Statements that change places never cause drift. They cause no change exactly if the keys of the
script are different and the statements of each key keep their order. -/
theorem drift_and_changes_of_perm {previous next : List UInt8} (hash : List UInt8 → List UInt8)
    (perm : (normalize previous).Perm (normalize next)) :
    (compare hash previous next).drift = false ∧
    ((compare hash previous next).changes = [] ↔
      UniqueKeys previous ∧ SameOrder (normalize previous) (normalize next)) :=
  ⟨drift_eq_false_iff.2 (root_eq_of_perm hash perm),
    changes_eq_nil_iff.trans (sameStatements_iff_of_perm perm)⟩

/-- A statement may move between two others of one key. -/
theorem drift_and_changes_of_moved :
    (normalize (Text.bytes "CREATE TABLE a (x); CREATE TABLE b (y); CREATE TABLE a (z)")).Perm
      (normalize (Text.bytes "CREATE TABLE b (y); CREATE TABLE a (x); CREATE TABLE a (z)")) ∧
    (compare Digest.Sha256.hash
        (Text.bytes "CREATE TABLE a (x); CREATE TABLE b (y); CREATE TABLE a (z)")
        (Text.bytes "CREATE TABLE b (y); CREATE TABLE a (x); CREATE TABLE a (z)")).drift = false ∧
    (compare Digest.Sha256.hash
        (Text.bytes "CREATE TABLE a (x); CREATE TABLE b (y); CREATE TABLE a (z)")
        (Text.bytes "CREATE TABLE b (y); CREATE TABLE a (x); CREATE TABLE a (z)")).changes = [] := by
  rw [Text.bytes_ofList, Text.bytes_ofList]
  refine ⟨?moved, (drift_and_changes_of_perm _ ?moved).1, (drift_and_changes_of_perm _ ?moved).2.2 ?_⟩
  · decide +kernel
  · decide +kernel

/-- A trigger on a table. -/
def triggerOn (table : String) : List UInt8 :=
  Text.bytes "CREATE TRIGGER t AFTER INSERT ON " ++ Text.bytes table ++
    Text.bytes " EXECUTE FUNCTION f(); "

/-- Two triggers of one name on different tables that change places are reported as changed, and a
script with a table that is named like a repetition even differs from itself. -/
theorem perm_reports_changes :
    ((normalize (triggerOn "a" ++ triggerOn "b")).Perm (normalize (triggerOn "b" ++ triggerOn "a")) ∧
      ¬ ((compare Digest.Sha256.hash (triggerOn "a" ++ triggerOn "b")
            (triggerOn "b" ++ triggerOn "a")).changes = [] ∧
          (compare Digest.Sha256.hash (triggerOn "a" ++ triggerOn "b")
            (triggerOn "b" ++ triggerOn "a")).drift = false)) ∧
    ¬ ((compare Digest.Sha256.hash respelled respelled).changes = [] ∧
        (compare Digest.Sha256.hash respelled respelled).drift = false) := by
  rw [respelled, triggerOn, triggerOn, Text.bytes_ofList, Text.bytes_ofList, Text.bytes_ofList,
    Text.bytes_ofList, Text.bytes_ofList]
  refine ⟨⟨by decide +kernel, fun same => absurd same.1 ?_⟩, fun same => absurd same.1 ?_⟩
  · decide +kernel
  · decide +kernel

end ErdSql.Script
