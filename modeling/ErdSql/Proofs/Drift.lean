import ErdSql.Digest.Sha256
import ErdSql.Proofs.HashTree
import ErdSql.Script.Comparison
import Mathlib

/-!
# Drift and changes

Two answers about a pair of scripts come from different algorithms. `Comparison.drift` compares root
hashes of the sorted statements, `Comparison.changes` compares statements key by key. Under a hash
without collisions each is characterised on its own:

* `root_eq_iff`: the roots agree exactly when the sorted statements make alike trees (`SameTree`).
* `changes_eq_nil_iff`: there is no change exactly when the statements of the next script are the
  statements found by key in the previous one (`SameStatements`).

The two conditions differ: a tree repeats its last node, the texts of one key may change places, and a
statement may be spelled like a numbered key. Where the keys of each script are pairwise different and
no statement spells two digests, both say that the scripts have the same statements.
-/

namespace ErdSql.Script

open Digest.HashTree

/-! ### Sorting -/

/-- The order of byte strings is total. -/
lemma bytesLE_total : ∀ a b : List UInt8, (Text.bytesLE a b || Text.bytesLE b a) = true
  | [], _ => by simp [Text.bytesLE]
  | _ :: _, [] => by simp [Text.bytesLE]
  | a :: as, b :: bs => by
    have ih := bytesLE_total as bs
    simp only [Text.bytesLE, Bool.or_eq_true, Bool.and_eq_true, decide_eq_true_eq, beq_iff_eq] at ih ⊢
    by_cases e : a = b
    · subst e
      rcases ih with ih | ih
      · exact Or.inl (Or.inr ⟨rfl, ih⟩)
      · exact Or.inr (Or.inr ⟨rfl, ih⟩)
    · rcases UInt8.lt_or_lt_of_ne e with h | h
      · exact Or.inl (Or.inl h)
      · exact Or.inr (Or.inl h)

/-- The order of byte strings is transitive. -/
lemma bytesLE_trans : ∀ a b c : List UInt8,
    Text.bytesLE a b = true → Text.bytesLE b c = true → Text.bytesLE a c = true
  | [], _, _, _, _ => by simp [Text.bytesLE]
  | _ :: _, [], _, h, _ => by simp [Text.bytesLE] at h
  | _ :: _, _ :: _, [], _, h => by simp [Text.bytesLE] at h
  | a :: as, b :: bs, c :: cs, h, h' => by
    simp only [Text.bytesLE, Bool.or_eq_true, Bool.and_eq_true, decide_eq_true_eq, beq_iff_eq] at h h' ⊢
    rcases h with h | ⟨rfl, h⟩
    · rcases h' with h' | ⟨rfl, _⟩
      · exact Or.inl (UInt8.lt_trans h h')
      · exact Or.inl h
    · rcases h' with h' | ⟨rfl, h'⟩
      · exact Or.inl h'
      · exact Or.inr ⟨rfl, bytesLE_trans as bs cs h h'⟩

/-- Byte strings that come before each other are equal. -/
lemma bytesLE_antisymm : ∀ a b : List UInt8,
    Text.bytesLE a b = true → Text.bytesLE b a = true → a = b
  | [], [], _, _ => rfl
  | [], _ :: _, _, h => by simp [Text.bytesLE] at h
  | _ :: _, [], h, _ => by simp [Text.bytesLE] at h
  | a :: as, b :: bs, h, h' => by
    simp only [Text.bytesLE, Bool.or_eq_true, Bool.and_eq_true, decide_eq_true_eq, beq_iff_eq] at h h'
    rcases h with h | ⟨rfl, h⟩
    · rcases h' with h' | ⟨rfl, _⟩
      · exact absurd (UInt8.lt_trans h h') (UInt8.lt_irrefl a)
      · exact absurd h (UInt8.lt_irrefl b)
    · rcases h' with h' | ⟨_, h'⟩
      · exact absurd h' (UInt8.lt_irrefl a)
      · rw [bytesLE_antisymm as bs h h']

/-- The texts of statements in the order in which they are hashed. -/
def sortedTexts (es : List Entry) : List (List UInt8) :=
  (es.map (·.text)).mergeSort Text.bytesLE

/-- Texts that are sorted are the sorted texts of statements that have them in any order. -/
lemma sortedTexts_eq {es : List Entry} {texts : List (List UInt8)}
    (perm : (es.map (·.text)).Perm texts)
    (sorted : texts.Pairwise fun a b => Text.bytesLE a b = true) : sortedTexts es = texts := by
  refine List.Perm.eq_of_pairwise (fun a b _ _ => bytesLE_antisymm a b)
    (List.pairwise_mergeSort bytesLE_trans bytesLE_total _) sorted ?_
  exact (List.mergeSort_perm _ _).trans perm

/-- Statements are sorted to the same list exactly when they have the same texts equally often. -/
lemma sortedTexts_eq_iff {before after : List Entry} :
    sortedTexts before = sortedTexts after ↔
      (before.map (·.text)).Perm (after.map (·.text)) := by
  constructor
  · intro h
    have back := List.mergeSort_perm (after.map (·.text)) Text.bytesLE
    rw [← sortedTexts, ← h] at back
    exact (List.mergeSort_perm _ _).symm.trans back
  · intro h
    exact sortedTexts_eq (h.trans (List.mergeSort_perm _ _).symm)
      (List.pairwise_mergeSort bytesLE_trans bytesLE_total _)

/-- Sorting keeps the number of statements. -/
lemma sortedTexts_ne_nil {es : List Entry} (h : es ≠ []) : sortedTexts es ≠ [] := by
  intro e
  have := congrArg List.length e
  simp only [sortedTexts, List.length_mergeSort, List.length_map, List.length_nil] at this
  exact h (List.length_eq_zero_iff.1 this)

/-! ### Roots -/

/-- All byte strings that are hashed for the root of statements. -/
def hashedStrings (hash : List UInt8 → List UInt8) (es : List Entry) : List (List UInt8) :=
  if es.isEmpty then [emptyMark] else (tree (sortedTexts es)).contents hash

/-- No two different byte strings that are hashed for the roots of two scripts have one digest. -/
def NoCollisions (hash : List UInt8 → List UInt8) (before after : List Entry) : Prop :=
  ∀ s ∈ hashedStrings hash before ++ hashedStrings hash after,
    ∀ t ∈ hashedStrings hash before ++ hashedStrings hash after, hash s = hash t → s = t

instance (hash : List UInt8 → List UInt8) (before after : List Entry) :
    Decidable (NoCollisions hash before after) :=
  inferInstanceAs (Decidable (∀ s ∈ _, ∀ t ∈ _, _))

/-- The sorted statements of two scripts make alike trees, or there are none in both. -/
def SameTree (hash : List UInt8 → List UInt8) (before after : List Entry) : Prop :=
  (before = [] ∧ after = []) ∨
    (before ≠ [] ∧ after ≠ [] ∧
      (tree (sortedTexts before)).Alike hash (tree (sortedTexts after)))

variable {hash : List UInt8 → List UInt8}

/-- A script with statements has the digest of their tree as its root. -/
lemma root_eq_digest_tree {es : List Entry} (h : es ≠ []) :
    root hash es = (tree (sortedTexts es)).digest hash := by
  rw [root, if_neg (by simpa using h)]
  exact root_eq_digest hash (sortedTexts_ne_nil h)

/-- A script without statements hashes a mark that is too short to be two digests. -/
lemma root_nil_ne {es : List Entry} (len : ∀ s, (hash s).length = 32) (h : es ≠ [])
    (inj : NoCollisions hash [] es) : root hash [] ≠ root hash es := by
  intro e
  have mark : emptyMark = (tree (sortedTexts es)).content hash := by
    refine inj _ (by simp [hashedStrings]) _ ?_ ?_
    · simp only [hashedStrings, List.isEmpty_iff, h, if_false]
      exact List.mem_append_right _ (Tree.content_mem_contents _)
    · rw [root_eq_digest_tree h, Tree.digest_eq_hash_content] at e
      exact e
  have size := congrArg List.length mark
  rw [length_content_tree len (sortedTexts_ne_nil h)] at size
  exact absurd size (by decide)

/-- Without collisions the roots of two scripts agree exactly when their trees are alike. -/
lemma root_eq_iff {before after : List Entry} (len : ∀ s, (hash s).length = 32)
    (inj : NoCollisions hash before after) :
    root hash before = root hash after ↔ SameTree hash before after := by
  have inj' : NoCollisions hash after before := by
    intro s hs t ht
    exact inj s (by simpa [or_comm] using hs) t (by simpa [or_comm] using ht)
  by_cases hb : before = []
  · subst hb
    by_cases ha : after = []
    · subst ha
      exact ⟨fun _ => Or.inl ⟨rfl, rfl⟩, fun _ => rfl⟩
    · exact ⟨fun e => absurd e (root_nil_ne len ha inj), by rintro (⟨_, e⟩ | ⟨e, _⟩) <;> contradiction⟩
  · by_cases ha : after = []
    · subst ha
      exact ⟨fun e => absurd e.symm (root_nil_ne len hb inj'),
        by rintro (⟨e, _⟩ | ⟨_, e, _⟩) <;> contradiction⟩
    · rw [root_eq_digest_tree hb, root_eq_digest_tree ha, Tree.digest_eq_iff len]
      · simp [SameTree, hb, ha]
      · intro s hs t ht
        refine inj s ?_ t ?_
        · simpa [hashedStrings, hb, ha] using hs
        · simpa [hashedStrings, hb, ha] using ht

/-! ### Changes -/

/-- The statements of the next script are those that are found by key in the previous one. -/
def SameStatements (before after : List Entry) : Prop :=
  ∀ e, e ∈ after ↔ textOf? before e.key = some e.text

/-- A key that is found belongs to an entry. -/
lemma mem_of_textOf?_eq_some {es : List Entry} {key text : List UInt8}
    (h : textOf? es key = some text) : ⟨key, text⟩ ∈ es := by
  obtain ⟨e, found, rfl⟩ := Option.map_eq_some_iff.1 h
  have hk : e.key = key := by simpa using List.find?_some found
  have he : e ∈ es := by simpa using List.mem_of_find?_eq_some found
  rwa [← hk]

/-- The key of an entry is found. -/
lemma exists_textOf?_eq_some {es : List Entry} {e : Entry} (h : e ∈ es) :
    ∃ text, textOf? es e.key = some text := by
  have : (es.reverse.find? fun n => n.key == e.key).isSome := by
    rw [List.find?_isSome]
    exact ⟨e, by simpa using h, by simp⟩
  obtain ⟨n, hn⟩ := Option.isSome_iff_exists.1 this
  exact ⟨n.text, by rw [textOf?, hn]; rfl⟩

/-- An entry gives no change exactly when its key is found with its text. -/
lemma changeOf?_eq_none_iff {before : List Entry} {e : Entry} :
    changeOf? before e = none ↔ textOf? before e.key = some e.text := by
  unfold changeOf?
  cases h : textOf? before e.key with
  | none => simp
  | some old => by_cases he : old = e.text <;> simp [he]

/-- Nothing changes exactly when the statements are those found in the previous script. -/
lemma changes_eq_nil_iff {before after : List Entry} :
    changes before after = [] ↔ SameStatements before after := by
  simp only [changes, List.append_eq_nil_iff, List.filterMap_eq_nil_iff, List.map_eq_nil_iff,
    List.filter_eq_nil_iff, changeOf?_eq_none_iff, Bool.not_eq_true', Bool.not_eq_false,
    List.any_eq_true, beq_iff_eq]
  constructor
  · rintro ⟨same, kept⟩ e
    refine ⟨same e, fun found => ?_⟩
    obtain ⟨n, hn, hk⟩ := kept _ (mem_of_textOf?_eq_some found)
    have text := same n hn
    rw [hk, found] at text
    cases n; cases e
    cases hk; cases text
    exact hn
  · intro same
    refine ⟨fun e he => (same e).1 he, fun e he => ?_⟩
    obtain ⟨text, found⟩ := exists_textOf?_eq_some he
    exact ⟨⟨e.key, text⟩, (same ⟨e.key, text⟩).2 found, rfl⟩

/-! ### Scripts whose keys differ -/

/-- The statements of a script define pairwise different things. -/
def DistinctKeys (script : List UInt8) : Prop :=
  ((normalize script).map statementKey).Nodup

instance (script : List UInt8) : Decidable (DistinctKeys script) :=
  inferInstanceAs (Decidable (List.Nodup _))

/-- Statements of new and different keys keep their keys as they are. -/
lemma entriesBehind_eq_map {seen texts : List (List UInt8)} (nodup : (texts.map statementKey).Nodup)
    (new : ∀ text ∈ texts, statementKey text ∉ seen) :
    entriesBehind seen texts = texts.map fun text => ⟨statementKey text, text⟩ := by
  induction texts generalizing seen with
  | nil => rfl
  | cons text rest ih =>
    simp only [List.map_cons, List.nodup_cons] at nodup
    have first : seen.count (statementKey text) = 0 :=
      List.count_eq_zero.2 (new text List.mem_cons_self)
    have later : ∀ t ∈ rest, statementKey t ∉ statementKey text :: seen := by
      intro t ht
      rw [List.mem_cons, not_or]
      refine ⟨?_, new t (List.mem_cons_of_mem _ ht)⟩
      intro e
      exact nodup.1 (e ▸ List.mem_map_of_mem ht)
    rw [entriesBehind, first, ih nodup.2 later, List.map_cons]
    rfl

/-- The entries of a script with different keys. -/
lemma entries_eq_map {script : List UInt8} (h : DistinctKeys script) :
    entries script = (normalize script).map fun text => ⟨statementKey text, text⟩ :=
  entriesBehind_eq_map h (by simp)

/-- Among entries of different keys a key is found with the text of its entry. -/
lemma textOf?_eq_some_iff {es : List Entry} (nodup : (es.map (·.key)).Nodup)
    {key text : List UInt8} : textOf? es key = some text ↔ ⟨key, text⟩ ∈ es := by
  refine ⟨mem_of_textOf?_eq_some, fun h => ?_⟩
  obtain ⟨other, found⟩ := exists_textOf?_eq_some h
  have same := List.inj_on_of_nodup_map nodup (mem_of_textOf?_eq_some found) h rfl
  rw [found]
  injection same with _ e
  rw [e]

/-- The entries of a script with different keys are its statements, each with its own key. -/
lemma mem_entries_iff {script : List UInt8} (h : DistinctKeys script) {e : Entry} :
    e ∈ entries script ↔ e.text ∈ normalize script ∧ statementKey e.text = e.key := by
  rw [entries_eq_map h, List.mem_map]
  constructor
  · rintro ⟨text, ht, rfl⟩
    exact ⟨ht, rfl⟩
  · rintro ⟨ht, hk⟩
    exact ⟨e.text, ht, by rw [hk]⟩

/-- Entries of different keys are the same exactly when their texts are, whatever their order. -/
lemma sameStatements_iff_perm {previous next : List UInt8} (hp : DistinctKeys previous)
    (hn : DistinctKeys next) :
    SameStatements (entries previous) (entries next) ↔
      (normalize previous).Perm (normalize next) := by
  have keysDiffer : ((entries previous).map (·.key)).Nodup := by
    rw [entries_eq_map hp, List.map_map]
    exact hp
  rw [List.perm_ext_iff_of_nodup (hp.of_map _) (hn.of_map _)]
  constructor
  · intro same text
    have here := same ⟨statementKey text, text⟩
    rw [textOf?_eq_some_iff keysDiffer, mem_entries_iff hn, mem_entries_iff hp] at here
    simpa using here.symm
  · intro same e
    rw [textOf?_eq_some_iff keysDiffer, mem_entries_iff hn, mem_entries_iff hp, same]

/-- The texts of entries are the statements. -/
lemma map_text_entriesBehind (seen texts : List (List UInt8)) :
    (entriesBehind seen texts).map (·.text) = texts := by
  induction texts generalizing seen with
  | nil => rfl
  | cons text rest ih => rw [entriesBehind, List.map_cons, ih]

/-- No statement of a script is spelled like two digests one after the other. -/
def NoDigestPair (hash : List UInt8 → List UInt8) (script : List UInt8) : Prop :=
  ∀ text ∈ normalize script, ∀ a b, text ≠ hash a ++ hash b

/-- Scripts of different keys in which no statement spells two digests have alike trees exactly when
they have the same statements. -/
lemma sameTree_iff_perm {previous next : List UInt8} (hp : DistinctKeys previous)
    (hn : DistinctKeys next) (plainP : NoDigestPair hash previous)
    (plainN : NoDigestPair hash next) :
    SameTree hash (entries previous) (entries next) ↔
      (normalize previous).Perm (normalize next) := by
  have textsP : (entries previous).map (·.text) = normalize previous := map_text_entriesBehind [] _
  have textsN : (entries next).map (·.text) = normalize next := map_text_entriesBehind [] _
  have sorted : sortedTexts (entries previous) = sortedTexts (entries next) ↔
      (normalize previous).Perm (normalize next) := by
    rw [sortedTexts_eq_iff, textsP, textsN]
  have memP : ∀ s, s ∈ sortedTexts (entries previous) ↔ s ∈ normalize previous := by
    intro s
    rw [sortedTexts, textsP, List.mem_mergeSort]
  have memN : ∀ s, s ∈ sortedTexts (entries next) ↔ s ∈ normalize next := by
    intro s
    rw [sortedTexts, textsN, List.mem_mergeSort]
  rw [← sorted]
  constructor
  · rintro (⟨e, e'⟩ | ⟨neP, neN, alike⟩)
    · rw [e, e']
    · have neP' := sortedTexts_ne_nil neP
      have neN' := sortedTexts_ne_nil neN
      refine tree_injective neP' neN' ?_ ?_ (alike.eq ?_)
      · rw [sortedTexts, textsP, (List.mergeSort_perm _ _).nodup_iff]
        exact hp.of_map _
      · rw [sortedTexts, textsN, (List.mergeSort_perm _ _).nodup_iff]
        exact hn.of_map _
      · rintro s (hs | hs)
        · exact plainP s ((memP s).1 (mem_of_mem_leaves_tree neP' hs))
        · exact plainN s ((memN s).1 (mem_of_mem_leaves_tree neN' hs))
  · intro e
    by_cases hb : entries previous = []
    · refine Or.inl ⟨hb, ?_⟩
      by_contra ha
      exact sortedTexts_ne_nil ha (by rw [← e, hb]; simp [sortedTexts])
    · refine Or.inr ⟨hb, ?_, ?_⟩
      · intro ha
        exact sortedTexts_ne_nil hb (by rw [e, ha]; simp [sortedTexts])
      · rw [e]
        exact Tree.Alike.refl _

/-- A comparison reports drift exactly when the roots differ. -/
lemma drift_eq_false_iff {previous next : List UInt8} :
    (compare hash previous next).drift = false ↔
      root hash (entries previous) = root hash (entries next) := by
  simp [Comparison.drift, compare]

/-! ### Agreement -/

/-- Without collisions, drift and changes agree about two scripts exactly when their trees are alike
if and only if their statements are the same. They agree in particular where the keys of each script
are pairwise different and no statement spells two digests. -/
theorem drift_eq_false_iff_changes_eq_nil {previous next : List UInt8}
    (len : ∀ s, (hash s).length = 32)
    (inj : NoCollisions hash (entries previous) (entries next)) :
    (((compare hash previous next).drift = false ↔ (compare hash previous next).changes = []) ↔
      (SameTree hash (entries previous) (entries next) ↔
        SameStatements (entries previous) (entries next))) ∧
    (DistinctKeys previous → DistinctKeys next → NoDigestPair hash previous →
      NoDigestPair hash next →
      ((compare hash previous next).drift = false ↔ (compare hash previous next).changes = [])) := by
  have drift : (compare hash previous next).drift = false ↔
      SameTree hash (entries previous) (entries next) := by
    rw [drift_eq_false_iff, root_eq_iff len inj]
  have changes : (compare hash previous next).changes = [] ↔
      SameStatements (entries previous) (entries next) := changes_eq_nil_iff
  rw [drift, changes]
  refine ⟨Iff.rfl, fun hp hn plainP plainN => ?_⟩
  rw [sameTree_iff_perm hp hn plainP plainN, sameStatements_iff_perm hp hn]

/-- A digest has 32 bytes. -/
lemma length_sha256 (message : List UInt8) : (Digest.Sha256.hash message).length = 32 := by
  simp [Digest.Sha256.hash, Digest.Sha256.wordBytes]

/-- A script whose statements are shorter than two digests spells none. -/
lemma noDigestPair_of_length {script : List UInt8}
    (h : ∀ text ∈ normalize script, text.length < 64) : NoDigestPair Digest.Sha256.hash script := by
  intro text ht a b e
  have short := h text ht
  rw [e, List.length_append, length_sha256, length_sha256] at short
  omega

/-- The root of statements from their sorted texts. -/
lemma root_of_sorted {es : List Entry} (texts : List (List UInt8))
    (perm : (es.map (·.text)).Perm texts)
    (sorted : texts.Pairwise fun a b => Text.bytesLE a b = true) :
    root hash es = if es.isEmpty then hash emptyMark else Digest.HashTree.root hash texts := by
  rw [root, ← sortedTexts, sortedTexts_eq perm sorted]

/-- Statements whose hashed strings have different digests collide with no statements that hash the
same strings. -/
lemma noCollisions_of_nodup {before after : List Entry}
    (same : hashedStrings hash after = hashedStrings hash before)
    (nodup : ((hashedStrings hash before).map hash).Nodup) : NoCollisions hash before after := by
  intro s hs t ht e
  rw [same, List.mem_append, or_self] at hs ht
  exact List.inj_on_of_nodup_map nodup hs ht e

/-- Two statements that change places: there is no collision, and drift and changes agree. -/
theorem drift_iff_changes_of_swapped :
    NoCollisions Digest.Sha256.hash (entries (Text.bytes "SELECT 1; SELECT 2"))
      (entries (Text.bytes "SELECT 2; SELECT 1")) ∧
    ((compare Digest.Sha256.hash (Text.bytes "SELECT 1; SELECT 2")
        (Text.bytes "SELECT 2; SELECT 1")).drift = false ↔
      (compare Digest.Sha256.hash (Text.bytes "SELECT 1; SELECT 2")
        (Text.bytes "SELECT 2; SELECT 1")).changes = []) := by
  have sorted : ∀ es : List Entry,
      (es.map (·.text)).Perm [Text.bytes "SELECT 1", Text.bytes "SELECT 2"] →
      sortedTexts es = [Text.bytes "SELECT 1", Text.bytes "SELECT 2"] :=
    fun es perm => sortedTexts_eq perm (by decide +kernel)
  have inj : NoCollisions Digest.Sha256.hash (entries (Text.bytes "SELECT 1; SELECT 2"))
      (entries (Text.bytes "SELECT 2; SELECT 1")) := by
    refine noCollisions_of_nodup ?_ ?_
    · rw [hashedStrings, hashedStrings, sorted _ (by decide +kernel), sorted _ (by decide +kernel),
        if_neg (by decide +kernel), if_neg (by decide +kernel)]
    · rw [hashedStrings, sorted _ (by decide +kernel)]
      decide +kernel
  refine ⟨inj, (drift_eq_false_iff_changes_eq_nil length_sha256 inj).2 ?_ ?_ ?_ ?_⟩
  · decide +kernel
  · decide +kernel
  · exact noDigestPair_of_length (by decide +kernel)
  · exact noDigestPair_of_length (by decide +kernel)

/-- Drift and changes disagree about a statement that is repeated at the end, about two definitions of
one table that change places, and about a statement that is spelled like a numbered key. -/
theorem drift_disagrees_with_changes :
    ¬ ((compare Digest.Sha256.hash (Text.bytes "SELECT 1") (Text.bytes "SELECT 1; SELECT 1")).drift
        = false ↔
      (compare Digest.Sha256.hash (Text.bytes "SELECT 1") (Text.bytes "SELECT 1; SELECT 1")).changes
        = []) ∧
    ¬ ((compare Digest.Sha256.hash (Text.bytes "CREATE TABLE a (x); CREATE TABLE a (y)")
        (Text.bytes "CREATE TABLE a (y); CREATE TABLE a (x)")).drift = false ↔
      (compare Digest.Sha256.hash (Text.bytes "CREATE TABLE a (x); CREATE TABLE a (y)")
        (Text.bytes "CREATE TABLE a (y); CREATE TABLE a (x)")).changes = []) ∧
    ¬ ((compare Digest.Sha256.hash (Text.bytes "X; X; X#2") (Text.bytes "X; X#2")).drift = false ↔
      (compare Digest.Sha256.hash (Text.bytes "X; X; X#2") (Text.bytes "X; X#2")).changes = []) := by
  refine ⟨fun h => absurd (h.1 ?_) (by decide +kernel), fun h => absurd (h.1 ?_) (by decide +kernel),
    fun h => absurd (h.2 (by decide +kernel)) ?_⟩
  · rw [drift_eq_false_iff, root_of_sorted [Text.bytes "SELECT 1"] (by decide +kernel)
      (by decide +kernel), root_of_sorted [Text.bytes "SELECT 1", Text.bytes "SELECT 1"]
      (by decide +kernel) (by decide +kernel), if_neg (by decide +kernel), if_neg (by decide +kernel)]
    simp only [Digest.HashTree.root, List.map_cons, List.map_nil, rootAbove]
  · rw [drift_eq_false_iff, root_of_sorted
      [Text.bytes "CREATE TABLE a (x)", Text.bytes "CREATE TABLE a (y)"]
      (by decide +kernel) (by decide +kernel), root_of_sorted
      [Text.bytes "CREATE TABLE a (x)", Text.bytes "CREATE TABLE a (y)"]
      (by decide +kernel) (by decide +kernel), if_neg (by decide +kernel), if_neg (by decide +kernel)]
  · rw [drift_eq_false_iff, root_of_sorted [Text.bytes "X", Text.bytes "X", Text.bytes "X#2"]
      (by decide +kernel) (by decide +kernel), root_of_sorted [Text.bytes "X", Text.bytes "X#2"]
      (by decide +kernel) (by decide +kernel)]
    decide +kernel

end ErdSql.Script
