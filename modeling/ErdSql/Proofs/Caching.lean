import ErdSql.Proofs.Acceptance
import ErdSql.Proofs.Encoding

/-!
# Compilation with a store

What a store of results changes about compilation: nothing but the work.

* `Digest.frame_inj`: byte strings can be told from their frame.
* `Digest.keys_separate`: so can lists of byte strings from their keys, but for a collision.
* `Compilation.run_congr`: what decides a result.
* `Compilation.keeps_storeAfter`: what a store holds after a run of calls.
* `Compilation.runWith_transparent`: every call of a run is answered as without the store.

A store is filled by one call after another, and emptied now and then. The invariant of such a run is
that the store holds the results of the calls since it was emptied last, each under the key of its call.
It does not ask for more; that two calls of one key have one result is a fact about keys.
-/

namespace ErdSql

/-! ### Keys -/

namespace Digest

/-- A length takes eight bytes. -/
@[simp]
lemma length_bigEndian64 (n : Nat) : (Sha256.bigEndian64 n).length = 8 := rfl

/-- A length can be told from its eight bytes. -/
lemma bigEndian64_inj {m n : Nat} (hm : m < 2 ^ 64) (hn : n < 2 ^ 64)
    (h : Sha256.bigEndian64 m = Sha256.bigEndian64 n) : m = n := by
  have digit {i : Nat} (hi : i < 8) : m / 256 ^ i % 256 = n / 256 ^ i % 256 := by
    have same := List.map_inj_left.1 h i (by simpa using hi)
    simpa using congrArg UInt8.toNat same
  have low {k : Nat} (hk : k ≤ 8) : m % 256 ^ k = n % 256 ^ k := by
    induction k with
    | zero => rw [pow_zero, Nat.mod_one, Nat.mod_one]
    | succ k ih => rw [Nat.mod_pow_succ, Nat.mod_pow_succ, ih (by omega), digit (by omega)]
  have whole : (2 : Nat) ^ 64 = 256 ^ 8 := by norm_num
  rw [whole] at hm hn
  rw [← Nat.mod_eq_of_lt hm, ← Nat.mod_eq_of_lt hn, low le_rfl]

/-- A byte string behind its length can be told from what follows. -/
lemma framed_append_inj {p q xs ys : List UInt8} (hp : p.length < 2 ^ 64) (hq : q.length < 2 ^ 64)
    (h : framed p ++ xs = framed q ++ ys) : p = q ∧ xs = ys := by
  rw [framed, framed, List.append_assoc, List.append_assoc] at h
  obtain ⟨lengths, rest⟩ := List.append_inj h rfl
  exact List.append_inj rest (bigEndian64_inj hp hq lengths)

/-- Byte strings can be told from their frame. -/
lemma frame_inj {ps qs : List (List UInt8)} (hp : ∀ p ∈ ps, p.length < 2 ^ 64)
    (hq : ∀ q ∈ qs, q.length < 2 ^ 64) (h : frame ps = frame qs) : ps = qs := by
  induction ps generalizing qs with
  | nil =>
    cases qs with
    | nil => rfl
    | cons q qs => cases h
  | cons p ps ih =>
    cases qs with
    | nil => cases h
    | cons q qs =>
      obtain ⟨rfl, rest⟩ := framed_append_inj (hp p List.mem_cons_self) (hq q List.mem_cons_self) h
      rw [ih (fun p hp' => hp p (List.mem_cons_of_mem _ hp'))
        (fun q hq' => hq q (List.mem_cons_of_mem _ hq')) rest]

end Digest

namespace Text

/-- A byte can be told from its two digits. -/
lemma hexByte_inj {a b : UInt8} (h : hexByte a = hexByte b) : a = b := by
  have digit : ∀ m < 16, ∀ n < 16, Nat.digitChar m = Nat.digitChar n → m = n := by decide
  obtain ⟨high, rest⟩ := List.cons.inj h
  obtain ⟨low, -⟩ := List.cons.inj rest
  have ha := a.toNat_lt
  have hb := b.toNat_lt
  have h1 := digit _ (by omega) _ (by omega) high
  have h2 := digit _ (by omega) _ (by omega) low
  exact UInt8.toNat_inj.1 (by omega)

/-- Bytes can be told from their digits. -/
lemma hex_inj {as bs : List UInt8} (h : hex as = hex bs) : as = bs := by
  rw [hex, hex, String.ofList_inj] at h
  induction as generalizing bs with
  | nil =>
    cases bs with
    | nil => rfl
    | cons b bs => cases h
  | cons a as ih =>
    cases bs with
    | nil => cases h
    | cons b bs =>
      rw [List.flatMap_cons, List.flatMap_cons] at h
      obtain ⟨first, rest⟩ := List.append_inj h rfl
      rw [hexByte_inj first, ih rest]

end Text

namespace Digest

/-- Whether each of some byte strings has a length that eight bytes can tell. -/
def Fits (parts : List (List UInt8)) : Prop := ∀ p ∈ parts, p.length < 2 ^ 64

/-- Two byte strings that a hash function does not tell apart. -/
def Collide (hash : List UInt8 → List UInt8) (xs ys : List UInt8) : Prop :=
  xs ≠ ys ∧ hash xs = hash ys

/-- Keys are the same for the same byte strings, and for a collision of the hash function. -/
lemma key_eq_iff {hash : List UInt8 → List UInt8} {ps qs : List (List UInt8)} (hp : Fits ps)
    (hq : Fits qs) : key hash ps = key hash qs ↔ ps = qs ∨ Collide hash (frame ps) (frame qs) := by
  constructor
  · intro same
    have digests : hash (frame ps) = hash (frame qs) := Text.hex_inj same
    by_cases frames : frame ps = frame qs
    · exact .inl (frame_inj hp hq frames)
    · exact .inr ⟨frames, digests⟩
  · rintro (rfl | ⟨-, digests⟩)
    · rfl
    · exact congrArg Text.hex digests

/-- **Keys separate their parts.** Lists of byte strings that give the same bytes to hash are the same, and
two lists with one key are the same unless SHA-256 collides on what they give it. So on lists that give
bytes without collisions the key is injective. -/
theorem keys_separate : Set.InjOn frame {parts | Fits parts} ∧
    (∀ ps qs, Fits ps → Fits qs → (key Sha256.hash ps = key Sha256.hash qs ↔
      ps = qs ∨ Collide Sha256.hash (frame ps) (frame qs))) ∧
    ∀ streams : Set (List UInt8), Set.InjOn Sha256.hash streams →
      Set.InjOn (key Sha256.hash) {parts | Fits parts ∧ frame parts ∈ streams} := by
  refine ⟨fun ps hp qs hq => frame_inj hp hq, fun ps qs => key_eq_iff, ?_⟩
  rintro streams collisionFree ps ⟨hp, mem⟩ qs ⟨hq, mem'⟩ same
  obtain eq | ⟨ne, digests⟩ := (key_eq_iff hp hq).1 same
  · exact eq
  · exact absurd (collisionFree mem mem' digests) ne

/-- Two empty strings and the string of eight zero bytes, which looks like the length of an empty one. -/
theorem keys_separate_of_zeros :
    let twice : List (List UInt8) := [[], []]
    let zeros : List (List UInt8) := [List.replicate 8 0]
    (Fits twice ∧ Fits zeros ∧ Set.InjOn Sha256.hash {frame twice, frame zeros}) ∧
      frame twice ≠ frame zeros ∧ key Sha256.hash twice ≠ key Sha256.hash zeros := by
  intro twice zeros
  have fits : Fits twice := by simp [Fits, twice]
  have fits' : Fits zeros := by simp [Fits, zeros]
  have ne : twice ≠ zeros := by decide
  have collisionFree : Set.InjOn Sha256.hash {frame twice, frame zeros} := by
    have digests : Sha256.hash (frame twice) ≠ Sha256.hash (frame zeros) := by decide +kernel
    rw [Set.injOn_pair]
    exact fun same => absurd same digests
  obtain ⟨frames, -, keys⟩ := keys_separate
  refine ⟨⟨fits, fits', collisionFree⟩, fun same => ne (frames fits fits' same), fun same => ne ?_⟩
  exact keys _ collisionFree ⟨fits, Set.mem_insert _ _⟩ ⟨fits', Set.mem_insert_of_mem _ rfl⟩ same

end Digest

/-! ### Registries -/

/-- Two registries with the same keywords and, for each of them, the same handler. -/
structure Plugin.Registry.Same (r r' : Plugin.Registry) : Prop where
  keywords : r.keywords = r'.keywords
  lookup : ∀ word, r.lookup word = r'.lookup word

/-- Reading a document asks a registry for handlers only. -/
lemma Document.ofTokens_congr {r r' : Plugin.Registry} (same : ∀ word, r.lookup word = r'.lookup word)
    (path : String) (src : List Char) (tokens : List Token) :
    ofTokens path src r tokens = ofTokens path src r' tokens := by
  have statement : readStatement (Text.slice src) r = readStatement (Text.slice src) r' := by
    funext recovering head tokens atEnd
    unfold readStatement
    rw [same]
  have statements (groups : List (Token × List Token)) (recovering : Bool) :
      readStatements (Text.slice src) r recovering groups =
        readStatements (Text.slice src) r' recovering groups := by
    induction groups generalizing recovering with
    | nil => rfl
    | cons group groups ih =>
      unfold readStatements
      simp only [statement, ih]
  rw [ofTokens, ofTokens, statements]

/-- Generating a script asks a registry for handlers only. -/
lemma Ddl.blockStatements_congr {r r' : Plugin.Registry} (same : ∀ word, r.lookup word = r'.lookup word)
    (blocks : List Document.Block) (seen : List String) :
    blockStatements r seen blocks = blockStatements r' seen blocks := by
  induction blocks generalizing seen with
  | nil => rfl
  | cons b bs ih =>
    unfold blockStatements
    simp only [same, ih]

/-! ### Stores -/

namespace Cache.Store

/-- Another key gives what it gave before. -/
lemma get?_put_of_ne (s : Store) {key other : String} (ne : other ≠ key) (entry : Entry) :
    (s.put key entry).get? other = s.get? other := by
  rw [put, get?, get?, erase, List.lookup_cons, beq_eq_false_iff_ne.2 ne]
  induction s.entries with
  | nil => rfl
  | cons e es ih =>
    obtain ⟨k, value⟩ := e
    by_cases same : k = key
    · subst same
      rw [List.filter_cons_of_neg (by simp), List.lookup_cons, beq_eq_false_iff_ne.2 ne]
      exact ih
    · rw [List.filter_cons_of_pos (by simpa using same), List.lookup_cons, List.lookup_cons]
      cases other == k with
      | true => rfl
      | false => exact ih

end Cache.Store

namespace Compilation

/-! ### What decides a result -/

/-- A call of the compiler. -/
structure Call where
  path : String
  src : List UInt8
  options : CompileOptions

namespace Call

/-- What the compiler answers without a store. -/
def result (c : Call) : Cache.Entry :=
  (run c.path c.src c.options).entry

/-- The byte strings that the key of a call is made from. -/
def parts (c : Call) : List (List UInt8) :=
  keyParts c.path c.src c.options

/-- Two calls with the same document and options, as far as keys show: the same lines of a header may
be given in other pieces, and overlay and handlers are seen by their fingerprint. -/
structure Alike (c c' : Call) : Prop where
  path : c.path = c'.path
  src : c.src = c'.src
  dialect : c.options.dialect.name = c'.options.dialect.name
  ifNotExists : c.options.ifNotExists = c'.options.ifNotExists
  lint : c.options.lint = c'.options.lint
  header : Text.join "\n" c.options.header = Text.join "\n" c'.options.header
  keywords : c.options.plugins.keywords = c'.options.plugins.keywords
  fingerprint : c.options.fingerprint = c'.options.fingerprint

/-- Two calls with the same overlay and the same handlers. -/
structure SameSetup (c c' : Call) : Prop where
  overlay : c.options.overlay = c'.options.overlay
  plugins : c.options.plugins.Same c'.options.plugins

variable {c c' : Call}

/-- Alike calls have the same parts. -/
lemma Alike.parts_eq (h : Alike c c') : c.parts = c'.parts := by
  rw [parts, parts, keyParts, keyParts, h.path, h.src, h.dialect, h.ifNotExists, h.lint, h.header,
    h.keywords, h.fingerprint]

/-- Calls with the same parts are alike, if their registries have the same keywords wherever their
fingerprints are the same. -/
lemma alike_of_parts_eq
    (keywords : c.options.fingerprint = c'.options.fingerprint →
      c.options.plugins.keywords = c'.options.plugins.keywords)
    (h : c.parts = c'.parts) : Alike c c' := by
  have flag : ∀ a b : Bool, flagText a = flagText b → a = b := by decide
  simp only [parts, keyParts, List.cons.injEq, Text.bytes_inj, and_true] at h
  obtain ⟨path, src, dialect, ifNotExists, lint, header, -, fingerprint⟩ := h
  exact ⟨path, src, dialect, flag _ _ ifNotExists, flag _ _ lint, header, keywords fingerprint,
    fingerprint⟩

/-- Alike calls with the same overlay and handlers have the same result. -/
lemma Alike.result_eq (h : Alike c c') (setup : SameSetup c c') : c.result = c'.result := by
  have dialects : ∀ d d' : Dialect, d.name = d'.name → d = d' := by
    intro d d' names
    cases d <;> cases d' <;> simp_all [Dialect.name]
  have dialect := dialects _ _ h.dialect
  have analysed : analyse c.path c.src c.options = analyse c'.path c'.src c'.options := by
    rw [analyse, analyse, read, read, h.path, h.src, h.lint, setup.overlay,
      Document.ofTokens_congr setup.plugins.lookup]
  have written (s : Schema) : Ddl.generate (generateOptions c.options) s =
      Ddl.generate (generateOptions c'.options) s := by
    have options : { generateOptions c.options with plugins := c'.options.plugins } =
        generateOptions c'.options := by
      rw [generateOptions, generateOptions, dialect, h.ifNotExists, setup.overlay, h.header]
    have blocks := Ddl.blockStatements_congr setup.plugins.lookup s.blocks []
    rw [← options]
    unfold Ddl.generate
    rw [show (generateOptions c.options).plugins = c.options.plugins from rfl, blocks]
    rfl
  rw [result, result, run_eq, run_eq, analysed, written, h.path]

end Call

/-! ### Runs of calls -/

/-- A step of a run that shares a store: a call of the compiler, or emptying the store. -/
inductive Step where
  | call (c : Call)
  | clear

/-- The calls of a run. -/
def calls (steps : List Step) : List Call :=
  steps.filterMap fun
    | .call c => some c
    | .clear => none

section Runs
variable (hash : List UInt8 → List UInt8)

/-- The key of a call. -/
def Call.key (c : Call) : String :=
  Compilation.key hash c.path c.src c.options

/-- The store after one more step. -/
def advance (store : Cache.Store) : Step → Cache.Store
  | .call c => (runWith hash store c.path c.src c.options).2
  | .clear => .empty

/-- The store after a run that starts without entries. -/
def storeAfter (steps : List Step) : Cache.Store :=
  steps.foldl (advance hash) .empty

/-- The calls since the store was emptied last, with one more step. -/
def remember (recent : List Call) : Step → List Call
  | .call c => recent ++ [c]
  | .clear => []

/-- The calls of a run since the store was emptied last. -/
def sinceClear (steps : List Step) : List Call :=
  steps.foldl remember []

/-- The store holds the results of some calls under their keys, and nothing else. -/
structure Keeps (recent : List Call) (store : Cache.Store) : Prop where
  sound : ∀ key entry, store.get? key = some entry → ∃ c ∈ recent, c.key hash = key ∧ c.result = entry
  complete : ∀ c ∈ recent, ∃ entry, store.get? (c.key hash) = some entry

variable {hash}

/-- One step keeps the store in line with the calls. -/
lemma Keeps.advance {recent : List Call} {store : Cache.Store} (h : Keeps hash recent store)
    (step : Step) : Keeps hash (remember recent step) (advance hash store step) := by
  cases step with
  | clear => exact ⟨nofun, nofun⟩
  | call c =>
    rw [remember, Compilation.advance, runWith, ← Call.key]
    cases found : store.get? (c.key hash) with
    | some entry =>
      constructor
      · intro key entry hit
        obtain ⟨c', hc', same⟩ := h.sound key entry hit
        exact ⟨c', List.mem_append_left _ hc', same⟩
      · intro c' hc'
        rcases List.mem_append.1 hc' with hc' | hc'
        · exact h.complete c' hc'
        · obtain rfl := List.mem_singleton.1 hc'
          exact ⟨entry, found⟩
    | none =>
      have other {key : String} (ne : key ≠ c.key hash) := store.get?_put_of_ne ne c.result
      constructor
      · intro key entry hit
        by_cases same : key = c.key hash
        · subst same
          rw [Cache.Store.get?_put_self, Option.some_inj] at hit
          exact ⟨c, List.mem_append_right _ List.mem_cons_self, rfl, hit⟩
        · obtain ⟨c', hc', eq⟩ := h.sound key entry ((other same).symm.trans hit)
          exact ⟨c', List.mem_append_left _ hc', eq⟩
      · intro c' hc'
        by_cases same : c'.key hash = c.key hash
        · rw [same]
          exact ⟨_, Cache.Store.get?_put_self _ _ _⟩
        · rcases List.mem_append.1 hc' with hc' | hc'
          · obtain ⟨entry, kept⟩ := h.complete c' hc'
            exact ⟨entry, (other same).trans kept⟩
          · exact absurd (congrArg _ (List.mem_singleton.1 hc')) same

variable (hash) in
/-- A run keeps the store in line with the calls since it was emptied last. -/
lemma keeps_storeAfter (steps : List Step) : Keeps hash (sinceClear steps) (storeAfter hash steps) := by
  have run (recent : List Call) (store : Cache.Store) (h : Keeps hash recent store) :
      Keeps hash (steps.foldl remember recent) (steps.foldl (advance hash) store) := by
    induction steps generalizing recent store with
    | nil => exact h
    | cons step steps ih => exact ih _ _ (h.advance step)
  exact run [] .empty ⟨nofun, nofun⟩

/-- The calls since the store was emptied last are calls of the run. -/
lemma sinceClear_subset (steps : List Step) : sinceClear steps ⊆ calls steps := by
  have run (recent : List Call) : steps.foldl remember recent ⊆ recent ++ calls steps := by
    induction steps generalizing recent with
    | nil => simp [calls]
    | cons step steps ih =>
      cases step with
      | call c => simpa [remember, calls] using ih (recent ++ [c])
      | clear => exact List.Subset.trans (ih []) (List.subset_append_right _ _)
  exact run []

end Runs

/-- No two calls of a run have frames that differ and yet have one digest. -/
def NoCollisions (hash : List UInt8 → List UInt8) (steps : List Step) : Prop :=
  ∀ c ∈ calls steps, ∀ c' ∈ calls steps,
    hash (Digest.frame c.parts) = hash (Digest.frame c'.parts) →
      Digest.frame c.parts = Digest.frame c'.parts

/-- The byte strings of the keys of a run have lengths of 64 bits. -/
def Fits (steps : List Step) : Prop :=
  ∀ c ∈ calls steps, ∀ part ∈ c.parts, part.length < 2 ^ 64

/-- The calls of a run with one fingerprint have one overlay and the same handlers. -/
def Faithful (steps : List Step) : Prop :=
  ∀ c ∈ calls steps, ∀ c' ∈ calls steps,
    c.options.fingerprint = c'.options.fingerprint → c.SameSetup c'

/-- Calls of a run have one key exactly if they are alike. -/
lemma key_eq_iff {hash : List UInt8 → List UInt8} {steps : List Step}
    (collisionFree : NoCollisions hash steps) (fits : Fits steps) (faithful : Faithful steps)
    {c c' : Call} (hc : c ∈ calls steps) (hc' : c' ∈ calls steps) :
    c.key hash = c'.key hash ↔ c.Alike c' := by
  constructor
  · intro h
    have frames := collisionFree c hc c' hc' (Text.hex_inj h)
    exact Call.alike_of_parts_eq (fun same => (faithful c hc c' hc' same).plugins.keywords)
      (Digest.frame_inj (fits c hc) (fits c' hc') frames)
  · intro h
    exact congrArg (Digest.key hash) h.parts_eq

/-- The store is transparent. Every call of a run is answered as it is without the store, and from the
store exactly if an alike call was made since the store was emptied last. -/
theorem runWith_transparent {hash : List UInt8 → List UInt8} {steps : List Step}
    (collisionFree : NoCollisions hash steps) (fits : Fits steps) (faithful : Faithful steps) :
    ∀ before c after, steps = before ++ .call c :: after →
      let answer := (runWith hash (storeAfter hash before) c.path c.src c.options).1
      answer.entry = (run c.path c.src c.options).entry ∧
        (answer.isCached = true ↔ ∃ c' ∈ sinceClear before, c'.Alike c) := by
  intro before c after here
  have split : calls steps = calls before ++ c :: calls after := by
    rw [here, calls, List.filterMap_append]
    rfl
  have hc : c ∈ calls steps := by
    rw [split]
    exact List.mem_append_right _ List.mem_cons_self
  have earlier {c' : Call} (hc' : c' ∈ sinceClear before) : c' ∈ calls steps := by
    rw [split]
    exact List.mem_append_left _ (sinceClear_subset before hc')
  have keeps := keeps_storeAfter hash before
  rw [runWith, ← Call.key]
  cases found : (storeAfter hash before).get? (c.key hash) with
  | some entry =>
    obtain ⟨c', hc', key, rfl⟩ := keeps.sound _ _ found
    have alike := (key_eq_iff collisionFree fits faithful (earlier hc') hc).1 key
    refine ⟨alike.result_eq ?_, iff_of_true rfl ⟨c', hc', alike⟩⟩
    exact faithful c' (earlier hc') c hc alike.fingerprint
  | none =>
    refine ⟨rfl, iff_of_false nofun ?_⟩
    rintro ⟨c', hc', alike⟩
    obtain ⟨entry, kept⟩ := keeps.complete c' hc'
    rw [(key_eq_iff collisionFree fits faithful (earlier hc') hc).2 alike, found] at kept
    cases kept

/-- A call with a header in two pieces, the same with the header in one piece, and one for another
dialect. -/
def pieced : Call := ⟨"a.erd", Text.bytes ":A\n  INT $.id PK\n", { header := ["one", "two"] }⟩

@[inherit_doc pieced]
def joined : Call := ⟨"a.erd", Text.bytes ":A\n  INT $.id PK\n", { header := ["one\ntwo"] }⟩

@[inherit_doc pieced]
def inSqlite : Call := ⟨"a.erd", Text.bytes ":A\n  INT $.id PK\n", { dialect := .sqlite }⟩

/-- The second of two alike calls is answered from the store, with SHA-256 for the keys, and a third one
after the store was emptied is not. -/
theorem runWith_transparent_of_pieced :
    let hash := Digest.Sha256.hash
    let steps : List Step := [.call pieced, .call inSqlite, .call joined, .clear, .call pieced]
    (NoCollisions hash steps ∧ Fits steps ∧ Faithful steps) ∧
      ((runWith hash (storeAfter hash (steps.take 2)) joined.path joined.src joined.options).1.entry =
          joined.result ∧
        (runWith hash (storeAfter hash (steps.take 2)) joined.path joined.src
          joined.options).1.isCached = true) ∧
      (runWith hash (storeAfter hash (steps.take 4)) pieced.path pieced.src
        pieced.options).1.isCached = false := by
  intro hash steps
  have collisionFree : NoCollisions hash steps := by
    unfold NoCollisions
    decide +kernel
  have fits : Fits steps := by
    unfold Fits
    decide +kernel
  have faithful : Faithful steps := by
    have plain : ∀ c ∈ calls steps, c.options.overlay = .empty ∧ c.options.plugins = .empty := by
      simp [steps, calls, pieced, joined, inSqlite]
    intro c hc c' hc' _
    refine ⟨(plain c hc).1.trans (plain c' hc').1.symm, ?_⟩
    rw [(plain c hc).2, (plain c' hc').2]
    exact ⟨rfl, fun _ => rfl⟩
  have transparent := runWith_transparent collisionFree fits faithful
  obtain ⟨same, cached⟩ := transparent [.call pieced, .call inSqlite] joined [.clear, .call pieced] rfl
  have alike : pieced.Alike joined := ⟨rfl, rfl, rfl, rfl, rfl, by decide, rfl, rfl⟩
  have recent : pieced ∈ sinceClear [.call pieced, .call inSqlite] := by simp [sinceClear, remember]
  refine ⟨⟨collisionFree, fits, faithful⟩, ⟨same, cached.2 ⟨pieced, recent, alike⟩⟩, ?_⟩
  have last := (transparent [.call pieced, .call inSqlite, .call joined, .clear] pieced [] rfl).2
  refine Bool.eq_false_iff.2 fun hit => ?_
  obtain ⟨c', hc', -⟩ := last.1 hit
  cases hc'

end Compilation

end ErdSql
