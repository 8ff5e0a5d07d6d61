import ErdSql.Proofs.MovedOverlays
import ErdSql.Proofs.Rounds

/-!
# Results taken from a cache

Runs that share a cache may have anything changed between them. A result that a run takes from the cache
is the one that the run would make itself, but for one thing: keys are made from the bytes of the overlay
and not from its path, so findings about the overlay may stand in the file that an earlier run read it
from.

* `Generation.Successive`: runs one after another on one cache.
* `Generation.sound_outcome`: a run leaves results of calls in the cache, and nothing else.
* `Generation.kept_results_fresh`: when results from the cache are those of compiling afresh.

What is kept is explained by the calls of the runs so far. One call keeps this in line, so a run does, and
so do runs one after another. That explained results are fresh is a fact about keys alone.
-/

namespace ErdSql.Generation

open ErdSql.Compilation (Call)

variable {σ : Type}

/-! ### Shared caches -/

/-- An action adds nothing to what is kept. -/
def Keeping.Spared (k : Keeping) (x : Action σ Unit) : Prop :=
  ∀ w key entry, k.get? (x.run.run w).2 key = some entry → k.get? w key = some entry

namespace Round

/-- The path of the overlay of a run. It is empty for a run without overlay. -/
def sidecar (r : Round σ) : String :=
  (r.setup?.map (·.plan.sidecar)).getD ""

/-- A run without plugins that keeps its results in a cache, if it keeps any. Its hooks and its writer add
nothing to the cache. -/
structure Shares (hash : List UInt8 → List UInt8) (k : Keeping) (r : Round σ) : Prop where
  hash : r.env.hash = hash
  keeping : ∀ s k' p, r.arrival = (.ok (s, k'), p) →
    k' = .nowhere ∨ ∀ (w : World σ) key, k'.get? w key = k.get? w key
  plugins : ∀ s k' p, r.arrival = (.ok (s, k'), p) → s.plan.plugins = []
  hooks : r.env.hooks.All k.Spared
  writer : ∀ path content, IsScript path → k.Spared (r.env.writer path content)

end Round

/-- Runs one after another on a cache that is empty when the first one starts, the last run first. Between
them anything may change, and entries of the cache may go, but none comes. -/
inductive Successive (k : Keeping) : Round σ → List (Round σ) → Prop where
  | first {r} :
    (∀ key, k.get? r.start key = none) →
    Successive k r []
  | next {r last earlier} :
    (∀ key entry, k.get? r.start key = some entry → k.get? last.outcome.world key = some entry) →
    Successive k last earlier →
    Successive k r (last :: earlier)

section Runs
variable {hash : List UInt8 → List UInt8} {k : Keeping} {r : Round σ} {earlier : List (Round σ)}

/-! ### What is kept -/

variable (hash) in
/-- An entry under a key is the result of a call of some runs. -/
def Explained (rounds : List (Round σ)) (key : String) (entry : Cache.Entry) : Prop :=
  ∃ r ∈ rounds, ∃ c ∈ r.calls, c.key hash = key ∧ c.result = entry

variable (hash k) in
/-- A cache holds results of calls of some runs, and nothing else. -/
def Sound (rounds : List (Round σ)) (w : World σ) : Prop :=
  ∀ key entry, k.get? w key = some entry → Explained hash rounds key entry

lemma Sound.mono {rounds : List (Round σ)} {w w' : World σ} (h : Sound hash k rounds w)
    (fewer : ∀ key entry, k.get? w' key = some entry → k.get? w key = some entry) :
    Sound hash k rounds w' :=
  fun key entry hit => h key entry (fewer key entry hit)

lemma Sound.cons {w : World σ} (h : Sound hash k earlier w) (r : Round σ) :
    Sound hash k (r :: earlier) w := by
  intro key entry hit
  obtain ⟨r', hr', explained⟩ := h key entry hit
  exact ⟨r', List.mem_cons_of_mem r hr', explained⟩

/-- A call finds an explained result, or keeps its own. -/
lemma sound_compileBytes {k' : Keeping} {env : Environment σ} (same : env.hash = hash)
    (place : k' = .nowhere ∨ ∀ (w : World σ) key, k'.get? w key = k.get? w key) {rounds : List (Round σ)}
    (hr : r ∈ rounds) {c : Call} (hc : c ∈ r.calls) {w : World σ} (h : Sound hash k rounds w) :
    Sound hash k rounds (compileBytes env k' c.options c.path c.src w).2 ∧
      ((compileBytes env k' c.options c.path c.src w).1.cached = true →
        Explained hash rounds (c.key hash) (compileBytes env k' c.options c.path c.src w).1.entry) := by
  have key : Compilation.key env.hash c.path c.src c.options = c.key hash := by rw [same]; rfl
  rw [compileBytes, key]
  cases found : k'.get? w (c.key hash) with
  | some entry =>
    refine ⟨h, fun _ => h _ _ ?_⟩
    obtain rfl | place := place
    · cases found
    · rw [← place, found]
  | none =>
    refine ⟨?_, fun hit => Bool.noConfusion hit⟩
    obtain rfl | place := place
    · exact h
    · intro key entry hit
      rw [← place] at hit
      by_cases own : key = c.key hash
      · rw [own] at hit ⊢
        rcases Keeping.eq_of_get?_put hit with rfl | before
        · exact ⟨r, hr, c, hc, rfl, rfl⟩
        · rw [found] at before
          cases before
      · rw [Keeping.get?_put_of_ne _ _ own, place] at hit
        exact h key entry hit

/-- A run that starts with a cache of explained results leaves such a cache, and what it takes from the
cache is explained. -/
lemma sound_outcome (shares : r.Shares hash k) (start : Sound hash k earlier r.start) :
    Sound hash k (r :: earlier) r.outcome.world ∧
      ∀ x ∈ r.outcome.summary.results, x.cached = true →
        ∃ c ∈ r.calls, c.path = x.path ∧ Explained hash (r :: earlier) (c.key hash) x.entry := by
  have spared {x : Action σ Unit} (h : k.Spared x) : Keeps (Sound hash k (r :: earlier)) x :=
    fun w sound => sound.mono (h w)
  obtain ⟨world, results⟩ := Round.keeps_outcome (r := r) (J := Sound hash k (r :: earlier))
    (Q := fun c x => c.path = x.path ∧
      (x.cached = true → Explained hash (r :: earlier) (c.key hash) x.entry))
    (fun tree added => (start.cons r).mono fun key entry hit => by
      have store : { r.start with tree }.store = r.start.store := rfl
      rwa [Keeping.get?_of_extends store added fun _ _ h => h] at hit)
    (shares.hooks.mono fun _ => spared) (fun path content script => spared (shares.writer path content script))
    (fun s k' p arrived c hc w sound => by
      obtain ⟨s', k'', p', arrived', options⟩ := Round.exists_of_mem_calls hc
      cases arrived.symm.trans arrived'
      rw [← options]
      obtain ⟨kept, hit⟩ := sound_compileBytes shares.hash (shares.keeping s k' p arrived)
        List.mem_cons_self hc sound
      refine ⟨kept, ?_, hit⟩
      rw [compileBytes]
      split <;> rfl)
  refine ⟨world, fun x hx cached => ?_⟩
  rcases results with none | ⟨s, k', p, -, compiled⟩
  · rw [none] at hx
    cases hx
  · obtain ⟨c, hc, path, hit⟩ := compiled.exists_call hx cached
    exact ⟨c, hc, path, hit cached⟩

/-- Runs one after another keep the cache in line with their calls. -/
lemma Successive.sound_start (h : Successive k r earlier) (shares : ∀ r' ∈ r :: earlier, r'.Shares hash k) :
    Sound hash k earlier r.start := by
  induction h with
  | first empty =>
    intro key entry hit
    rw [empty] at hit
    cases hit
  | next fewer _ ih =>
    have before := ih fun r' hr' => shares r' (List.mem_cons_of_mem _ hr')
    exact (sound_outcome (shares _ (by simp)) before).1.mono fewer

/-! ### What a result says -/

/-- The overlay of a run has the path that its plan says. -/
lemma Prepared.path_overlay {env : Environment σ} {o : RunOptions} {tree : FileTree} {s : Setup}
    (h : Prepared env o tree s) : s.options.overlay.path = s.plan.sidecar := by
  obtain ⟨-, -, ⟨none, empty, -⟩ | ⟨bytes, -, read, -⟩⟩ := h.overlay
  · rw [none, empty]
    rfl
  · exact Overlay.path_of_readBytes read

/-- Runs without plugins that have the same inputs beside their documents have the same overlay, but for
its path. -/
lemma Prepared.overlay_eq {env env' : Environment σ} {o o' : RunOptions} {tree tree' : FileTree}
    {s s' : Setup} (h : Prepared env o tree s) (h' : Prepared env' o' tree' s')
    (plugins : s.plan.plugins = []) (plugins' : s'.plan.plugins = []) (same : s'.outside = s.outside) :
    s'.options.overlay = s.options.overlay.movedTo s'.plan.sidecar := by
  obtain ⟨rest, nothing, laid⟩ := h.overlay
  obtain ⟨rest', nothing', laid'⟩ := h'.overlay
  obtain rfl := nothing plugins
  obtain rfl := nothing' plugins'
  rcases laid with ⟨-, empty, outside⟩ | ⟨bytes, -, read, outside⟩ <;>
    rcases laid' with ⟨none, empty', outside'⟩ | ⟨bytes', -, read', outside'⟩
  · rw [empty, empty', none]
    rfl
  · simp [outside, outside'] at same
  · simp [outside, outside'] at same
  · obtain rfl : bytes' = bytes := by simpa [outside, outside'] using same
    exact Except.ok.inj (read'.symm.trans (Overlay.readBytes_movedTo read _))

/-- What is known of a call of a run that shares a cache. -/
structure CallOf (r : Round σ) (c : Call) (s : Setup) : Prop where
  prepared : Prepared r.env r.options r.start.tree s
  options : c.options = s.options
  plugins : s.plan.plugins = []
  sidecar : r.sidecar = s.plan.sidecar
  parts : c.parts ∈ r.hashed
  outside : s.outside ∈ r.hashed

lemma Round.Shares.exists_callOf (shares : r.Shares hash k) {c : Call} (hc : c ∈ r.calls) :
    ∃ s, CallOf r c s := by
  obtain ⟨s, k', p, arrived, options⟩ := Round.exists_of_mem_calls hc
  have setup := Round.setup?_of_arrival arrived
  refine ⟨s, (Round.prepared_of_arrival arrived).1, options, shares.plugins s k' p arrived, ?_, ?_, ?_⟩
  · rw [Round.sidecar, setup]
    rfl
  · exact List.mem_append_right _ (List.mem_map_of_mem hc)
  · refine List.mem_append_left _ ?_
    rw [setup]
    exact List.mem_singleton_self _

/-- Calls of runs that have one key are calls for one document. They have one result if the overlay had
one path. -/
lemma result_eq_of_key_eq {rounds : List (Round σ)} (separated : Separated hash rounds) {r r' : Round σ}
    (hr : r ∈ rounds) (hr' : r' ∈ rounds) (shares : r.Shares hash k) (shares' : r'.Shares hash k)
    {c c' : Call} (hc : c ∈ r.calls) (hc' : c' ∈ r'.calls) (same : c'.key hash = c.key hash) :
    c'.Alike c ∧ c'.result = (c.movedTo r'.sidecar).result := by
  obtain ⟨s, of⟩ := shares.exists_callOf hc
  obtain ⟨s', of'⟩ := shares'.exists_callOf hc'
  have parts := separated.eq_of_key_eq (List.mem_flatMap.2 ⟨r', hr', of'.parts⟩)
    (List.mem_flatMap.2 ⟨r, hr, of.parts⟩) same
  have registries : c'.options.plugins = c.options.plugins := by
    rw [of.options, of'.options, of.prepared.plugins of.plugins, of'.prepared.plugins of'.plugins]
  have alike : c'.Alike c := Call.alike_of_parts_eq (fun _ => by rw [registries]) parts
  have outside : s'.outside = s.outside := by
    refine separated.eq_of_key_eq (List.mem_flatMap.2 ⟨r', hr', of'.outside⟩)
      (List.mem_flatMap.2 ⟨r, hr, of.outside⟩) ?_
    have fingerprint := alike.fingerprint
    rwa [of.options, of'.options, of.prepared.fingerprint, of'.prepared.fingerprint, shares.hash,
      shares'.hash] at fingerprint
  have overlay : c'.options.overlay = c.options.overlay.movedTo r'.sidecar := by
    rw [of.options, of'.options, of'.sidecar]
    exact of.prepared.overlay_eq of'.prepared of.plugins of'.plugins outside
  exact ⟨alike, alike.result_eq_movedTo overlay registries⟩

/-- **Results from a cache are fresh up to the path of the overlay.** Let runs share a cache, with anything
changed between them. What the last of them takes from the cache is the result of an earlier call for the
same document, and it has the script, the flags and the findings of compiling the document afresh, except
that findings about the overlay stand in the file that the overlay was read from at the earlier call. So
it is the fresh result exactly if the overlay was read from the same file or there are no findings about
it. -/
theorem kept_results_fresh (successive : Successive k r earlier)
    (shares : ∀ r' ∈ r :: earlier, r'.Shares hash k) (separated : Separated hash (r :: earlier)) :
    ∀ x ∈ r.outcome.summary.results, x.cached = true →
      ∃ c ∈ r.calls, c.path = x.path ∧
        (x.entry.sql = c.result.sql ∧ x.entry.generated = c.result.generated ∧
          x.entry.valid = c.result.valid) ∧
        ∃ r' ∈ r :: earlier,
          (∃ c' ∈ r'.calls, c'.path = c.path ∧ c'.src = c.src ∧ x.entry = c'.result) ∧
          (∃ front behind, c.result.diagnostics = front ++ c.overlayFindings ++ behind ∧
            x.entry.diagnostics = front ++ c.overlayFindings.map (·.movedTo r'.sidecar) ++ behind) ∧
          (x.entry = c.result ↔ r'.sidecar = r.sidecar ∨ c.overlayFindings = []) := by
  intro x hx cached
  have here : r ∈ r :: earlier := List.mem_cons_self
  obtain ⟨c, hc, path, r', hr', c', hc', key, result⟩ :=
    (sound_outcome (shares r here) (successive.sound_start shares)).2 x hx cached
  obtain ⟨alike, moved⟩ :=
    result_eq_of_key_eq separated here hr' (shares r here) (shares r' hr') hc hc' key
  obtain ⟨s, of⟩ := (shares r here).exists_callOf hc
  have overlay : c.options.overlay.path = r.sidecar := by
    rw [of.options, of.sidecar, of.prepared.path_overlay]
  have entry : x.entry = (c.movedTo r'.sidecar).result := result.symm.trans moved
  obtain ⟨front, behind, findings, others⟩ := c.exists_result_movedTo
  refine ⟨c, hc, path, ?_, r', hr', ⟨c', hc', alike.path, alike.src, result.symm⟩,
    ⟨front, behind, findings, ?_⟩, ?_⟩
  · rw [entry, others]
    generalize c.result = fresh
    exact ⟨rfl, rfl, rfl⟩
  · rw [entry, others]
  · rw [entry, c.result_movedTo_eq_iff, overlay]

end Runs

/-! ### An overlay that is renamed -/

/-- A project whose overlay stands in two files, of which the configuration names one. The overlay is about
an entity that no document has. -/
def twoSidecars (sidecar : String) : FileTree :=
  ⟨[(["p", Project.fileName],
      Text.bytes ("schemas = [\"a.erd\"]\nout = \"out\"\nsidecar = \"" ++ sidecar ++ "\"\n")),
    (["p", "a.erd"], Text.bytes ":A\n  INT $.id PK\n"),
    (["p", "meta.yaml"], Text.bytes "entities:\n  B:\n    rls: true\n"),
    (["p", "other.yaml"], Text.bytes "entities:\n  B:\n    rls: true\n")],
   [["p"]]⟩

/-- A run of the project, with a store for its results. -/
def renamingRound (sidecar : String) (store : Cache.Store) : Round Unit where
  env := {
    workingDir := ⟨true, ["p"]⟩
    now := Instant.zero
    hash := Digest.Sha256.hash
    writer := Writer.toFiles ⟨true, ["p"]⟩ }
  options := {}
  start := ⟨twoSidecars sidecar, some store, ()⟩

/-- A run of the project with an empty store. -/
def beforeRenaming : Round Unit := renamingRound "meta.yaml" .empty

/-- The run after it, for which the configuration names the other file. -/
def afterRenaming : Round Unit :=
  renamingRound "other.yaml" (beforeRenaming.outcome.world.store.getD .empty)

/-- The second run takes a result from the store, and compiling afresh has another one. Both runs have the
same byte strings for their keys, which differ within a run. -/
lemma renaming_runs :
    beforeRenaming.setup?.map (·.plan.plugins) = some [] ∧
    afterRenaming.setup?.map (·.plan.plugins) = some [] ∧
    afterRenaming.hashed = beforeRenaming.hashed ∧
    (beforeRenaming.hashed.map (Digest.key Digest.Sha256.hash)).Nodup ∧
    (∀ parts ∈ beforeRenaming.hashed, ∀ part ∈ parts, part.length < 2 ^ 64) ∧
    ∃ x ∈ afterRenaming.outcome.summary.results, x.cached = true ∧
      ∀ c ∈ afterRenaming.calls, c.result.diagnostics ≠ x.entry.diagnostics := by
  decide +kernel

lemma shares_renamingRound {sidecar : String} {store : Cache.Store}
    (plugins : (renamingRound sidecar store).setup?.map (·.plan.plugins) = some []) :
    (renamingRound sidecar store).Shares Digest.Sha256.hash .memory where
  hash := rfl
  keeping s k p arrived := by
    rw [(Round.prepared_of_arrival arrived).2]
    exact .inr fun _ _ => rfl
  plugins s k p arrived := by
    rw [Round.setup?_of_arrival arrived] at plugins
    exact Option.some.inj plugins
  hooks := Hooks.all_empty _
  writer path content script w key entry hit := by
    rwa [← Writer.get?_toFiles .memory script content w key]

/-- A run comes after another one with a store that has only what the other run leaves. -/
lemma successive_renamingRound {last : Round Unit} {earlier : List (Round Unit)} {store : Cache.Store}
    (sidecar : String)
    (left : ∀ key entry, store.get? key = some entry →
      (last.outcome.world.store.bind fun s => s.get? key) = some entry)
    (h : Successive .memory last earlier) :
    Successive .memory (renamingRound sidecar store) (last :: earlier) := by
  refine Successive.next ?_ h
  intro key entry hit
  exact left key entry hit

lemma bind_of_get?_getD {kept : Option Cache.Store} {key : String} {entry : Cache.Entry}
    (hit : (kept.getD .empty).get? key = some entry) : (kept.bind fun s => s.get? key) = some entry := by
  cases kept with
  | none => cases hit
  | some s => exact hit

lemma successive_renaming : Successive .memory afterRenaming [beforeRenaming] :=
  successive_renamingRound "other.yaml" (fun _ _ => bind_of_get?_getD) (.first fun _ => rfl)

lemma shares_renaming : ∀ r ∈ [afterRenaming, beforeRenaming], r.Shares Digest.Sha256.hash .memory := by
  obtain ⟨before, after, -⟩ := renaming_runs
  rintro r (_ | ⟨_, _ | ⟨_, ⟨⟩⟩⟩)
  · exact shares_renamingRound after
  · exact shares_renamingRound before

lemma separated_renaming : Separated Digest.Sha256.hash [afterRenaming, beforeRenaming] := by
  obtain ⟨-, -, same, nodup, fits, -⟩ := renaming_runs
  refine separated_of_nodup ?_ nodup fits
  rintro r (_ | ⟨_, _ | ⟨_, ⟨⟩⟩⟩)
  · exact same
  · rfl

/-- A result that is kept over the renaming of the overlay has the script of compiling afresh, and
findings that stand in the file of the first run. -/
theorem kept_results_fresh_of_renaming :
    Successive .memory afterRenaming [beforeRenaming] ∧
    (∀ r ∈ [afterRenaming, beforeRenaming], r.Shares Digest.Sha256.hash .memory) ∧
    Separated Digest.Sha256.hash [afterRenaming, beforeRenaming] ∧
    ∃ x ∈ afterRenaming.outcome.summary.results, x.cached = true ∧
      ∃ c ∈ afterRenaming.calls, c.path = x.path ∧ x.entry.sql = c.result.sql ∧
        c.overlayFindings ≠ [] ∧ x.entry ≠ c.result := by
  refine ⟨successive_renaming, shares_renaming, separated_renaming, ?_⟩
  obtain ⟨-, -, -, -, -, x, hx, cached, stale⟩ := renaming_runs
  obtain ⟨c, hc, path, ⟨sql, -⟩, r', -, -, -, fresh⟩ :=
    kept_results_fresh successive_renaming shares_renaming separated_renaming x hx cached
  have other : x.entry ≠ c.result := fun same => stale c hc (congrArg Cache.Entry.diagnostics same).symm
  exact ⟨x, hx, cached, c, hc, path, sql, fun none => other (fresh.2 (.inr none)), other⟩

/-- **A result from a cache can be stale.** After an overlay is renamed, a run takes a result from the cache
whose findings are not those of any call of the run. -/
theorem kept_result_stale :
    Successive .memory afterRenaming [beforeRenaming] ∧
    (∀ r ∈ [afterRenaming, beforeRenaming], r.Shares Digest.Sha256.hash .memory) ∧
    Separated Digest.Sha256.hash [afterRenaming, beforeRenaming] ∧
    ∃ x ∈ afterRenaming.outcome.summary.results, x.cached = true ∧
      ∀ c ∈ afterRenaming.calls, c.result.diagnostics ≠ x.entry.diagnostics :=
  ⟨successive_renaming, shares_renaming, separated_renaming, renaming_runs.2.2.2.2.2⟩

end ErdSql.Generation
