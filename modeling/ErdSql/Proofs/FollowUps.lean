import ErdSql.Proofs.Acceptance
import ErdSql.Proofs.Integrity
import ErdSql.Proofs.ScriptFiles

/-!
# Checks that follow runs

The documents of a project have scripts of different paths exactly if they differ in more than their
extensions. When a run that writes scripts is followed by one that compares them, what the first one keeps
does not change the answers to calls. So a run that reads the same makes the same scripts, and compares each
with the last one of its path.

* `Generation.Answered`: worlds in which calls are answered alike.
* `Generation.Round.FollowsUp`: a run that compares scripts and reads what the run before it read.
* `Generation.scripts_apart`: which scripts are on disk, and what a check finds then.
-/

namespace ErdSql

namespace Generation

open ErdSql.Compilation (Call)

variable {σ : Type} {w : World σ}

/-! ### Answers to calls -/

/-- What a call is answered in a world: the result that is kept under its key, or its own. -/
def answer (hash : List UInt8 → List UInt8) (k : Keeping) (w : World σ) (c : Call) : Cache.Entry :=
  (k.get? w (c.key hash)).getD c.result

lemma entry_compileBytes (env : Environment σ) (k : Keeping) (c : Call) (w : World σ) :
    (compileBytes env k c.options c.path c.src w).1.path = c.path ∧
      (compileBytes env k c.options c.path c.src w).1.entry = answer env.hash k w c := by
  have key : Compilation.key env.hash c.path c.src c.options = c.key env.hash := rfl
  rw [compileBytes, key, answer]
  cases k.get? w (c.key env.hash) <;> exact ⟨rfl, rfl⟩

/-- Some calls have the same answers in two worlds, which both have a store or both have none. -/
structure Answered (hash : List UInt8 → List UInt8) (k : Keeping) (cs : List Call) (w w' : World σ) :
    Prop where
  store : w'.store.isSome = w.store.isSome
  answer : ∀ c ∈ cs, answer hash k w' c = answer hash k w c

section Answers
variable {hash : List UInt8 → List UInt8} {k : Keeping} {cs : List Call} {w w' w'' : World σ}

lemma Answered.refl (w : World σ) : Answered hash k cs w w := ⟨rfl, fun _ _ => rfl⟩

lemma Answered.trans (h : Answered hash k cs w w') (h' : Answered hash k cs w' w'') :
    Answered hash k cs w w'' :=
  ⟨h'.store.trans h.store, fun c hc => (h'.answer c hc).trans (h.answer c hc)⟩

lemma Answered.of_get?_eq (store : w'.store = w.store) (same : ∀ key, k.get? w' key = k.get? w key) :
    Answered hash k cs w w' :=
  ⟨by rw [store], fun c _ => by rw [Generation.answer, Generation.answer, same]⟩

/-- Folders that are added change no answers. -/
lemma Answered.of_folders {tree : FileTree} (added : FileTree.Extends (fun _ => False) w.tree tree) :
    Answered hash k cs w { w with tree } := by
  have store : { w with tree }.store = w.store := rfl
  exact .of_get?_eq store fun key => Keeping.get?_of_extends store added (fun _ _ h => h) key

lemma isSome_store_put (k : Keeping) (now : Instant) (w : World σ) (key : String) (entry : Cache.Entry) :
    (k.put now w key entry).store.isSome = w.store.isSome := by
  cases k with
  | nowhere => rfl
  | memory => exact Option.isSome_map
  | folder f =>
    rw [Keeping.put]
    split <;> rfl

/-- A call that is answered changes no answers, if calls of one key have one result. -/
lemma Answered.compileBytes (env : Environment σ) {c : Call} (w : World σ)
    (same : ∀ c' ∈ cs, c'.key env.hash = c.key env.hash → c'.result = c.result) :
    Answered env.hash k cs w (compileBytes env k c.options c.path c.src w).2 := by
  have key : Compilation.key env.hash c.path c.src c.options = c.key env.hash := rfl
  rw [Generation.compileBytes, key]
  cases found : k.get? w (c.key env.hash) with
  | some entry => exact Answered.refl w
  | none =>
    refine ⟨isSome_store_put _ _ _ _ _, fun c' hc' => ?_⟩
    rw [Generation.answer, Generation.answer]
    by_cases own : c'.key env.hash = c.key env.hash
    · rw [own, found, same c' hc' own]
      cases kept : k.get? (k.put env.now w (c.key env.hash)
          (Compilation.run c.path c.src c.options).entry) (c.key env.hash) with
      | none => rfl
      | some entry =>
        rcases Keeping.eq_of_get?_put kept with rfl | before
        · rfl
        · rw [found] at before
          cases before
    · rw [Keeping.get?_put_of_ne _ _ own]

end Answers

/-- Calls of one run that have one key are one call. -/
lemma Separated.eq_of_calls {r : Round σ} (h : Separated r.env.hash [r]) {c c' : Call} (hc : c ∈ r.calls)
    (hc' : c' ∈ r.calls) (same : c'.key r.env.hash = c.key r.env.hash) : c' = c := by
  obtain ⟨s, k, p, arrived, options⟩ := Round.exists_of_mem_calls hc
  obtain ⟨s', k', p', arrived', options'⟩ := Round.exists_of_mem_calls hc'
  cases arrived.symm.trans arrived'
  have mem {c : Call} (hc : c ∈ r.calls) : c.parts ∈ [r].flatMap Round.hashed :=
    List.mem_flatMap.2 ⟨r, List.mem_singleton_self r, List.mem_append_right _ (List.mem_map_of_mem hc)⟩
  have alike : c'.Alike c := Compilation.Call.alike_of_parts_eq (fun _ => by rw [options, options'])
    (h.eq_of_key_eq (mem hc') (mem hc) same)
  obtain ⟨path, src, options⟩ := c
  obtain ⟨path', src', options'⟩ := c'
  obtain rfl : path' = path := alike.path
  obtain rfl : src' = src := alike.src
  simp_all only

/-! ### Results -/

/-- A compilation without errors has a script. -/
lemma generated_of_hasErrors_eq_false {c : Call} (clean : Diagnostic.hasErrors c.result.diagnostics = false) :
    c.result.generated = true := by
  have made : c.result = (Compilation.run c.path c.src c.options).entry := rfl
  rw [made, Compilation.run_eq] at clean ⊢
  generalize Compilation.analyse c.path c.src c.options = analysed at clean ⊢
  generalize Ddl.generate (Compilation.generateOptions c.options) analysed.1 = output at clean ⊢
  cases output with
  | ok output => rfl
  | error e =>
    have failed : Diagnostic.hasErrors (analysed.2 ++ [Compilation.generateDiagnostic c.path e]) = false :=
      clean
    cases (Diagnostic.hasErrors_append_eq_false.1 failed).2

/-- Results are told by their documents and entries, as far as scripts go. -/
lemma scripts_congr {plan : Project.Plan} {rs rs' : List Result}
    (same : rs.map (fun x => (x.path, x.entry)) = rs'.map fun x => (x.path, x.entry)) :
    scripts plan rs = scripts plan rs' := by
  have told (rs : List Result) : scripts plan rs =
      ((rs.map fun x => (x.path, x.entry)).filter (·.2.generated)).map fun x =>
        ⟨scriptPath plan x.1, x.1, Text.bytes x.2.sql⟩ := by
    rw [List.filter_map, List.map_map]
    rfl
  rw [told, told, same]

/-- If all documents have scripts, then these are the scripts. -/
lemma map_scripts {plan : Project.Plan} {rs : List Result} (sources : rs.map Result.path = plan.schemas)
    (generated : ∀ x ∈ rs, x.entry.generated = true) :
    (scripts plan rs).map File.source = plan.schemas ∧
      (scripts plan rs).map File.path = plan.schemas.map (scriptPath plan) := by
  have all : scripts plan rs =
      rs.map fun x => ⟨scriptPath plan x.path, x.path, Text.bytes x.entry.sql⟩ := by
    rw [scripts, List.filter_eq_self.2 generated]
    rfl
  constructor
  · rw [all, ← sources, List.map_map]
    rfl
  · rw [all, List.map_map, show plan.schemas.map (scriptPath plan) =
      (rs.map Result.path).map (scriptPath plan) by rw [sources], List.map_map]
    rfl

lemma findings_congr {rs rs' : List Result}
    (same : rs.map (fun x => (x.path, x.entry)) = rs'.map fun x => (x.path, x.entry)) :
    rs.flatMap (·.entry.diagnostics) = rs'.flatMap (·.entry.diagnostics) := by
  have told (rs : List Result) : rs.flatMap (·.entry.diagnostics) =
      (rs.map fun x => (x.path, x.entry)).flatMap (·.2.diagnostics) := by
    rw [List.flatMap_map]
  rw [told, told, same]

/-- If there is no error, then all documents could be read. -/
lemma Compiled.length_eq {Q : Call → Result → Prop} {paths : List String} {cs : List Call}
    {rs : List Result} (h : Compiled Q paths cs rs)
    (clean : Diagnostic.hasErrors (rs.flatMap (·.entry.diagnostics)) = false) :
    cs.length = paths.length := by
  induction h with
  | nil => rfl
  | unreadable path e _ _ =>
    rw [List.flatMap_cons, Diagnostic.hasErrors_append_eq_false] at clean
    cases clean.1
  | call _ _ ih =>
    rw [List.flatMap_cons, Diagnostic.hasErrors_append_eq_false] at clean
    exact congrArg Nat.succ (ih clean.2)

/-! ### Runs that write scripts and runs that compare them -/

namespace Round

variable {r : Round σ}

/-- A run that writes its scripts where their paths say, from rooted files without loops. What is kept when
it starts are results of compilations. -/
structure Generates (r : Round σ) : Prop where
  formed : r.start.tree.WellFormed
  rooted : r.env.workingDir.rooted = true
  writer : r.env.writer = Writer.toFiles r.env.workingDir
  quiet : r.env.hooks = {}
  writes : r.options.check = false ∧ r.options.dryRun = false
  kept : ∀ s k p, r.arrival = (.ok (s, k), p) → ∀ key entry, k.get? r.start key = some entry →
    ∃ c : Call, c.result = entry

/-- A run that compares scripts with what another run has left in their places, and reads what that one has
read: its configuration, and its documents with their options. -/
structure FollowsUp (r' r : Round σ) : Prop where
  env : r'.env = r.env
  options : r'.options = { r.options with check := true }
  start : r'.start = r.outcome.world
  setup : r'.setup? = r.setup?
  findings : r'.arrival.2.summary.diagnostics = r.arrival.2.summary.diagnostics
  documents : r'.calls.map (fun c => (c.path, c.src)) = r.calls.map fun c => (c.path, c.src)

/-- Runs that are set up alike and read the same documents have the same calls. -/
lemma FollowsUp.calls {r' : Round σ} (follows : r'.FollowsUp r) : r'.calls = r.calls := by
  have options : ∀ c' ∈ r'.calls, ∀ c ∈ r.calls, c'.options = c.options := by
    intro c' hc' c hc
    obtain ⟨s, k, p, arrived, own⟩ := exists_of_mem_calls hc
    obtain ⟨s', k', p', arrived', own'⟩ := exists_of_mem_calls hc'
    have setup := follows.setup
    rw [setup?_of_arrival arrived, setup?_of_arrival arrived'] at setup
    cases setup
    rw [own, own']
  have documents := follows.documents
  generalize r'.calls = cs' at documents options
  generalize r.calls = cs at documents options
  induction cs generalizing cs' with
  | nil => exact List.map_eq_nil_iff.1 documents
  | cons c cs ih =>
    cases cs' with
    | nil => cases documents
    | cons c' cs' =>
      rw [List.map_cons, List.map_cons, List.cons.injEq, Prod.mk.injEq] at documents
      obtain ⟨⟨path, src⟩, rest⟩ := documents
      have same : c' = c := by
        have own := options c' List.mem_cons_self c List.mem_cons_self
        cases c
        cases c'
        simp_all only
      rw [same, ih cs' rest fun d hd e he =>
        options d (List.mem_cons_of_mem _ hd) e (List.mem_cons_of_mem _ he)]

/-- A run without hooks compiles its documents and delivers the scripts. -/
lemma exists_of_arrival {J : World σ → Prop} {Q : Call → Result → Prop} {s : Setup} {k : Keeping}
    {p : Progress σ} (quiet : r.env.hooks = {}) (arrived : r.arrival = (.ok (s, k), p))
    (folders : ∀ tree, FileTree.Extends (fun _ => False) r.start.tree tree → J { r.start with tree })
    (step : ∀ c ∈ r.calls, ∀ w, J w → J (compileBytes r.env k s.options c.path c.src w).2 ∧
      Q c (compileBytes r.env k s.options c.path c.src w).1) :
    (r.calls.length < s.plan.schemas.length ∧ r.outcome.error ≠ none) ∨
    ∃ rs q, Compiled Q s.plan.schemas r.calls rs ∧ Underway J s.plan rs q ∧
      q.summary.diagnostics = p.summary.diagnostics ++ rs.flatMap (·.entry.diagnostics) ∧
      r.outcome =
        match ends (deliver r.env r.options s.plan.failOnWarnings (scripts s.plan rs)) q with
        | (.error e, q) => ⟨q.summary, some e, q.log, q.world⟩
        | (.ok _, q) => ⟨q.summary, none, q.log, q.world⟩ := by
  have hooks : ∀ action ∈ r.env.hooks.beforeCompile, ∀ paths, Keeps J (action paths) := by
    rw [quiet]
    nofun
  obtain ⟨here, -, -⟩ := (triple_approach folders hooks).ok (blank_start r.start) arrived
  have whole := r.outcome_eq
  rw [calls_of_arrival arrived] at step ⊢
  have documents := compiled_of_mapM here.world step
  simp only [arrived] at whole
  rw [finish, ends_bind] at whole
  cases compiled : ends (s.plan.schemas.mapM (compileFile r.env k s.options)) p with
  | mk result q =>
    rw [compiled] at documents whole
    cases result with
    | error e =>
      rw [whole]
      exact .inl ⟨documents.2, nofun⟩
    | ok rs =>
      obtain ⟨⟨world, summary⟩, good⟩ := documents
      simp only [quiet, ends_bind, ends_report, hook, ends_pure] at whole
      refine .inr ⟨rs, { q with summary := { q.summary with
        results := rs, diagnostics := q.summary.diagnostics ++ rs.flatMap (·.entry.diagnostics) } },
        good, ⟨world, ?_, rfl, ?_, ?_, _, rfl⟩, ?_, whole⟩
      · exact (congrArg Summary.plan summary).trans here.plan
      · exact (congrArg Summary.files summary).trans here.scripts
      · exact (congrArg Summary.drift summary).trans here.drift
      · exact congrArg (· ++ _) (congrArg Summary.diagnostics summary)

/-- What a run without hooks keeps of the answers to its calls. -/
lemma answered_compileBytes (separated : Separated r.env.hash [r]) {k : Keeping} {s : Setup} {p : Progress σ}
    (arrived : r.arrival = (.ok (s, k), p)) {c : Call} (hc : c ∈ r.calls) (w : World σ) :
    Answered r.env.hash k r.calls w (compileBytes r.env k s.options c.path c.src w).2 ∧
      ((compileBytes r.env k s.options c.path c.src w).1.path = c.path ∧
        (compileBytes r.env k s.options c.path c.src w).1.entry = answer r.env.hash k w c) := by
  obtain ⟨s', k', p', arrived', options⟩ := exists_of_mem_calls hc
  cases arrived.symm.trans arrived'
  rw [← options]
  exact ⟨.compileBytes r.env w fun c' hc' same => by rw [separated.eq_of_calls hc hc' same],
    entry_compileBytes r.env k c w⟩

/-- A run that writes its scripts changes no answers to its calls. -/
lemma Generates.answered (g : r.Generates) (separated : Separated r.env.hash [r]) {s : Setup} {k : Keeping}
    {p : Progress σ} (arrived : r.arrival = (.ok (s, k), p)) :
    Answered r.env.hash k r.calls r.start r.outcome.world := by
  refine (keeps_outcome (r := r) (Q := fun _ _ => True) (fun tree added => .of_folders added) ?_ ?_
    ?_).1
  · rw [g.quiet]
    exact Hooks.all_empty _
  · intro path content script w answered
    rw [g.writer]
    refine answered.trans (.of_get?_eq ?_ fun key => Writer.get?_toFiles k script content w key)
    rw [Writer.run_toFiles]
  · intro s' k' p' arrived' c hc w answered
    cases arrived.symm.trans arrived'
    exact ⟨answered.trans (answered_compileBytes separated arrived hc w).1, trivial⟩

lemma exists_of_setup? {s : Setup} (h : r.setup? = some s) : ∃ k p, r.arrival = (.ok (s, k), p) := by
  unfold setup? at h
  cases arrived : r.arrival with
  | mk result p =>
    rw [arrived] at h
    cases result with
    | error e => cases h
    | ok found =>
      obtain ⟨s', k⟩ := found
      cases h
      exact ⟨k, p, rfl⟩

lemma exists_arrival_of_ok (ok : r.outcome.error = none) : ∃ s k p, r.arrival = (.ok (s, k), p) := by
  rw [outcome_eq] at ok
  cases arrived : r.arrival with
  | mk result p =>
    rw [arrived] at ok
    cases result with
    | error e => cases ok
    | ok found => exact ⟨found.1, found.2, p, rfl⟩

/-- Results that have the paths of calls and given entries. -/
lemma map_of_forall₂ {entry : Call → Cache.Entry} {cs : List Call} {rs : List Result}
    (h : List.Forall₂ (fun c x => x.path = c.path ∧ x.entry = entry c) cs rs) :
    rs.map (fun x => (x.path, x.entry)) = cs.map fun c => (c.path, entry c) := by
  induction h with
  | nil => rfl
  | cons here _ ih => rw [List.map_cons, List.map_cons, here.1, here.2, ih]

/-- A run that goes well has a script for each of its documents, and leaves the last one of each path. -/
lemma Generates.exists_written (g : r.Generates) (separated : Separated r.env.hash [r])
    (ok : r.outcome.error = none) {s : Setup} {k : Keeping} {p : Progress σ}
    (arrived : r.arrival = (.ok (s, k), p)) :
    ∃ rs, rs.map (fun x => (x.path, x.entry)) =
        r.calls.map (fun c => (c.path, answer r.env.hash k r.start c)) ∧
      rs.map Result.path = s.plan.schemas ∧ (∀ x ∈ rs, x.entry.generated = true) ∧
      failure? (p.summary.diagnostics ++ rs.flatMap (·.entry.diagnostics)) s.plan.failOnWarnings = none ∧
      r.outcome.summary.plan = s.plan ∧ r.outcome.summary.files = scripts s.plan rs ∧
      ∀ f ∈ scripts s.plan rs, r.outcome.world.tree.read r.env.workingDir f.path =
        .ok (contentAfter (scripts s.plan rs) f.path f.content) := by
  have documents := exists_of_arrival (J := Answered r.env.hash k r.calls r.start)
    (Q := fun c x => x.path = c.path ∧ x.entry = answer r.env.hash k r.start c) g.quiet arrived
    (fun tree added => .of_folders added) fun c hc w answered => by
      obtain ⟨kept, path, entry⟩ := answered_compileBytes separated arrived hc w
      exact ⟨answered.trans kept, path, entry.trans (answered.answer c hc)⟩
  rcases documents with ⟨-, failed⟩ | ⟨rs, q, compiled, under, findings, ended⟩
  · exact absurd ok failed
  cases delivered : ends (deliver r.env r.options s.plan.failOnWarnings (scripts s.plan rs)) q with
  | mk result q' =>
    rw [delivered] at ended
    cases result with
    | error e =>
      rw [ended] at ok
      cases ok
    | ok _ =>
      obtain ⟨fine, ⟨written, summary⟩, q₀, -, wrote⟩ := exists_of_deliver g.quiet g.writes delivered
      rw [findings] at fine
      have clean := (Diagnostic.hasErrors_append_eq_false.1 (hasErrors_of_failure? fine)).2
      have each : ∀ x ∈ rs, Diagnostic.hasErrors x.entry.diagnostics = false := by
        rw [Diagnostic.hasErrors, List.any_flatMap, List.any_eq_false] at clean
        exact fun x hx => Bool.eq_false_iff.2 (clean x hx)
      obtain ⟨paths, all⟩ := compiled.forall₂.2 (compiled.length_eq clean)
      have told := map_of_forall₂ all
      have sources : rs.map Result.path = s.plan.schemas := by
        rw [← paths]
        simpa only [List.map_map, Function.comp_def] using congrArg (List.map Prod.fst) told
      obtain ⟨known, -⟩ := prepared_of_arrival arrived
      have rooted : ∀ f ∈ scripts s.plan rs, f.Rooted := fun f hf =>
        rooted_of_mem_scripts g.formed (known.plan.placed g.formed g.rooted)
          (known.plan.isRooted_out g.rooted) sources hf
      have world : r.outcome.world = q'.world := by rw [ended]
      have reported : r.outcome.summary = q'.summary := by rw [ended]
      refine ⟨rs, told, sources, fun x hx => ?_, fine, ?_, ?_, ?_⟩
      · obtain ⟨c, hc, -, entry⟩ := Schema.exists_of_forall₂ all hx
        have own : ∃ c : Call, c.result = x.entry := by
          rw [entry, answer]
          cases kept : k.get? r.start (c.key r.env.hash) with
          | none => exact ⟨c, rfl⟩
          | some e => exact g.kept s k p arrived _ e kept
        obtain ⟨c', result⟩ := own
        rw [← result]
        refine generated_of_hasErrors_eq_false ?_
        rw [result]
        exact each x hx
      · rw [reported, summary]
        exact under.plan
      · rw [reported, summary]
      · rw [world]
        exact (written_of_forM g.writer rooted wrote).1

/-- What a run finds that compares scripts with those that another run has left. -/
lemma FollowsUp.exists_compared {r' : Round σ} (follows : r'.FollowsUp r) (quiet : r.env.hooks = {})
    (separated : Separated r.env.hash [r]) {s : Setup} {k : Keeping} {p : Progress σ}
    (arrived : r.arrival = (.ok (s, k), p)) (answered : Answered r.env.hash k r.calls r.start r.outcome.world)
    {rs : List Result}
    (told : rs.map (fun x => (x.path, x.entry)) =
      r.calls.map fun c => (c.path, answer r.env.hash k r.start c))
    (sources : rs.map Result.path = s.plan.schemas)
    (fine : failure? (p.summary.diagnostics ++ rs.flatMap (·.entry.diagnostics)) s.plan.failOnWarnings =
      none)
    (reads : ∀ f ∈ scripts s.plan rs, r.outcome.world.tree.read r.env.workingDir f.path =
      .ok (contentAfter (scripts s.plan rs) f.path f.content)) :
    let drift := overwritten r.env.hash (scripts s.plan rs)
    r'.outcome.summary.files = scripts s.plan rs ∧ r'.outcome.summary.drift = drift ∧
      r'.outcome.error = if drift.isEmpty then none else some (.drift (drift.map (·.path))) := by
  obtain ⟨k', p', arrived'⟩ := exists_of_setup? (follows.setup.trans (setup?_of_arrival arrived))
  rw [← follows.start] at answered reads
  have place : k' = k := by
    rw [(prepared_of_arrival arrived').2, (prepared_of_arrival arrived).2, keepingOf, keepingOf,
      answered.store, follows.env, follows.options]
  subst place
  have documents := exists_of_arrival (r := r')
    (J := fun w => Answered r.env.hash k' r.calls r.start w ∧ FileTree.Extends k'.Holds r'.start.tree w.tree)
    (Q := fun c x => x.path = c.path ∧ x.entry = answer r.env.hash k' r.start c)
    (by rw [follows.env, quiet]) arrived'
    (fun tree added => ⟨answered.trans (.of_folders added), added.mono fun _ h => h.elim⟩)
    fun c hc w here => by
      rw [follows.calls] at hc
      rw [follows.env]
      obtain ⟨kept, path, entry⟩ := answered_compileBytes separated arrived hc w
      exact ⟨⟨here.1.trans kept, here.2.trans (extends_compileBytes _ _ _ _ _ w)⟩, path,
        entry.trans (here.1.answer c hc)⟩
  have many : r.calls.length = s.plan.schemas.length := by
    rw [← sources, List.length_map]
    simpa only [List.length_map] using (congrArg List.length told).symm
  rw [follows.calls] at documents
  rcases documents with ⟨fewer, -⟩ | ⟨rs', q, compiled, under, findings, ended⟩
  · omega
  have same := (map_of_forall₂ (compiled.forall₂.2 many).2).trans told.symm
  have diagnostics : p'.summary.diagnostics = p.summary.diagnostics := by
    have found := follows.findings
    rwa [arrived', arrived] at found
  rw [diagnostics, findings_congr same] at findings
  have check : r'.options.check = true := by rw [follows.options]
  rw [scripts_congr same, ends_deliver_of_check check, findings, fine] at ended
  simp only at ended
  have compared := ends_compareFiles r'.env
    (p := { q with summary := { q.summary with files := scripts s.plan rs } })
    fun f hf => under.world.2.read
      (fun _ found => not_holds_of_isScript (isScript_of_mem_scripts hf) found)
      (by rw [follows.env]; exact reads f hf)
  simp only at compared
  rw [compared, follows.env, ← overwritten] at ended
  rw [ended]
  cases overwritten r.env.hash (scripts s.plan rs) <;> exact ⟨rfl, rfl, rfl⟩

end Round

/-- **Scripts are apart exactly if documents differ in more than their extensions.** For a project that
loads, the paths of the scripts are pairwise different exactly if the paths of the documents are without
their extensions, whatever the output folder. Let a run write its scripts, and let another one that reads the
same compare them. There is one script for each document, and each path holds the last script that has it.
The drift that is found is that of the other scripts from the last one. So if the documents differ in more
than their extensions, every script is on disk and there is no drift. -/
theorem scripts_apart :
    (∀ (tree : FileTree) (workingDir : Path) (configPath : String) (strict : Bool) (plan : Project.Plan)
      (warnings : List String), tree.WellFormed → workingDir.rooted = true →
      Project.load tree workingDir configPath strict = .ok (plan, warnings) → ∀ out,
        ((plan.schemas.map (scriptPath { plan with out })).Nodup ↔
          (plan.schemas.map Path.withoutExtension).Nodup)) ∧
    ∀ r r' : Round σ, r.Generates → Separated r.env.hash [r] → r.outcome.error = none → r'.FollowsUp r →
      let g := r.outcome.summary
      let c := r'.outcome
      let disk := r.outcome.world.tree.read r.env.workingDir
      let drift := overwritten r.env.hash g.files
      (g.files.map File.source = g.plan.schemas ∧
        g.files.map File.path = g.plan.schemas.map (scriptPath g.plan)) ∧
      (∀ f ∈ g.files, disk f.path = .ok (contentAfter g.files f.path f.content)) ∧
      (c.summary.files = g.files ∧ c.summary.drift = drift ∧
        c.error = if drift.isEmpty then none else some (.drift (drift.map (·.path)))) ∧
      ((g.plan.schemas.map Path.withoutExtension).Nodup →
        (∀ f ∈ g.files, disk f.path = .ok f.content) ∧ c.summary.drift = [] ∧ c.error = none) := by
  constructor
  · intro tree workingDir configPath strict plan warnings formed rooted load out
    have placed : plan.Placed tree := Project.placed_of_load formed rooted load
    have elsewhere : Project.Plan.Placed tree { plan with out } := placed
    exact nodup_scriptPath_iff formed elsewhere
  · intro r r' generates separated ok follows
    obtain ⟨s, k, p, arrived⟩ := Round.exists_arrival_of_ok ok
    obtain ⟨rs, told, sources, generated, fine, plan, files, reads⟩ :=
      generates.exists_written separated ok arrived
    have compared := follows.exists_compared generates.quiet separated arrived
      (generates.answered separated arrived) told sources fine reads
    have named := map_scripts sources generated
    simp only [plan, files]
    refine ⟨named, reads, compared, fun apart => ?_⟩
    have placed := (Round.prepared_of_arrival arrived).1.plan.placed generates.formed generates.rooted
    have nodup : ((scripts s.plan rs).map File.path).Nodup := by
      rw [named.2]
      exact (nodup_scriptPath_iff generates.formed placed).2 apart
    obtain ⟨-, drift, error⟩ := compared
    rw [overwritten_of_nodup _ nodup] at drift error
    refine ⟨fun f hf => ?_, drift, error⟩
    rw [reads f hf, contentAfter_of_nodup nodup hf]

/-! ### Two documents in one folder -/

/-- The configuration of a project of two documents in one folder. -/
def siblingConfig (other : String) : List UInt8 :=
  Text.bytes ("schemas = [\"a.erd\", \"" ++ other ++ "\"]\nout = \"out\"\n")

/-- The files of the project. -/
def siblings (other : String) : FileTree :=
  ⟨[(["p", Project.fileName], siblingConfig other),
    (["p", "a.erd"], Text.bytes ":A\n  INT $.id PK\n"),
    (["p", other], Text.bytes ":B\n  INT $.id PK\n")],
   [["p"]]⟩

/-- The plan of the project. -/
def siblingPlan (other : String) : Project.Plan where
  schemas := ["/p/a.erd", "/p/" ++ other]
  out := "/p/out"
  dialect := "postgresql"

/-- How a run of the project is set up. -/
def siblingSetup (other : String) : Setup where
  configPath := "/p/erd-catalyst.toml"
  plan := siblingPlan other
  outside := []
  options := { fingerprint := Digest.key Digest.Sha256.hash [] }

/-- A run of the project without a cache, which writes the scripts or compares them. -/
def siblingRound (check : Bool) (tree : FileTree) : Round Unit where
  env := {
    workingDir := ⟨true, ["p"]⟩
    now := Instant.zero
    hash := Digest.Sha256.hash
    writer := Writer.toFiles ⟨true, ["p"]⟩ }
  options := { check, noCache := true }
  start := ⟨tree, none, ()⟩

/-- How the run comes to the documents. -/
def siblingProgress (other : String) (tree : FileTree) : Progress Unit where
  world := ⟨tree, none, ()⟩
  summary := { plan := siblingPlan other }

/-- How the run goes on from there. -/
def siblingFinish (check : Bool) (other : String) (tree : FileTree) :
    Except RunError Unit × Progress Unit :=
  ends ((siblingRound check tree).finish (siblingSetup other) .nowhere) (siblingProgress other tree)

/-- The documents that it reads. -/
def siblingDocuments (check : Bool) (other : String) (tree : FileTree) : List (String × List UInt8) :=
  (callsFrom (siblingRound check tree).env .nowhere (siblingSetup other).options (siblingPlan other).schemas
    (siblingProgress other tree)).map fun c => (c.path, c.src)

/-- The files with the scripts. -/
def siblingsWritten (other : String) : FileTree :=
  (siblingFinish false other (siblings other)).2.world.tree

/-- Files that have the configuration and the documents of the project. -/
abbrev HasSiblings (other : String) (tree : FileTree) : Prop :=
  tree.read ⟨true, ["p"]⟩ "/p/erd-catalyst.toml" = .ok (siblingConfig other) ∧
    FileSet.Source.collect ⟨tree, ["p"], ".erd", true⟩ ["a.erd", other] = .ok ([["a.erd"], [other]], [])

/-- The run that writes the scripts goes well, and leaves the configuration and the documents. -/
abbrev SiblingsKept (other : String) : Prop :=
  (siblingFinish false other (siblings other)).1.toOption = some () ∧
    (siblingFinish false other (siblings other)).2.world.store = none ∧
    HasSiblings other (siblingsWritten other) ∧
    siblingDocuments true other (siblingsWritten other) = siblingDocuments false other (siblings other)

/-- What the project comes to for one name. -/
structure SiblingFacts (other : String) : Prop where
  formed : (siblings other).WellFormed
  settings : (Project.Settings.readBytes (siblingConfig other)).toOption =
    some ({ schemas := ["a.erd", other], out := "out" }, [])
  order : Text.textLE "a.erd" other = true ∧ "a.erd" ≠ other
  texts : FileSet.placeText [other] = other ∧ ((⟨true, ["p"]⟩ : Path).join other).text = "/p/" ++ other
  before : HasSiblings other (siblings other)
  kept : SiblingsKept other

section Siblings
variable {other : String} {tree : FileTree}

lemma load_siblings (facts : SiblingFacts other) (has : HasSiblings other tree) :
    Project.load tree ⟨true, ["p"]⟩ "/p/erd-catalyst.toml" false = .ok (siblingPlan other, []) := by
  have files : Project.filesBelow tree ⟨true, ["p"]⟩ ".erd" ["a.erd", other] =
      .ok (siblingPlan other).schemas := by
    have sorted : FileSet.compact (Text.sortTexts ["a.erd", other]) = ["a.erd", other] := by
      rw [Text.sortTexts, List.mergeSort_of_pairwise (List.pairwise_pair.2 facts.order.1), FileSet.compact,
        if_neg (by simpa using facts.order.2)]
      rfl
    have resolved : FileSet.resolve (some { tree, base := ["p"], extension := ".erd", strict := true })
        ["a.erd", other] = .ok ["a.erd", other] := by
      have first : FileSet.placeText ["a.erd"] = "a.erd" := by decide +kernel
      rw [FileSet.resolve]
      simp only [has.2, bind, Except.bind, List.map_cons, List.map_nil, first, facts.texts.1, sorted]
      rfl
    have first : ((⟨true, ["p"]⟩ : Path).join "a.erd").text = "/p/a.erd" := by decide +kernel
    rw [Project.filesBelow]
    simp only [resolved, List.map_cons, List.map_nil, first, facts.texts.2]
    rfl
  have config : (Path.ofText "/p/erd-catalyst.toml").text = "/p/erd-catalyst.toml" := by decide +kernel
  have dir : Path.ofText (Path.dirText "/p/erd-catalyst.toml") = ⟨true, ["p"]⟩ := by decide +kernel
  have base : Path.absolute ⟨true, ["p"]⟩ (Path.text ⟨true, ["p"]⟩) = ⟨true, ["p"]⟩ := by
    decide +kernel
  have settings : Project.Settings.readBytes (siblingConfig other) =
      .ok ({ schemas := ["a.erd", other], out := "out" }, []) := by
    have decoded := facts.settings
    cases read : Project.Settings.readBytes (siblingConfig other) with
    | error e => simp [read, Except.toOption] at decoded
    | ok found => simpa [read, Except.toOption] using decoded
  refine Project.load_eq_ok (config ▸ has.1) settings ?_
  rw [dir, base, Project.plan]
  simp only [files]
  rfl

lemma arrival_siblingRound (check : Bool) (facts : SiblingFacts other) (has : HasSiblings other tree) :
    (siblingRound check tree).arrival =
      (.ok (siblingSetup other, .nowhere), siblingProgress other tree) := by
  have config : (Path.absolute ⟨true, ["p"]⟩ Project.fileName).text = "/p/erd-catalyst.toml" := by
    decide +kernel
  have planned : ends (plan (siblingRound check tree).env (siblingRound check tree).options
      "/p/erd-catalyst.toml") { world := ⟨tree, none, ()⟩ } =
      (.ok (siblingPlan other), siblingProgress other tree) := by
    unfold plan
    rw [ends_bind, ends_files]
    simp only [siblingRound]
    rw [load_siblings facts has]
    rfl
  have prepared : ends (prepare (siblingRound check tree).env (siblingRound check tree).options)
      { world := ⟨tree, none, ()⟩ } = (.ok (siblingSetup other), siblingProgress other tree) := by
    have dialect : Dialect.Registry.builtin.lookup "postgresql" = some .postgresql := by decide +kernel
    unfold prepare
    simp only [show (siblingRound check tree).options.configPath = "" from rfl,
      show (siblingRound check tree).env.workingDir = ⟨true, ["p"]⟩ from rfl, config, beq_self_eq_true,
      if_true]
    rw [ends_bind, planned]
    simp only [show (siblingPlan other).dialect = "postgresql" from rfl, dialect]
    rfl
  unfold Round.arrival Round.approach
  rw [ends_bind, show (siblingRound check tree).start = ⟨tree, none, ()⟩ from rfl, prepared]
  rfl

lemma outcome_siblings (facts : SiblingFacts other) :
    (siblingRound false (siblings other)).outcome.error = none ∧
      (siblingRound false (siblings other)).outcome.world = ⟨siblingsWritten other, none, ()⟩ := by
  have whole := (siblingRound false (siblings other)).outcome_eq
  simp only [arrival_siblingRound false facts facts.before] at whole
  obtain ⟨goes, store, -⟩ := facts.kept
  have written : (siblingFinish false other (siblings other)).2.world.tree = siblingsWritten other := rfl
  rw [siblingFinish] at goes store written
  rw [whole]
  generalize ends ((siblingRound false (siblings other)).finish (siblingSetup other) .nowhere)
    (siblingProgress other (siblings other)) = finished at goes store written
  obtain ⟨result | _, p⟩ := finished
  · cases goes
  · obtain ⟨⟨tree, kept, own⟩, summary, log⟩ := p
    obtain rfl : kept = none := store
    obtain rfl : tree = siblingsWritten other := written
    exact ⟨rfl, rfl⟩

lemma generates_siblings (facts : SiblingFacts other) :
    (siblingRound false (siblings other)).Generates where
  formed := facts.formed
  rooted := rfl
  writer := rfl
  quiet := rfl
  writes := ⟨rfl, rfl⟩
  kept s k p arrived key entry hit := by
    cases (arrival_siblingRound false facts facts.before).symm.trans arrived
    cases hit

lemma followsUp_siblings (facts : SiblingFacts other) :
    (siblingRound true (siblingsWritten other)).FollowsUp (siblingRound false (siblings other)) := by
  have arrived := arrival_siblingRound false facts facts.before
  have arrived' := arrival_siblingRound true facts facts.kept.2.2.1
  refine ⟨rfl, rfl, (outcome_siblings facts).2.symm, ?_, ?_, ?_⟩
  · rw [Round.setup?_of_arrival arrived, Round.setup?_of_arrival arrived']
  · rw [arrived, arrived']
    rfl
  · rw [Round.calls_of_arrival arrived, Round.calls_of_arrival arrived']
    exact facts.kept.2.2.2

end Siblings

lemma siblingFacts_apart : SiblingFacts "b.erd" :=
  ⟨.of_inits (by decide) (by decide), by decide +kernel, by decide +kernel, by decide +kernel,
    by decide +kernel, by decide +kernel⟩

/-- If the names differ in the extension only, then the scripts are compared to the second of them. -/
lemma siblingFacts_alike : SiblingFacts "a.txt" ∧
    (siblingFinish true "a.txt" (siblingsWritten "a.txt")).2.summary.drift.map (·.path) =
      ["/p/out/a.sql"] := by
  have run : SiblingsKept "a.txt" ∧
      (siblingFinish true "a.txt" (siblingsWritten "a.txt")).2.summary.drift.map (·.path) =
        ["/p/out/a.sql"] := by
    decide +kernel
  exact ⟨⟨.of_inits (by decide) (by decide), by decide +kernel, by decide +kernel, by decide +kernel,
    by decide +kernel, run.1⟩, run.2⟩

lemma separated_siblings :
    Separated Digest.Sha256.hash [siblingRound false (siblings "b.erd")] := by
  have arrived := arrival_siblingRound false siblingFacts_apart siblingFacts_apart.before
  refine separated_of_nodup (fun r hr => by rw [List.mem_singleton.1 hr]) ?_ ?_
  · rw [Round.hashed, Round.setup?_of_arrival arrived, Round.calls_of_arrival arrived]
    decide +kernel
  · rw [Round.hashed, Round.setup?_of_arrival arrived, Round.calls_of_arrival arrived]
    unfold Digest.Fits
    decide +kernel

/-- Two documents that differ in more than their extensions have two scripts on disk, which do not
drift. -/
theorem scripts_apart_of_siblings :
    (∃ plan : Project.Plan, Project.load (siblings "b.erd") ⟨true, ["p"]⟩ "/p/erd-catalyst.toml" false =
      .ok (plan, []) ∧ (plan.schemas.map (scriptPath plan)).Nodup) ∧
    let r := siblingRound false (siblings "b.erd")
    let r' := siblingRound true (siblingsWritten "b.erd")
    r.Generates ∧ Separated r.env.hash [r] ∧ r.outcome.error = none ∧ r'.FollowsUp r ∧
      r.outcome.summary.files.length = 2 ∧
      (∀ f ∈ r.outcome.summary.files,
        r.outcome.world.tree.read r.env.workingDir f.path = .ok f.content) ∧
      r'.outcome.summary.drift = [] ∧ r'.outcome.error = none := by
  have facts := siblingFacts_apart
  have apart : ((siblingPlan "b.erd").schemas.map Path.withoutExtension).Nodup := by decide +kernel
  have load := load_siblings facts facts.before
  have generates := generates_siblings facts
  have follows := followsUp_siblings facts
  have ok := (outcome_siblings facts).1
  obtain ⟨rs, -, -, -, -, plan, -⟩ := generates.exists_written separated_siblings ok
    (arrival_siblingRound false facts facts.before)
  refine ⟨⟨siblingPlan "b.erd", load, ?_⟩, generates, separated_siblings, ok, follows, ?_⟩
  · exact ((scripts_apart (σ := Unit)).1 _ _ _ _ _ _ facts.formed rfl load "/p/out").2 apart
  · obtain ⟨⟨sources, -⟩, -, -, kept⟩ := scripts_apart.2 _ _ generates separated_siblings ok follows
    refine ⟨?_, kept (plan ▸ apart)⟩
    rw [← List.length_map File.source, sources, plan]
    rfl

/-- **A script can overwrite another.** Two documents that differ in their extensions only are one project,
and have one path for their scripts. The run that writes them goes well, and a run that compares them
fails. -/
theorem script_overwritten :
    (∃ plan : Project.Plan, Project.load (siblings "a.txt") ⟨true, ["p"]⟩ "/p/erd-catalyst.toml" false =
      .ok (plan, []) ∧ ¬ (plan.schemas.map (scriptPath plan)).Nodup) ∧
    let r := siblingRound false (siblings "a.txt")
    let r' := siblingRound true (siblingsWritten "a.txt")
    r.Generates ∧ r.outcome.error = none ∧ r'.FollowsUp r ∧
      r'.outcome.summary.drift.map (·.path) = ["/p/out/a.sql"] := by
  obtain ⟨facts, drift⟩ := siblingFacts_alike
  refine ⟨⟨siblingPlan "a.txt", load_siblings facts facts.before, by decide +kernel⟩,
    generates_siblings facts, (outcome_siblings facts).1, followsUp_siblings facts, ?_⟩
  rw [Round.summary_of_arrival (arrival_siblingRound true facts facts.kept.2.2.1)]
  exact drift

end Generation

end ErdSql
