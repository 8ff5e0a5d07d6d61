import ErdSql.Proofs.Runs

/-!
# Runs from end to end

A run turns to its documents after it has been prepared, and each document that it can read is a call of
the compiler. What compiling a document keeps of the world is kept by a whole run, if its hooks and its
writer keep it as well.

* `Generation.Round`: a run and the world in which it starts.
* `Generation.Round.calls`: the calls of the compiler, with the documents as they are read.
* `Generation.Round.keeps_outcome`: from one call to the whole run.
-/

namespace ErdSql.Generation

open ErdSql.Compilation (Call)

variable {σ : Type}

/-! ### Calls -/

/-- A run, with what it needs and what it is asked to do, and the world in which it starts. -/
structure Round (σ : Type) where
  env : Environment σ
  options : RunOptions
  start : World σ

/-- The calls of the compiler for some documents, which are read one after another. -/
def callsFrom (env : Environment σ) (k : Keeping) (o : CompileOptions) :
    List String → Progress σ → List Call
  | [], _ => []
  | path :: paths, p =>
    match ends (compileFile env k o path) p with
    | (.error _, _) => []
    | (.ok _, q) =>
      match p.world.tree.read env.workingDir path with
      | .error _ => callsFrom env k o paths q
      | .ok src => ⟨path, src, o⟩ :: callsFrom env k o paths q

namespace Round

/-- What a run ends with. -/
def outcome (r : Round σ) : Outcome σ := run r.env r.options r.start

/-- The part of a run before it turns to its documents: how it is set up, and where it keeps results. -/
def approach (r : Round σ) : Step σ (Setup × Keeping) := do
  let s ← prepare r.env r.options
  let k ← keeping r.env r.options s.plan s.configPath
  hook r.env.hooks.beforeCompile s.plan.schemas
  return (s, k)

/-- The rest of a run. -/
def finish (r : Round σ) (s : Setup) (k : Keeping) : Step σ Unit := do
  let results ← s.plan.schemas.mapM (compileFile r.env k s.options)
  report fun summary => { summary with
    results, diagnostics := summary.diagnostics ++ results.flatMap (·.entry.diagnostics) }
  hook r.env.hooks.afterCompile results
  deliver r.env r.options s.plan.failOnWarnings (scripts s.plan results)

/-- How a run turns to its documents. -/
def arrival (r : Round σ) : Except RunError (Setup × Keeping) × Progress σ :=
  ends r.approach { world := r.start }

/-- How a run is set up. -/
def setup? (r : Round σ) : Option Setup :=
  r.arrival.1.toOption.map (·.1)

/-- The calls of the compiler in a run. -/
def calls (r : Round σ) : List Call :=
  match r.arrival with
  | (.ok (s, k), p) => callsFrom r.env k s.options s.plan.schemas p
  | (.error _, _) => []

/-- A run comes to its documents, and compiles and delivers them. -/
lemma ends_steps (r : Round σ) (p : Progress σ) : ends (steps r.env r.options) p =
    match ends r.approach p with
    | (.ok (s, k), q) => ends (r.finish s k) q
    | (.error e, q) => (.error e, q) := by
  unfold steps compileAll approach finish
  simp only [ends_bind]
  rcases ends (prepare r.env r.options) p with ⟨_ | s, p₁⟩
  · rfl
  simp only
  rcases ends (keeping r.env r.options s.plan s.configPath) p₁ with ⟨_ | k, p₂⟩
  · rfl
  simp only
  rcases ends (hook r.env.hooks.beforeCompile s.plan.schemas) p₂ with ⟨_ | _, p₃⟩
  · rfl
  simp only [ends_pure]
  rcases ends (s.plan.schemas.mapM (compileFile r.env k s.options)) p₃ with ⟨_ | results, p₄⟩
  · rfl
  simp only [ends_report]
  rcases ends (hook r.env.hooks.afterCompile results) _ with ⟨_ | _, p₅⟩ <;> rfl

/-- A run that stops before its documents ends as it has come so far, and else it ends as it goes on. -/
lemma outcome_eq (r : Round σ) : r.outcome =
    match r.arrival with
    | (.error e, p) => ⟨p.summary, some e, p.log, p.world⟩
    | (.ok (s, k), p) =>
      match ends (r.finish s k) p with
      | (.error e, q) => ⟨q.summary, some e, q.log, q.world⟩
      | (.ok _, q) => ⟨q.summary, none, q.log, q.world⟩ := by
  have whole := r.ends_steps { world := r.start }
  cases arrived : r.arrival with
  | mk result p =>
    rw [show ends r.approach { world := r.start } = (result, p) from arrived] at whole
    unfold outcome
    cases result with
    | error e => exact run_of_error whole
    | ok found =>
      obtain ⟨s, k⟩ := found
      simp only at whole ⊢
      cases finished : ends (r.finish s k) p with
      | mk result q =>
        rw [finished] at whole
        cases result with
        | error e => exact run_of_error whole
        | ok _ => exact run_of_ok whole

lemma calls_of_arrival {r : Round σ} {s : Setup} {k : Keeping} {p : Progress σ}
    (h : r.arrival = (.ok (s, k), p)) : r.calls = callsFrom r.env k s.options s.plan.schemas p := by
  unfold calls
  simp only [h]

lemma setup?_of_arrival {r : Round σ} {s : Setup} {k : Keeping} {p : Progress σ}
    (h : r.arrival = (.ok (s, k), p)) : r.setup? = some s := by
  simp only [setup?, h, Except.toOption, Option.map_some]

/-- What a run reports that comes to its documents. -/
lemma summary_of_arrival {r : Round σ} {s : Setup} {k : Keeping} {p : Progress σ}
    (arrived : r.arrival = (.ok (s, k), p)) : r.outcome.summary = (ends (r.finish s k) p).2.summary := by
  rw [outcome_eq]
  simp only [arrived]
  rcases ends (r.finish s k) p with ⟨_ | _, q⟩ <;> rfl

lemma exists_of_mem_calls {r : Round σ} {c : Call} (hc : c ∈ r.calls) :
    ∃ s k p, r.arrival = (.ok (s, k), p) ∧ c.options = s.options := by
  have all (env : Environment σ) (k : Keeping) (o : CompileOptions) (paths : List String) (p : Progress σ)
      (hc : c ∈ callsFrom env k o paths p) : c.options = o := by
    induction paths generalizing p with
    | nil => cases hc
    | cons path paths ih =>
      unfold callsFrom at hc
      split at hc
      · cases hc
      · split at hc
        · exact ih _ hc
        · rcases List.mem_cons.1 hc with rfl | hc
          · rfl
          · exact ih _ hc
  unfold calls at hc
  split at hc
  · next s k p arrived => exact ⟨s, k, p, arrived, all _ _ _ _ _ hc⟩
  · cases hc

end Round

/-! ### Keys -/

/-- The lists of byte strings that the keys of a run are made from. -/
def Round.hashed (r : Round σ) : List (List (List UInt8)) :=
  (r.setup?.map (·.outside)).toList ++ r.calls.map Call.parts

/-- The byte strings that the keys of some runs are made from have lengths of 64 bits, and the hash
function does not collide on their frames. -/
def Separated (hash : List UInt8 → List UInt8) (rounds : List (Round σ)) : Prop :=
  ∀ parts ∈ rounds.flatMap Round.hashed, Digest.Fits parts ∧
    ∀ parts' ∈ rounds.flatMap Round.hashed, ¬ Digest.Collide hash (Digest.frame parts) (Digest.frame parts')

section Keys
variable {hash : List UInt8 → List UInt8} {rounds : List (Round σ)}

/-- Byte strings of runs are told apart by their keys. -/
lemma Separated.eq_of_key_eq (h : Separated hash rounds)
    {parts parts' : List (List UInt8)} (hp : parts ∈ rounds.flatMap Round.hashed)
    (hp' : parts' ∈ rounds.flatMap Round.hashed) (same : Digest.key hash parts = Digest.key hash parts') :
    parts = parts' :=
  ((Digest.key_eq_iff (h _ hp).1 (h _ hp').1).1 same).resolve_right ((h _ hp).2 _ hp')

/-- Byte strings of bounded length that have different keys do not collide. -/
lemma separated_of_nodup {hashed : List (List (List UInt8))} (all : ∀ r ∈ rounds, r.hashed = hashed)
    (nodup : (hashed.map (Digest.key hash)).Nodup) (fits : ∀ parts ∈ hashed, Digest.Fits parts) :
    Separated hash rounds := by
  have mem {parts : List (List UInt8)} (h : parts ∈ rounds.flatMap Round.hashed) : parts ∈ hashed := by
    obtain ⟨r, hr, h⟩ := List.mem_flatMap.1 h
    rwa [all r hr] at h
  intro parts hp
  refine ⟨fits _ (mem hp), fun parts' hp' collide => ?_⟩
  obtain rfl : parts = parts' :=
    List.inj_on_of_nodup_map nodup (mem hp) (mem hp') (congrArg Text.hex collide.2)
  exact collide.1 rfl

end Keys

/-! ### Results of documents -/

/-- The results of some documents, of which those that could be read are calls. -/
inductive Compiled (Q : Call → Result → Prop) : List String → List Call → List Result → Prop where
  | nil : Compiled Q [] [] []
  | unreadable {paths cs rs} (path : String) (e : PathError) :
    Compiled Q paths cs rs →
    Compiled Q (path :: paths) cs (unreadable path e :: rs)
  | call {paths cs rs} {c : Call} {x : Result} :
    Q c x →
    Compiled Q paths cs rs →
    Compiled Q (c.path :: paths) (c :: cs) (x :: rs)

/-- A result that was kept is one of a call. -/
lemma Compiled.exists_call {Q : Call → Result → Prop} {paths : List String} {cs : List Call}
    {rs : List Result} (h : Compiled Q paths cs rs) {x : Result} (hx : x ∈ rs) (cached : x.cached = true) :
    ∃ c ∈ cs, Q c x := by
  induction h with
  | nil => cases hx
  | unreadable path e _ ih =>
    rcases List.mem_cons.1 hx with rfl | hx
    · cases cached
    · exact ih hx
  | call here _ ih =>
    rcases List.mem_cons.1 hx with rfl | hx
    · exact ⟨_, List.mem_cons_self, here⟩
    · obtain ⟨c, hc, q⟩ := ih hx
      exact ⟨c, List.mem_cons_of_mem _ hc, q⟩

/-- There are no more calls than documents, and if there are as many, then all results are of calls. -/
lemma Compiled.forall₂ {Q : Call → Result → Prop} {paths : List String} {cs : List Call}
    {rs : List Result} (h : Compiled Q paths cs rs) :
    cs.length ≤ paths.length ∧
      (cs.length = paths.length → cs.map Call.path = paths ∧ List.Forall₂ Q cs rs) := by
  induction h with
  | nil => exact ⟨Nat.le_refl _, fun _ => ⟨rfl, .nil⟩⟩
  | unreadable path e _ ih =>
    refine ⟨Nat.le_succ_of_le ih.1, fun same => ?_⟩
    have fewer := ih.1
    simp only [List.length_cons] at same
    omega
  | call here _ ih =>
    refine ⟨Nat.succ_le_succ ih.1, fun same => ?_⟩
    obtain ⟨paths, good⟩ := ih.2 (Nat.succ.inj same)
    exact ⟨by rw [List.map_cons, paths], .cons here good⟩

section Documents
variable {J : World σ → Prop} {Q : Call → Result → Prop} {env : Environment σ} {k : Keeping}
  {o : CompileOptions}

/-- Documents are compiled one by one, and what each call keeps is kept by all. A run that is called off
has calls for fewer documents. -/
lemma compiled_of_mapM {paths : List String} {p : Progress σ} (here : J p.world)
    (step : ∀ c ∈ callsFrom env k o paths p, ∀ w, J w →
      J (compileBytes env k o c.path c.src w).2 ∧ Q c (compileBytes env k o c.path c.src w).1) :
    match ends (paths.mapM (compileFile env k o)) p with
    | (.ok rs, q) => (J q.world ∧ q.summary = p.summary) ∧ Compiled Q paths (callsFrom env k o paths p) rs
    | (.error _, q) =>
      (J q.world ∧ q.summary = p.summary) ∧ (callsFrom env k o paths p).length < paths.length := by
  induction paths generalizing p with
  | nil => exact ⟨⟨here, rfl⟩, .nil⟩
  | cons path paths ih =>
    obtain ⟨log, first⟩ := ends_compileFile env k o path p
    rw [List.mapM_cons, ends_bind]
    unfold callsFrom at step ⊢
    rw [first] at step ⊢
    cases read : p.world.tree.read env.workingDir path with
    | error e =>
      simp only [read] at step ⊢
      have rest := ih here step
      rw [ends_bind]
      cases others : ends (paths.mapM (compileFile env k o)) p with
      | mk result q =>
        rw [others] at rest
        cases result with
        | error e => exact ⟨rest.1, Nat.lt_succ_of_lt rest.2⟩
        | ok rs => exact ⟨rest.1, .unreadable path e rest.2⟩
    | ok src =>
      simp only [read] at step ⊢
      by_cases off : env.canceled = true
      · simpa only [if_pos off] using ⟨⟨here, trivial⟩, Nat.succ_pos _⟩
      · simp only [if_neg off] at step ⊢
        obtain ⟨kept, good⟩ := step ⟨path, src, o⟩ List.mem_cons_self p.world here
        have rest := ih (p := { p with world := (compileBytes env k o path src p.world).2, log }) kept
          fun c hc => step c (List.mem_cons_of_mem _ hc)
        rw [ends_bind]
        cases others : ends (paths.mapM (compileFile env k o))
            { p with world := (compileBytes env k o path src p.world).2, log } with
        | mk result q =>
          rw [others] at rest
          cases result with
          | error e => exact ⟨rest.1, Nat.succ_lt_succ rest.2⟩
          | ok rs => exact ⟨rest.1, .call good rest.2⟩

end Documents

/-! ### Actions of others -/

/-- An action keeps a condition on the world. -/
def Keeps (J : World σ → Prop) (x : Action σ Unit) : Prop :=
  ∀ w, J w → J (x.run.run w).2

/-- All actions of some hooks satisfy a condition. -/
structure Hooks.All (P : Action σ Unit → Prop) (h : Hooks σ) : Prop where
  beforeCompile : ∀ action ∈ h.beforeCompile, ∀ paths, P (action paths)
  afterCompile : ∀ action ∈ h.afterCompile, ∀ results, P (action results)
  beforeWrite : ∀ action ∈ h.beforeWrite, ∀ scripts, P (action scripts)
  afterWrite : ∀ action ∈ h.afterWrite, ∀ summary, P (action summary)

lemma Hooks.all_empty (P : Action σ Unit → Prop) : ({} : Hooks σ).All P :=
  ⟨nofun, nofun, nofun, nofun⟩

lemma Hooks.All.mono {P Q : Action σ Unit → Prop} (le : ∀ x, P x → Q x) {h : Hooks σ} (all : h.All P) :
    h.All Q :=
  ⟨fun a ha x => le _ (all.beforeCompile a ha x), fun a ha x => le _ (all.afterCompile a ha x),
    fun a ha x => le _ (all.beforeWrite a ha x), fun a ha x => le _ (all.afterWrite a ha x)⟩

section Parts
variable {J : World σ → Prop} {rs : List Result}

/-- A run in a world that satisfies a condition, with some results to report. -/
abbrev Reported (J : World σ → Prop) (rs : List Result) (p : Progress σ) : Prop :=
  J p.world ∧ p.summary.results = rs

/-- Whether a part of a run goes well or not, its results stay, and the world keeps a condition. -/
abbrev Steadfast {α : Type} (J : World σ → Prop) (rs : List Result) (x : Step σ α) : Prop :=
  Triple (Reported J rs) x (fun _ => Reported J rs) (fun _ => Reported J rs)

lemma steadfast_files : Steadfast J rs files :=
  Triple.files.mono (fun _ hp => hp) (fun _ _ h => h.1) fun _ _ h => h

lemma steadfast_get : Steadfast J rs (get : Step σ (Progress σ)) :=
  Triple.get.mono (fun _ hp => hp) (fun _ _ h => h.1) fun _ _ h => h

lemma steadfast_report {f : Summary → Summary} (same : ∀ s, (f s).results = s.results) :
    Steadfast J rs (report f) :=
  Triple.report fun _ hp => ⟨hp.1, (same _).trans hp.2⟩

/-- A hook only acts on the world. -/
lemma triple_hook {α : Type} {pre : Progress σ → Prop} {h : Option (α → Action σ Unit)} {a : α}
    (kept : ∀ action ∈ h, ∀ p, pre p → pre { p with world := ((action a).run.run p.world).2 }) :
    Triple pre (hook h a) (fun _ => pre) (fun _ => pre) := by
  cases h with
  | none => exact Triple.hook
  | some action =>
    have kept := kept action rfl
    constructor
    · intro p _ q hp ended
      have acted := ends_act .other (action a) p
      rw [show ends (act .other (action a)) p = _ from ended] at acted
      have kept := kept p hp
      split at acted
      · next ran =>
        rw [ran] at kept
        cases acted
        exact kept
      · cases acted
    · intro p e q hp ended
      have acted := ends_act .other (action a) p
      rw [show ends (act .other (action a)) p = _ from ended] at acted
      have kept := kept p hp
      split at acted
      · cases acted
      · next ran =>
        rw [ran] at kept
        cases acted
        exact kept

lemma steadfast_hook {α : Type} {h : Option (α → Action σ Unit)}
    (keeps : ∀ action ∈ h, ∀ a, Keeps J (action a)) (a : α) : Steadfast J rs (hook h a) :=
  triple_hook fun action ha p hp => ⟨keeps action ha a p.world hp.1, hp.2⟩

lemma steadfast_compareFiles (env : Environment σ) (fs : List File) :
    Steadfast J rs (compareFiles env fs) := by
  unfold compareFiles
  refine steadfast_files.bind fun tree => ?_
  split
  · exact Triple.throw fun _ hp => hp
  · refine Triple.bind (steadfast_report fun _ => rfl) fun _ => ?_
    split
    · exact Triple.throw fun _ hp => hp
    · exact Triple.pure fun _ hp => hp

lemma steadfast_writeFile {env : Environment σ} {f : File}
    (keeps : Keeps J (env.writer f.path f.content)) : Steadfast J rs (writeFile env f) := by
  have kept {p : Progress σ} (hp : Reported J rs p) : Reported J rs (ends (writeFile env f) p).2 := by
    have wrote := wrote_writeFile env f p
    obtain ⟨written, summary⟩ := wrote.summary
    refine ⟨?_, by rw [summary]; exact hp.2⟩
    rcases wrote.world with ⟨world, -⟩ | ⟨world, -⟩
    · rw [world]
      exact hp.1
    · rw [world]
      exact keeps _ hp.1
  constructor
  · intro p _ q hp ended
    have kept := kept hp
    rwa [ended] at kept
  · intro p e q hp ended
    have kept := kept hp
    rwa [ended] at kept

lemma steadfast_deliver {env : Environment σ} {o : RunOptions} (hooks : env.hooks.All (Keeps J))
    {failOnWarnings : Bool} {fs : List File}
    (writer : ∀ f ∈ fs, Keeps J (env.writer f.path f.content)) :
    Steadfast J rs (deliver env o failOnWarnings fs) := by
  unfold deliver
  refine Triple.bind (steadfast_report fun _ => rfl) fun _ => ?_
  refine steadfast_get.bind fun q => ?_
  split
  · exact Triple.throw fun _ hp => hp
  · split
    · exact steadfast_compareFiles env fs
    · split
      · refine (steadfast_hook hooks.beforeWrite fs).bind fun _ => ?_
        refine (Triple.forM fun f hf => steadfast_writeFile (writer f hf)).bind fun _ => ?_
        exact steadfast_get.bind fun q => steadfast_hook hooks.afterWrite _
      · exact Triple.pure fun _ hp => hp

end Parts

/-! ### From one call to the whole run -/

namespace Round

variable {r : Round σ} {J : World σ → Prop}

/-- A run comes to its documents prepared, and with folders at most added to the world. -/
lemma triple_approach (folders : ∀ tree, FileTree.Extends (fun _ => False) r.start.tree tree →
      J { r.start with tree })
    (hooks : ∀ action ∈ r.env.hooks.beforeCompile, ∀ paths, Keeps J (action paths)) :
    Triple (Blank r.start {}) r.approach
      (fun x p => Underway J x.1.plan [] p ∧ Prepared r.env r.options r.start.tree x.1 ∧
        x.2 = keepingOf r.env r.options x.1.plan r.start)
      (fun _ p => ∃ plan, Underway J plan [] p) := by
  have start : J r.start := folders r.start.tree (FileTree.Extends.refl _ _)
  have moved {w : World σ} (hw : J w) {plan : Project.Plan} {p : Progress σ} (hp : Blank w plan p) :
      Underway J plan [] p :=
    ⟨hp.world ▸ hw, hp.plan, hp.results, hp.scripts, hp.drift, hp.findings⟩
  have stopped (e : RunError) (p : Progress σ) (h : Stopped r.start e p) :
      ∃ plan, Underway J plan [] p := by
    obtain ⟨plan, hp⟩ := h
    exact ⟨plan, moved start hp⟩
  unfold approach
  refine ((triple_prepare r.env r.options r.start).mono (fun _ h => h) (fun _ _ h => h) stopped).bind
    fun s => Triple.of_imp fun prepared => ?_
  have kept : Triple (Blank r.start s.plan) (keeping r.env r.options s.plan s.configPath)
      (fun k p => Underway J s.plan [] p ∧ k = keepingOf r.env r.options s.plan r.start)
      (fun _ p => ∃ plan, Underway J plan [] p) := by
    refine (triple_keeping r.env r.options s.plan s.configPath r.start).mono (fun _ h => h) ?_ stopped
    rintro k p ⟨⟨tree, added, hp⟩, rfl⟩
    exact ⟨moved (folders tree added) hp, rfl⟩
  refine kept.bind fun k => Triple.of_imp fun place => ?_
  have hooked : Triple (Underway J s.plan []) (hook r.env.hooks.beforeCompile s.plan.schemas)
      (fun _ => Underway J s.plan []) (fun _ => Underway J s.plan []) :=
    triple_hook fun action ha p hp => ⟨hooks action ha _ p.world hp.world, hp.plan, hp.results, hp.scripts,
      hp.drift, hp.findings⟩
  refine (hooked.mono (fun _ h => h) (fun _ _ h => h) fun _ _ h => ⟨s.plan, h⟩).bind fun _ => ?_
  exact Triple.pure fun p hp => ⟨hp, prepared, place⟩

/-- How a run was prepared that came to its documents. -/
lemma prepared_of_arrival {s : Setup} {k : Keeping} {p : Progress σ} (h : r.arrival = (.ok (s, k), p)) :
    Prepared r.env r.options r.start.tree s ∧ k = keepingOf r.env r.options s.plan r.start :=
  ((triple_approach (J := fun _ => True) (fun _ _ => trivial) fun _ _ _ _ _ => trivial).ok
    (blank_start r.start) h).2

/-- What each call of a run keeps is kept by the run, if its hooks and its writer keep it as well, and the
results are those of the calls. -/
lemma keeps_outcome {Q : Call → Result → Prop}
    (folders : ∀ tree, FileTree.Extends (fun _ => False) r.start.tree tree → J { r.start with tree })
    (hooks : r.env.hooks.All (Keeps J))
    (writer : ∀ path content, IsScript path → Keeps J (r.env.writer path content))
    (step : ∀ s k p, r.arrival = (.ok (s, k), p) → ∀ c ∈ r.calls, ∀ w, J w →
      J (compileBytes r.env k s.options c.path c.src w).2 ∧
        Q c (compileBytes r.env k s.options c.path c.src w).1) :
    J r.outcome.world ∧ (r.outcome.summary.results = [] ∨
      ∃ s k p, r.arrival = (.ok (s, k), p) ∧
        Compiled Q s.plan.schemas r.calls r.outcome.summary.results) := by
  have approached := triple_approach folders hooks.beforeCompile
  rw [outcome_eq]
  cases arrived : r.arrival with
  | mk result p =>
    cases result with
    | error e =>
      obtain ⟨plan, here⟩ := approached.error (blank_start r.start) arrived
      exact ⟨here.world, .inl here.results⟩
    | ok found =>
      obtain ⟨s, k⟩ := found
      obtain ⟨here, -, -⟩ := approached.ok (blank_start r.start) arrived
      have each := step s k p arrived
      rw [calls_of_arrival arrived] at each
      have documents := compiled_of_mapM here.world each
      rw [← calls_of_arrival arrived] at documents
      have rest (rs : List Result) : Triple (fun q => J q.world) (do
          report fun summary => { summary with
            results := rs, diagnostics := summary.diagnostics ++ rs.flatMap (·.entry.diagnostics) }
          hook r.env.hooks.afterCompile rs
          deliver r.env r.options s.plan.failOnWarnings (scripts s.plan rs))
          (fun _ => Reported J rs) (fun _ => Reported J rs) := by
        have delivered : Steadfast J rs (hook r.env.hooks.afterCompile rs >>= fun _ =>
            deliver r.env r.options s.plan.failOnWarnings (scripts s.plan rs)) :=
          (steadfast_hook hooks.afterCompile rs).bind fun _ =>
            steadfast_deliver hooks fun f hf => writer _ _ (isScript_of_mem_scripts hf)
        exact (Triple.report fun q hq => ⟨hq, rfl⟩).bind fun _ => delivered
      have finished : ends (r.finish s k) p = _ := ends_bind _ _ p
      cases compiled : ends (s.plan.schemas.mapM (compileFile r.env k s.options)) p with
      | mk result q =>
        rw [compiled] at documents finished
        cases result with
        | error e =>
          simp only at finished ⊢
          rw [finished]
          exact ⟨documents.1.1, .inl ((congrArg Summary.results documents.1.2).trans here.results)⟩
        | ok rs =>
          obtain ⟨⟨world, -⟩, good⟩ := documents
          simp only at finished ⊢
          rw [finished]
          have whole {q' : Progress σ} (h : Reported J rs q') : J q'.world ∧ (q'.summary.results = [] ∨
              ∃ s' k' p', (Except.ok (s, k), p) = ((.ok (s', k'), p') : Except RunError _ × Progress σ) ∧
                Compiled Q s'.plan.schemas r.calls q'.summary.results) :=
            ⟨h.1, .inr ⟨s, k, p, rfl, h.2 ▸ good⟩⟩
          split
          · next ended => exact whole ((rest rs).error world ended)
          · next ended => exact whole ((rest rs).ok world ended)

end Round

end ErdSql.Generation
