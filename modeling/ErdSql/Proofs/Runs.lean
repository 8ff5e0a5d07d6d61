import ErdSql.Generation
import ErdSql.Proofs.Keepings
import ErdSql.Proofs.Selection

/-!
# The parts of a run

How the parts of a run end, on success and on failure.

* `Generation.ends`: how a part ends that starts at some progress.
* `Generation.Triple`: conditions before a part and after it.
* `Generation.Prepared`: how a run is set up that comes to its documents.
-/

namespace ErdSql.Generation

variable {σ α β : Type}

/-! ### How a part ends -/

/-- How a part of a run ends that starts at some progress. -/
def ends (x : Step σ α) (p : Progress σ) : Except RunError α × Progress σ :=
  x.run.run p

variable {p q : Progress σ}

@[simp]
lemma ends_pure (a : α) (p : Progress σ) : ends (pure a : Step σ α) p = (.ok a, p) := rfl

@[simp]
lemma ends_get (p : Progress σ) : ends (get : Step σ (Progress σ)) p = (.ok p, p) := rfl

lemma ends_bind (x : Step σ α) (f : α → Step σ β) (p : Progress σ) :
    ends (x >>= f) p =
      match ends x p with
      | (.ok a, q) => ends (f a) q
      | (.error e, q) => (.error e, q) := by
  unfold ends ExceptT.run StateT.run
  simp only [bind, ExceptT.bind, ExceptT.mk, StateT.bind]
  rcases x p with ⟨_ | a, q⟩ <;> rfl

/-- A part that goes well consists of parts that go well. -/
lemma exists_of_ends_bind {x : Step σ α} {f : α → Step σ β} {b : β}
    (h : ends (x >>= f) p = (.ok b, q)) :
    ∃ a r, ends x p = (.ok a, r) ∧ ends (f a) r = (.ok b, q) := by
  rw [ends_bind] at h
  rcases hx : ends x p with ⟨_ | a, r⟩
  · rw [hx] at h
    cases h
  · rw [hx] at h
    exact ⟨a, r, rfl, h⟩

@[simp]
lemma ends_report (f : Summary → Summary) (p : Progress σ) :
    ends (report f) p = (.ok (), { p with summary := f p.summary }) := rfl

@[simp]
lemma ends_files (p : Progress σ) : ends files p = (.ok p.world.tree, p) := rfl

/-- What an action in the world of a run does to the run. -/
lemma ends_act (wrap : String → RunError) (action : Action σ α) (p : Progress σ) :
    ends (act wrap action) p =
      match action.run.run p.world with
      | (.ok a, world) => (.ok a, { p with world })
      | (.error message, world) => (.error (wrap message), { p with world }) := by
  unfold act
  rw [ends_bind, ends_get]
  simp only
  rcases action.run.run p.world with ⟨_ | _, world⟩ <;> rfl

/-! ### Conditions before and after -/

/-- From a condition, a part of a run ends well with one condition and badly with another. -/
structure Triple (pre : Progress σ → Prop) (x : Step σ α) (post : α → Progress σ → Prop)
    (fail : RunError → Progress σ → Prop) : Prop where
  ok : ∀ {p a q}, pre p → ends x p = (.ok a, q) → post a q
  error : ∀ {p e q}, pre p → ends x p = (.error e, q) → fail e q

namespace Triple

variable {pre : Progress σ → Prop} {post : α → Progress σ → Prop} {fail : RunError → Progress σ → Prop}

lemma pure {a : α} (h : ∀ p, pre p → post a p) : Triple pre (pure a) post fail where
  ok hp e := by
    cases e
    exact h _ hp
  error hp e := by cases e

lemma throw {e : RunError} (h : ∀ p, pre p → fail e p) :
    Triple pre (throw e : Step σ α) post fail where
  ok hp e := by cases e
  error hp e := by
    cases e
    exact h _ hp

lemma bind {x : Step σ α} {f : α → Step σ β} {mid : α → Progress σ → Prop}
    {post : β → Progress σ → Prop}
    (hx : Triple pre x mid fail) (hf : ∀ a, Triple (mid a) (f a) post fail) :
    Triple pre (x >>= f) post fail := by
  constructor
  · intro p b q hp h
    obtain ⟨a, r, first, second⟩ := exists_of_ends_bind h
    exact (hf a).ok (hx.ok hp first) second
  · intro p e q hp h
    rw [ends_bind] at h
    rcases first : ends x p with ⟨e' | a, r⟩
    · rw [first] at h
      cases h
      exact hx.error hp first
    · rw [first] at h
      exact (hf a).error (hx.ok hp first) h

lemma mono {weaker : Progress σ → Prop} {x : Step σ α} {post' : α → Progress σ → Prop}
    {fail' : RunError → Progress σ → Prop} (h : Triple weaker x post fail) (hp : ∀ p, pre p → weaker p)
    (hq : ∀ a q, post a q → post' a q) (hf : ∀ e q, fail e q → fail' e q) :
    Triple pre x post' fail' where
  ok here e := hq _ _ (h.ok (hp _ here) e)
  error here e := hf _ _ (h.error (hp _ here) e)

/-- A condition on nothing but values may be taken out. -/
lemma of_imp {c : Prop} {x : Step σ α} (h : c → Triple pre x post fail) :
    Triple (fun p => pre p ∧ c) x post fail where
  ok hp e := (h hp.2).ok hp.1 e
  error hp e := (h hp.2).error hp.1 e

lemma files : Triple pre files (fun t q => pre q ∧ t = q.world.tree) fail where
  ok hp e := by
    cases e
    exact ⟨hp, rfl⟩
  error hp e := by cases e

lemma get : Triple pre get (fun q p => pre p ∧ q = p) fail where
  ok hp e := by
    cases e
    exact ⟨hp, rfl⟩
  error hp e := by cases e

lemma modify {f : Progress σ → Progress σ} {post : Progress σ → Prop} (h : ∀ p, pre p → post (f p)) :
    Triple pre (modify f) (fun _ => post) fail where
  ok hp e := by
    cases e
    exact h _ hp
  error hp e := by cases e

lemma report {f : Summary → Summary} {post : Progress σ → Prop}
    (h : ∀ p, pre p → post { p with summary := f p.summary }) :
    Triple pre (report f) (fun _ => post) fail where
  ok hp e := by
    cases e
    exact h _ hp
  error hp e := by cases e

lemma hook {a : α} : Triple pre (hook none a) (fun _ => pre) fail :=
  pure fun _ hp => hp

/-- What is wrong before compiling starts ends a run. -/
lemma setup {path what : String} {value : Except String α} (hf : ∀ e p, pre p → fail e p) :
    Triple pre (setup path what value) (fun a q => pre q ∧ value = .ok a) fail := by
  cases value with
  | ok a => exact pure fun p hp => ⟨hp, rfl⟩
  | error reason => exact throw fun p hp => hf _ p hp

/-- A part that is done for each of some values. -/
lemma mapM {Q : α → β → Prop} {f : α → Step σ β} {xs : List α}
    (h : ∀ a ∈ xs, Triple pre (f a) (fun b q => pre q ∧ Q a b) fail) :
    Triple pre (xs.mapM f) (fun bs q => pre q ∧ List.Forall₂ Q xs bs) fail := by
  induction xs with
  | nil => exact pure fun p hp => ⟨hp, .nil⟩
  | cons x xs ih =>
    rw [List.mapM_cons]
    refine (h x List.mem_cons_self).bind fun b => of_imp fun first => ?_
    have rest := ih fun a ha => h a (List.mem_cons_of_mem x ha)
    exact rest.bind fun bs => pure fun q hq => ⟨hq.1, .cons first hq.2⟩

/-- A part that is done for each of some values and gives nothing back. -/
lemma forM {f : α → Step σ Unit} {xs : List α} (h : ∀ a ∈ xs, Triple pre (f a) (fun _ => pre) fail) :
    Triple pre (xs.forM f) (fun _ => pre) fail := by
  induction xs with
  | nil => exact pure fun _ hp => hp
  | cons x xs ih =>
    change Triple pre (f x >>= fun _ => xs.forM f) (fun _ => pre) fail
    exact (h x List.mem_cons_self).bind fun _ => ih fun a ha => h a (List.mem_cons_of_mem x ha)

end Triple

/-! ### Before compiling -/

/-- The configuration file of a run. -/
def configPathOf (env : Environment σ) (o : RunOptions) : String :=
  (Path.absolute env.workingDir (if o.configPath == "" then Project.fileName else o.configPath)).text

/-- A run carries out a plan, in a world that satisfies a condition, and has some results. No scripts have
been made yet. -/
structure Underway (J : World σ → Prop) (plan : Project.Plan) (rs : List Result) (p : Progress σ) :
    Prop where
  world : J p.world
  plan : p.summary.plan = plan
  results : p.summary.results = rs
  scripts : p.summary.files = []
  drift : p.summary.drift = []
  findings : ∃ before, p.summary.diagnostics = before ++ rs.flatMap (·.entry.diagnostics)

/-- Nothing has been compiled, and the world is as it was. -/
abbrev Blank (w : World σ) (plan : Project.Plan) : Progress σ → Prop :=
  Underway (· = w) plan []

/-- A run has ended before it had results, and left the world as it was. -/
def Stopped (w : World σ) (_ : RunError) (p : Progress σ) : Prop :=
  ∃ plan, Blank w plan p

/-- A plan is the one of the configuration with another output folder, if one is given, and another
dialect. -/
structure PlanOf (env : Environment σ) (o : RunOptions) (tree : FileTree) (plan : Project.Plan) :
    Prop where
  loaded : ∃ loaded warnings,
    Project.load tree env.workingDir (configPathOf env o) o.strictConfig = .ok (loaded, warnings) ∧
      plan.schemas = loaded.schemas ∧ plan.sidecar = loaded.sidecar ∧ plan.plugins = loaded.plugins ∧
      plan.cacheDir = loaded.cacheDir ∧
      plan.out = if o.out == "" then loaded.out
        else if Path.isRooted o.out then o.out
        else ((Path.ofText (Path.dirText (configPathOf env o))).join o.out).text

/-- The start of a run. -/
lemma blank_start (w : World σ) : Blank w {} ({ world := w } : Progress σ) :=
  ⟨rfl, rfl, rfl, rfl, rfl, [], rfl⟩

namespace Blank

variable {w : World σ} {plan : Project.Plan}

lemma files {fail : RunError → Progress σ → Prop} :
    Triple (Blank w plan) files (fun t p => Blank w plan p ∧ t = w.tree) fail :=
  Triple.files.mono (fun _ hp => hp) (fun _ _ h => ⟨h.1, h.2.trans (congrArg World.tree h.1.world)⟩)
    fun _ _ h => h

lemma get {fail : RunError → Progress σ → Prop} :
    Triple (Blank w plan) get (fun q p => Blank w plan p ∧ q.world = w) fail :=
  Triple.get.mono (fun _ hp => hp) (fun _ _ h => ⟨h.1, h.2 ▸ h.1.world⟩) fun _ _ h => h

lemma setup {path what : String} {value : Except String α} :
    Triple (Blank w plan) (setup path what value) (fun a p => Blank w plan p ∧ value = .ok a)
      (Stopped w) :=
  Triple.setup fun _ _ hp => ⟨plan, hp⟩

lemma throw {e : RunError} {post : α → Progress σ → Prop} :
    Triple (Blank w plan) (throw e : Step σ α) post (Stopped w) :=
  Triple.throw fun _ hp => ⟨plan, hp⟩

end Blank

lemma triple_plan (env : Environment σ) (o : RunOptions) (w : World σ) :
    Triple (Blank w {}) (plan env o (configPathOf env o))
      (fun plan p => Blank w plan p ∧ PlanOf env o w.tree plan) (Stopped w) := by
  unfold plan
  refine Blank.files.bind fun tree => Triple.of_imp ?_
  rintro rfl
  refine Blank.setup.bind fun (loaded, warnings) => Triple.of_imp fun load => ?_
  have load := mapError_eq_ok.1 load
  have finish {plan : Project.Plan} (found : PlanOf env o w.tree plan) :
      Triple (Blank w {}) (do
        report fun s => { s with plan }
        return plan : Step σ Project.Plan)
        (fun plan p => Blank w plan p ∧ PlanOf env o w.tree plan) (Stopped w) :=
    (Triple.report fun p hp => ⟨hp.world, rfl, hp.results, hp.scripts, hp.drift, hp.findings⟩).bind fun _ =>
      Triple.pure fun p hp => ⟨hp, found⟩
  have reported (diagnostics : List Diagnostic) :
      Triple (Blank w {}) (report fun s => { s with diagnostics }) (fun _ => Blank w {}) (Stopped w) :=
    Triple.report fun p hp => ⟨hp.world, hp.plan, hp.results, hp.scripts, hp.drift, _, (List.append_nil _).symm⟩
  refine (reported _).bind fun _ => ?_
  simp only
  split
  · exact finish ⟨loaded, warnings, load, rfl, rfl, rfl, rfl, rfl⟩
  · split
    · exact finish ⟨loaded, warnings, load, rfl, rfl, rfl, rfl, rfl⟩
    · exact Blank.throw.bind fun _ => finish ⟨loaded, warnings, load, rfl, rfl, rfl, rfl, rfl⟩

/-- Where the options of a run are from. The byte strings behind the sidecar's are those of plugins. -/
structure Prepared (env : Environment σ) (o : RunOptions) (tree : FileTree) (s : Setup) : Prop where
  plan : PlanOf env o tree s.plan
  overlay : ∃ rest, (s.plan.plugins = [] → rest = []) ∧
    ((s.plan.sidecar = "" ∧ s.options.overlay = .empty ∧ s.outside = rest) ∨
      ∃ bytes, tree.read env.workingDir s.plan.sidecar = .ok bytes ∧
        Overlay.readBytes s.plan.sidecar bytes = .ok s.options.overlay ∧ s.outside = bytes :: rest)
  plugins : s.plan.plugins = [] → s.options.plugins = .empty
  fingerprint : s.options.fingerprint = Digest.key env.hash s.outside

lemma triple_overlay (env : Environment σ) (plan : Project.Plan) (w : World σ) :
    Triple (Blank w plan) (overlay env plan)
      (fun r p => Blank w plan p ∧ ((plan.sidecar = "" ∧ r = (.empty, [])) ∨
        ∃ bytes, w.tree.read env.workingDir plan.sidecar = .ok bytes ∧
          Overlay.readBytes plan.sidecar bytes = .ok r.1 ∧ r.2 = [bytes])) (Stopped w) := by
  unfold overlay
  split
  · next none => exact Triple.pure fun p hp => ⟨hp, .inl ⟨by simpa using none, rfl⟩⟩
  · refine Blank.files.bind fun tree => Triple.of_imp ?_
    rintro rfl
    refine Blank.setup.bind fun bytes => Triple.of_imp fun read => ?_
    refine Blank.setup.bind fun overlay => Triple.of_imp fun parsed => ?_
    exact Triple.pure fun p hp =>
      ⟨hp, .inr ⟨bytes, mapError_eq_ok.1 read, mapError_eq_ok.1 parsed, rfl⟩⟩

lemma triple_plugins (env : Environment σ) (plan : Project.Plan) (configPath : String) (w : World σ) :
    Triple (Blank w plan) (plugins env plan configPath)
      (fun r p => Blank w plan p ∧ (plan.plugins = [] → r = (.empty, []))) (Stopped w) := by
  unfold plugins
  split
  · exact Triple.pure fun p hp => ⟨hp, fun _ => rfl⟩
  · next some =>
    refine Blank.files.bind fun tree => Triple.of_imp fun _ => ?_
    refine Blank.setup.bind fun registry => Triple.of_imp fun _ => ?_
    have one (path : String) : Triple (Blank w plan) (do
        let bytes ← setup path "read plugin"
          (((← files).read env.workingDir path).mapError (·.message))
        return [Text.bytes path, bytes] : Step σ (List (List UInt8)))
        (fun _ p => Blank w plan p ∧ True) (Stopped w) := by
      refine Blank.files.bind fun tree => Triple.of_imp fun _ => ?_
      refine Blank.setup.bind fun bytes => Triple.of_imp fun _ => ?_
      exact Triple.pure fun p hp => ⟨hp, trivial⟩
    refine (Triple.mapM fun path _ => one path).bind fun parts => Triple.of_imp fun _ => ?_
    exact Triple.pure fun p hp => ⟨hp, fun none => absurd none (by simpa using some)⟩

lemma triple_prepare (env : Environment σ) (o : RunOptions) (w : World σ) :
    Triple (Blank w {}) (prepare env o)
      (fun s p => Blank w s.plan p ∧ Prepared env o w.tree s) (Stopped w) := by
  unfold prepare
  refine (triple_plan env o w).bind fun plan => Triple.of_imp fun planned => ?_
  refine Blank.setup.bind fun dialect => Triple.of_imp fun _ => ?_
  refine (triple_overlay env plan w).bind fun (overlay, bytes) => Triple.of_imp fun laid => ?_
  refine (triple_plugins env plan (configPathOf env o) w).bind fun (registry, rest) =>
    Triple.of_imp fun loaded => ?_
  refine Triple.pure fun p hp => ⟨hp, planned, ⟨rest, ?_, ?_⟩, ?_, rfl⟩
  · exact fun none => congrArg Prod.snd (loaded none)
  · rcases laid with ⟨none, both⟩ | ⟨bytes, read, parsed, rfl⟩
    · cases both
      exact .inl ⟨none, rfl, rfl⟩
    · exact .inr ⟨bytes, read, parsed, rfl⟩
  · exact fun none => congrArg Prod.fst (loaded none)

/-! ### Compiling -/

/-- Where the results of a run are kept. -/
def keepingOf (env : Environment σ) (o : RunOptions) (plan : Project.Plan) (w : World σ) : Keeping :=
  if o.noCache then .nowhere
  else if w.store.isSome then .memory
  else if plan.cacheDir == "" then .nowhere
  else .folder ⟨Path.ofText plan.cacheDir, env.workingDir⟩

lemma triple_keeping (env : Environment σ) (o : RunOptions) (plan : Project.Plan) (configPath : String)
    (w : World σ) :
    Triple (Blank w plan) (keeping env o plan configPath)
      (fun k p => (∃ tree, FileTree.Extends (fun _ => False) w.tree tree ∧ Blank { w with tree } plan p) ∧
        k = keepingOf env o plan w) (Stopped w) := by
  have same {k other : Keeping} (h : k = other) (p : Progress σ) (hp : Blank w plan p) :
      (∃ tree, FileTree.Extends (fun _ => False) w.tree tree ∧ Blank { w with tree } plan p) ∧
        k = other :=
    ⟨⟨w.tree, FileTree.Extends.refl _ _, hp⟩, h⟩
  unfold keeping keepingOf
  split
  · exact Triple.pure (same rfl)
  refine Blank.get.bind fun q => Triple.of_imp fun here => ?_
  rw [here]
  split
  · exact Triple.pure (same rfl)
  split
  · exact Triple.pure (same rfl)
  refine Blank.files.bind fun tree => Triple.of_imp ?_
  rintro rfl
  refine Blank.setup.bind fun tree => Triple.of_imp fun created => ?_
  have folders := Cache.Folder.extends_of_ensure (mapError_eq_ok.1 created)
  refine Triple.bind (Triple.modify fun p hp => ?_) fun _ => Triple.pure fun p hp => ⟨hp, rfl⟩
  refine ⟨tree, folders, ?_, hp.plan, hp.results, hp.scripts, hp.drift, hp.findings⟩
  rw [hp.world]

lemma extends_compileBytes (env : Environment σ) (k : Keeping) (o : CompileOptions) (path : String)
    (src : List UInt8) (w : World σ) :
    FileTree.Extends k.Holds w.tree (compileBytes env k o path src w).2.tree := by
  rw [compileBytes]
  cases k.get? w (Compilation.key env.hash path src o) with
  | some entry => exact FileTree.Extends.refl _ _
  | none => exact Keeping.extends_put _ _ _ _

lemma ends_compileFile (env : Environment σ) (k : Keeping) (o : CompileOptions) (path : String)
    (p : Progress σ) : ∃ log, ends (compileFile env k o path) p =
      match p.world.tree.read env.workingDir path with
      | .error e => (.ok (unreadable path e), p)
      | .ok src =>
        if env.canceled then (.error .canceled, p)
        else (.ok (compileBytes env k o path src p.world).1,
          { p with world := (compileBytes env k o path src p.world).2, log }) := by
  unfold compileFile
  rw [ends_bind, ends_files]
  simp only
  cases p.world.tree.read env.workingDir path with
  | error e => exact ⟨[], rfl⟩
  | ok src =>
    simp only
    split
    · exact ⟨[], rfl⟩
    · exact ⟨_, rfl⟩

/-! ### Scripts -/

lemma mem_scripts {plan : Project.Plan} {rs : List Result} {f : File} :
    f ∈ scripts plan rs ↔ ∃ r ∈ rs, r.entry.generated = true ∧
      f = ⟨scriptPath plan r.path, r.path, Text.bytes r.entry.sql⟩ := by
  rw [scripts, List.mem_map]
  simp only [List.mem_filter, and_assoc, eq_comm (b := f)]
  rfl

lemma isScript_of_mem_scripts {plan : Project.Plan} {rs : List Result} {f : File}
    (h : f ∈ scripts plan rs) : IsScript f.path := by
  obtain ⟨r, -, -, rfl⟩ := mem_scripts.1 h
  exact isScript_outputPath _ _ _

/-- What writing a script does: nothing if the file in its place has the content already, and else what the
writer does. -/
structure Wrote (env : Environment σ) (file : File) (p : Progress σ)
    (r : Except RunError Unit × Progress σ) : Prop where
  summary : ∃ written, r.2.summary = { p.summary with written }
  world : (r.2.world = p.world ∧
      (r.1 = .ok () → hasContent env.workingDir p.world.tree file = .ok true)) ∨
    (r.2.world = ((env.writer file.path file.content).run.run p.world).2 ∧
      (r.1 = .ok () → ((env.writer file.path file.content).run.run p.world).1 = .ok ()))

lemma wrote_writeFile (env : Environment σ) (file : File) (p : Progress σ) :
    Wrote env file p (ends (writeFile env file) p) := by
  have same : p.summary = { p.summary with written := p.summary.written } := rfl
  unfold writeFile
  split
  · exact ⟨⟨_, same⟩, .inl ⟨rfl, nofun⟩⟩
  rw [ends_bind, ends_files]
  simp only
  cases content : hasContent env.workingDir p.world.tree file with
  | error e => exact ⟨⟨_, same⟩, .inl ⟨rfl, nofun⟩⟩
  | ok found =>
    cases found with
    | true => exact ⟨⟨_, same⟩, .inl ⟨rfl, fun _ => content⟩⟩
    | false =>
      simp only
      rw [ends_bind, ends_act]
      rcases ran : (env.writer file.path file.content).run.run p.world with ⟨message | _, world⟩
      · exact ⟨⟨_, same⟩, .inr ⟨by rw [ran], nofun⟩⟩
      · exact ⟨⟨_, rfl⟩, .inr ⟨by rw [ran]; rfl, fun _ => by rw [ran]⟩⟩

/-! ### Whole runs -/

section Whole
variable {env : Environment σ} {o : RunOptions} {w : World σ}

lemma run_of_ok {p : Progress σ} (h : ends (steps env o) { world := w } = (.ok (), p)) :
    run env o w = ⟨p.summary, none, p.log, p.world⟩ := by
  unfold ends at h
  unfold run
  rw [h]

lemma run_of_error {e : RunError} {p : Progress σ}
    (h : ends (steps env o) { world := w } = (.error e, p)) :
    run env o w = ⟨p.summary, some e, p.log, p.world⟩ := by
  unfold ends at h
  unfold run
  rw [h]

end Whole

end ErdSql.Generation
