import ErdSql.Proofs.Rounds

/-!
# Scripts on disk

Scripts are written one after another, so a path holds the last script that has it. Comparing the scripts
with what their paths hold then finds the drift of the others from that one.

* `Generation.contentAfter`: what a path holds after scripts are written.
* `Generation.written_of_forM`: what is on disk after scripts are written.
* `Generation.ends_compareFiles`, `Generation.overwritten`: what comparing them finds.
-/

namespace ErdSql

namespace Path

/-- The folder of a rooted path is rooted. -/
lemma isRooted_dirText {s : String} (h : isRooted s = true) : isRooted (dirText s) = true := by
  rw [isRooted, Text.startsWith, List.isPrefixOf_iff_prefix] at h
  obtain ⟨rest, whole⟩ := h
  have kept : Text.dropWhileEnd (· != '/') s.toList = '/' :: Text.dropWhileEnd (· != '/') rest := by
    rw [← whole]
    exact Text.dropWhileEnd_append_cons (p := (· != '/')) (y := '/') (by decide) [] rest
  rw [dirText, kept]
  refine isRooted_text ?_
  rw [rooted_ofText, isRooted, Text.startsWith, String.toList_ofList, String.toList_ofList]
  rfl

end Path

namespace Generation

variable {σ : Type} {env : Environment σ} {o : RunOptions} {w : World σ}

/-! ### Contents of paths -/

/-- What a path holds that held some content before scripts are written one after another. -/
def contentAfter (fs : List File) (path : String) (before : List UInt8) : List UInt8 :=
  fs.foldl (fun held f => if f.path = path then f.content else held) before

lemma contentAfter_of_notMem {fs : List File} {path : String} (h : path ∉ fs.map File.path)
    (before : List UInt8) : contentAfter fs path before = before := by
  induction fs generalizing before with
  | nil => rfl
  | cons f fs ih =>
    rw [List.map_cons, List.mem_cons, not_or] at h
    rw [contentAfter, List.foldl_cons, if_neg (Ne.symm h.1)]
    exact ih h.2 before

/-- A script that is written takes the place of what was there before. -/
lemma contentAfter_of_mem {fs : List File} {path : String} (h : path ∈ fs.map File.path)
    (before other : List UInt8) : contentAfter fs path before = contentAfter fs path other := by
  induction fs generalizing before other with
  | nil => cases h
  | cons f fs ih =>
    rw [contentAfter, contentAfter, List.foldl_cons, List.foldl_cons]
    by_cases own : f.path = path
    · rw [if_pos own, if_pos own]
    · rw [if_neg own, if_neg own]
      exact ih ((List.mem_cons.1 h).resolve_left (Ne.symm own)) before other

/-- The last script of a path stays. -/
lemma contentAfter_append_cons (front : List File) (f : File) {behind : List File}
    (last : f.path ∉ behind.map File.path) (before : List UInt8) :
    contentAfter (front ++ f :: behind) f.path before = f.content := by
  rw [contentAfter, List.foldl_append, List.foldl_cons, if_pos rfl]
  exact contentAfter_of_notMem last _

/-- Scripts of different paths all stay. -/
lemma contentAfter_of_nodup {fs : List File} (apart : (fs.map File.path).Nodup) {f : File} (hf : f ∈ fs)
    (before : List UInt8) : contentAfter fs f.path before = f.content := by
  obtain ⟨front, behind, rfl⟩ := List.append_of_mem hf
  rw [List.map_append, List.map_cons] at apart
  exact contentAfter_append_cons front f (List.nodup_cons.1 apart.of_append_right).1 before

/-! ### Writing -/

/-- The place of a script. -/
def File.place (f : File) : Place := (Path.ofText f.path).parts

/-- A script has a rooted path in its shortest form. -/
structure File.Rooted (f : File) : Prop where
  path : f.path = (Path.mk true f.place).text
  names : ∀ s ∈ f.place, Path.IsName s

lemma File.Rooted.place_of_locate {f : File} (h : f.Rooted) {t : FileTree} {workingDir : Path}
    {place : Place} (found : t.locate workingDir f.path = .ok place) : place = f.place := by
  rw [h.path] at found
  exact FileTree.locate_text (p := Path.mk true f.place) rfl h.names found

/-- A script that has been written is in its place, and nothing else has changed. -/
lemma written_of_writeFile (writer : env.writer = Writer.toFiles env.workingDir) {f : File}
    (rooted : f.Rooted) {p q : Progress σ} (h : ends (writeFile env f) p = (.ok (), q)) :
    q.world.tree.read env.workingDir f.path = .ok f.content ∧
      FileTree.Extends (· = f.place) p.world.tree q.world.tree := by
  have wrote := (wrote_writeFile env f p).world
  rw [h] at wrote
  rcases wrote with ⟨world, content⟩ | ⟨world, done⟩
  · rw [show q.world = p.world from world]
    refine ⟨?_, FileTree.Extends.refl _ _⟩
    have content := content rfl
    rw [hasContent] at content
    split at content
    · split at content <;> cases content
    · next existing found =>
      rw [found, show existing = f.content by simpa using content]
  · rw [writer, Writer.run_toFiles] at world done
    obtain ⟨made, folders, ⟨message, written⟩ | ⟨place, target, written⟩⟩ :=
      writeTo_cases env.workingDir p.world.tree f.path f.content
    · rw [written] at done
      cases done rfl
    · obtain ⟨found, free⟩ := FileTree.target_eq_ok target
      have file := FileTree.extends_setFile free f.content
      rw [written] at world
      rw [show q.world.tree = made.setFile place f.content from congrArg World.tree world,
        FileTree.read_eq_ok_iff, ← rooted.place_of_locate found]
      exact ⟨⟨place, file.locate found, FileTree.node?_setFile_self free f.content⟩,
        (folders.mono fun _ h => h.elim).trans file⟩

/-- After scripts have been written, each of their paths holds the last script that has it. -/
lemma written_of_forM (writer : env.writer = Writer.toFiles env.workingDir) {fs : List File}
    (rooted : ∀ f ∈ fs, f.Rooted) {p q : Progress σ}
    (h : ends (fs.forM (writeFile env)) p = (.ok (), q)) :
    (∀ f ∈ fs, q.world.tree.read env.workingDir f.path = .ok (contentAfter fs f.path f.content)) ∧
      FileTree.Extends (· ∈ fs.map File.place) p.world.tree q.world.tree := by
  induction fs generalizing p with
  | nil =>
    cases h
    exact ⟨nofun, FileTree.Extends.refl _ _⟩
  | cons f fs ih =>
    obtain ⟨_, r, first, rest⟩ := exists_of_ends_bind h
    have own := rooted f List.mem_cons_self
    obtain ⟨read, step⟩ := written_of_writeFile writer own first
    obtain ⟨reads, steps⟩ := ih (fun g hg => rooted g (List.mem_cons_of_mem f hg)) rest
    have again {g : File} (hg : g ∈ fs) (before : List UInt8) :
        q.world.tree.read env.workingDir g.path = .ok (contentAfter fs g.path before) := by
      rw [reads g hg, contentAfter_of_mem (List.mem_map_of_mem hg)]
    constructor
    · rintro g (_ | ⟨_, hg⟩)
      · rw [contentAfter, List.foldl_cons, if_pos rfl]
        by_cases later : f.path ∈ fs.map File.path
        · obtain ⟨g, hg, same⟩ := List.mem_map.1 later
          rw [← same]
          exact again hg f.content
        · -- the scripts behind this one have other places
          have untouched : ∀ place, r.world.tree.locate env.workingDir f.path = .ok place →
              place ∉ fs.map File.place := by
            intro place found mem
            obtain ⟨g, hg, same⟩ := List.mem_map.1 mem
            refine later (List.mem_map.2 ⟨g, hg, ?_⟩)
            rw [(rooted g (List.mem_cons_of_mem f hg)).path, same, own.place_of_locate found, ← own.path]
          exact (steps.read untouched read).trans (congrArg _ (contentAfter_of_notMem later _).symm)
      · exact again hg _
    · rw [List.map_cons]
      exact (step.mono fun place h => by simp [h]).trans (steps.mono fun place h => by simp [h])

/-! ### Comparing -/

/-- The drift of a script from the content in its place. -/
def driftFrom (hash : List UInt8 → List UInt8) (existing : List UInt8) (f : File) : Option Drift :=
  let c := Script.compare hash existing f.content
  if c.drift then some ⟨f.path, false, c.changes⟩ else none

/-- A script does not drift from itself. -/
lemma driftFrom_self (hash : List UInt8 → List UInt8) (f : File) : driftFrom hash f.content f = none := by
  simp [driftFrom, Script.compare, Script.Comparison.drift]

/-- What scripts are compared to that have something in their places. -/
lemma ends_compareFiles (env : Environment σ) {fs : List File} {held : File → List UInt8} {p : Progress σ}
    (reads : ∀ f ∈ fs, p.world.tree.read env.workingDir f.path = .ok (held f)) :
    let drift := fs.filterMap fun f => driftFrom env.hash (held f) f
    ends (compareFiles env fs) p =
      (if drift.isEmpty then .ok () else .error (.drift (drift.map (·.path))),
        { p with summary := { p.summary with drift } }) := by
  have all : fs.mapM (drift? env p.world.tree) =
      .ok (fs.map fun f => driftFrom env.hash (held f) f) := by
    induction fs with
    | nil => rfl
    | cons f fs ih =>
      have first : drift? env p.world.tree f = .ok (driftFrom env.hash (held f) f) := by
        rw [drift?, reads f List.mem_cons_self]
        rfl
      rw [List.mapM_cons, first, ih fun g hg => reads g (List.mem_cons_of_mem f hg)]
      rfl
  intro drift
  have found : (fs.map fun f => driftFrom env.hash (held f) f).filterMap id = drift := by
    rw [List.filterMap_map]
    rfl
  unfold compareFiles
  rw [ends_bind, ends_files]
  simp only [all, found]
  rw [ends_bind, ends_report]
  cases drift <;> rfl

/-- The drift that is found after scripts have been written: each script is compared to the last one that
has its path. -/
def overwritten (hash : List UInt8 → List UInt8) (fs : List File) : List Drift :=
  fs.filterMap fun f => driftFrom hash (contentAfter fs f.path f.content) f

/-- Scripts of different paths do not drift. -/
lemma overwritten_of_nodup (hash : List UInt8 → List UInt8) {fs : List File}
    (apart : (fs.map File.path).Nodup) : overwritten hash fs = [] := by
  refine List.filterMap_eq_nil_iff.2 fun f hf => ?_
  rw [contentAfter_of_nodup apart hf, driftFrom_self]

/-- Scripts that are delivered as files. -/
lemma exists_of_deliver (quiet : env.hooks = {}) (writes : o.check = false ∧ o.dryRun = false)
    {failOnWarnings : Bool} {fs : List File} {p q : Progress σ}
    (h : ends (deliver env o failOnWarnings fs) p = (.ok (), q)) :
    failure? p.summary.diagnostics failOnWarnings = none ∧
      (∃ written, q.summary = { p.summary with files := fs, written }) ∧
      ∃ p', p'.world = p.world ∧ ends (fs.forM (writeFile env)) p' = (.ok (), q) := by
  unfold deliver at h
  rw [quiet, writes.1, writes.2, ends_bind, ends_report] at h
  simp only at h
  rw [ends_bind, ends_get] at h
  simp only at h
  split at h
  · cases h
  next none =>
  simp only [Bool.false_eq_true, if_false, Bool.not_false, if_true] at h
  obtain ⟨_, p', began, h⟩ := exists_of_ends_bind h
  cases began
  obtain ⟨_, q', wrote, h⟩ := exists_of_ends_bind h
  cases h
  refine ⟨none, ?_, _, ?_, wrote⟩
  rotate_left
  · rfl
  -- writing changes the list of written paths only
  have same : Triple (fun p' : Progress σ => ∃ written, p'.summary = { p.summary with files := fs, written })
      (fs.forM (writeFile env))
      (fun _ p' => ∃ written, p'.summary = { p.summary with files := fs, written })
      (fun _ _ => True) := by
    refine Triple.forM fun f _ => ⟨?_, fun _ _ => trivial⟩
    rintro p' _ q' ⟨before, hp⟩ h
    obtain ⟨written, hq⟩ := (wrote_writeFile env f p').summary
    rw [h] at hq
    exact ⟨written, by rw [hq, hp]⟩
  exact same.ok ⟨_, rfl⟩ wrote

/-- The output folder of a run is rooted. -/
lemma PlanOf.isRooted_out {plan : Project.Plan} (h : PlanOf env o w.tree plan)
    (rooted : env.workingDir.rooted = true) : Path.isRooted plan.out = true := by
  have config (s : String) :
      Path.isRooted ((Path.ofText (Path.dirText (configPathOf env o))).join s).text = true := by
    refine Path.isRooted_text ?_
    rw [Path.rooted_join, Path.rooted_ofText]
    exact Path.isRooted_dirText (Path.isRooted_text (Project.rooted_absolute rooted _))
  obtain ⟨loaded, warnings, load, -, -, -, -, out⟩ := h.loaded
  rw [out]
  split
  · obtain ⟨_, _, _, -, -, planned⟩ := Project.exists_of_load load
    have below := planned.out
    rw [Project.folderBelow] at below
    split at below
    · cases below
    · split at below
      · cases below
      · rw [← Except.ok.inj below]
        exact config _
  · split
    · next given => exact given
    · exact config _

lemma PlanOf.placed {plan : Project.Plan} (h : PlanOf env o w.tree plan)
    (formed : w.tree.WellFormed) (rooted : env.workingDir.rooted = true) : plan.Placed w.tree := by
  obtain ⟨loaded, warnings, load, schemas, -⟩ := h.loaded
  have placed := Project.placed_of_load formed rooted load
  rwa [Project.Plan.Placed, ← schemas] at placed

/-- The scripts of a plan are rooted. -/
lemma rooted_of_mem_scripts {plan : Project.Plan} (formed : w.tree.WellFormed)
    (placed : plan.Placed w.tree) (out : Path.isRooted plan.out = true) {rs : List Result}
    (paths : rs.map Result.path = plan.schemas) {f : File} (hf : f ∈ scripts plan rs) : f.Rooted := by
  obtain ⟨r, hr, -, rfl⟩ := mem_scripts.1 hf
  have source : r.path ∈ plan.schemas := paths ▸ List.mem_map_of_mem hr
  obtain ⟨root, all⟩ := exists_scriptPath formed placed
  obtain ⟨dirs, name, names, -, script⟩ := all r.path source
  rw [out] at script
  have parts : ∀ s ∈ (Path.ofText plan.out).parts ++
      (dirs ++ [Path.withoutExtension name ++ scriptExtension]), Path.IsName s := by
    intro s hs
    rw [List.mem_append, List.mem_append, List.mem_singleton] at hs
    rcases hs with hs | hs | rfl
    · exact Path.isName_of_mem_ofText out s hs
    · exact names s (by simp [hs])
    · exact isName_script (names name (by simp)).slash
  have place : File.place ⟨scriptPath plan r.path, r.path, Text.bytes r.entry.sql⟩ =
      (Path.ofText plan.out).parts ++ (dirs ++ [Path.withoutExtension name ++ scriptExtension]) := by
    rw [File.place, script, Path.ofText_text rfl parts]
  exact ⟨by rw [place, script], by rwa [place]⟩

lemma ends_deliver_of_check (check : o.check = true) (failOnWarnings : Bool) (fs : List File)
    (p : Progress σ) : ends (deliver env o failOnWarnings fs) p =
      match failure? p.summary.diagnostics failOnWarnings with
      | some e => (.error e, { p with summary := { p.summary with files := fs } })
      | none => ends (compareFiles env fs) { p with summary := { p.summary with files := fs } } := by
  unfold deliver
  rw [ends_bind, ends_report]
  simp only
  rw [ends_bind, ends_get]
  simp only
  cases failure? p.summary.diagnostics failOnWarnings with
  | some e => rfl
  | none => simp only [check, if_true]

lemma hasErrors_of_failure? {diagnostics : List Diagnostic} {failOnWarnings : Bool}
    (h : failure? diagnostics failOnWarnings = none) : Diagnostic.hasErrors diagnostics = false := by
  rw [failure?] at h
  split at h
  · next none =>
    rw [Diagnostic.hasErrors, List.any_eq_false]
    intro d hd isError
    have kept : d ∈ diagnostics.filter fun d => d.isError || (failOnWarnings && d.isWarning) :=
      List.mem_filter.2 ⟨hd, by simp [isError]⟩
    rw [none] at kept
    cases kept
  · cases h

end Generation

end ErdSql
