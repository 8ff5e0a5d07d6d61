import ErdSql.Project
import ErdSql.Proofs.FileTrees

/-!
# The files of a plan

Whatever patterns a configuration has, the documents of its plan are files of the tree, and the script of
a document can be told from the document up to its extension.

* `FileTree.WellFormed`: what holds of the places of a tree.
* `FileSet.Source.node?_of_mem_collect`: patterns select files.
* `Project.placed_of_load`: the documents of a plan are texts of the places of files.
* `Generation.scriptPath_eq_iff`: when two documents of a plan have one script.
-/

namespace ErdSql

/-- Places have names for parts, and what is on the way to a place is a folder. -/
structure FileTree.WellFormed (t : FileTree) : Prop where
  named : ∀ p ∈ t.places, ∀ s ∈ p, Path.IsName s
  nested : ∀ p ∈ t.places, ∀ q, q <+: p → q ≠ p → t.node? q = some .folder

namespace FileTree

variable {t : FileTree} {p q : Place} {bytes : List UInt8}

/-- The conditions on a tree as tests of its places. -/
lemma WellFormed.of_inits
    (names : ∀ p ∈ t.places, ∀ s ∈ p, s ≠ "" ∧ s ≠ "." ∧ s ≠ ".." ∧ '/' ∉ s.toList)
    (folders : ∀ p ∈ t.places, ∀ q ∈ p.inits, q ≠ p → q = [] ∨ q ∈ t.folders) : t.WellFormed where
  named p hp s hs := by
    obtain ⟨empty, here, up, slash⟩ := names p hp s hs
    exact ⟨empty, here, up, slash⟩
  nested p hp q le ne := node?_eq_folder_iff.2 (folders p hp q ((List.mem_inits q p).2 le) ne)

lemma mem_places_of_file (node : t.node? p = some (.file bytes)) : p ∈ t.places := by
  obtain ⟨before, behind, whole, -⟩ := List.lookup_eq_some_iff.1 (node?_eq_file_iff.1 node).2.2
  refine List.mem_append_right _ (List.mem_map.2 ⟨(p, bytes), ?_, rfl⟩)
  rw [whole]
  exact List.mem_append_right _ List.mem_cons_self

lemma WellFormed.isName_of_file (h : t.WellFormed) (node : t.node? p = some (.file bytes)) :
    ∀ s ∈ p, Path.IsName s :=
  h.named p (mem_places_of_file node)

/-- A file is not on the way to another one. -/
lemma WellFormed.eq_of_prefix (h : t.WellFormed) {other : List UInt8}
    (hp : t.node? p = some (.file bytes)) (hq : t.node? q = some (.file other)) (le : p <+: q) :
    p = q := by
  by_contra ne
  have folder := h.nested q (mem_places_of_file hq) p le ne
  rw [hp] at folder
  cases folder

end FileTree

/-! ### Selected files -/

namespace FileSet

namespace Source

variable {s : Source} {p : Place}

/-- A selected place stands for files. -/
lemma node?_of_mem_expand {q : Place} (h : q ∈ s.expand p) :
    ∃ bytes, s.node? q = some (.file bytes) := by
  rw [expand] at h
  split at h
  · next bytes node =>
    rw [List.mem_singleton.1 h]
    exact ⟨bytes, node⟩
  · obtain ⟨place, found, rfl⟩ := List.mem_map.1 h
    obtain ⟨below, plain⟩ := List.mem_filter.1 found
    obtain ⟨-, start⟩ := List.mem_filter.1 below
    rw [Bool.and_eq_true, List.isPrefixOf_iff_prefix] at start
    obtain ⟨⟨rest, rfl⟩, there⟩ := start
    rw [List.append_assoc] at plain there
    rw [node?, List.append_assoc, List.drop_left]
    cases node : s.tree.node? (s.base ++ (p ++ rest)) with
    | none => simp [node] at there
    | some n =>
      cases n with
      | file bytes => exact ⟨bytes, rfl⟩
      | folder => simp [FileTree.isFolder, node] at plain
  · cases h

/-- Patterns select files, and nothing else. -/
lemma node?_of_mem_collect {patterns missing : List String} {files : List Place}
    (h : s.collect patterns = .ok (files, missing)) (hp : p ∈ files) :
    ∃ bytes, s.node? p = some (.file bytes) := by
  induction patterns generalizing files missing with
  | nil =>
    cases h
    cases hp
  | cons pattern patterns ih =>
    rw [collect] at h
    split at h
    · cases h
    · next selected _ =>
      obtain ⟨⟨rest, unmatched⟩, more, done⟩ := exists_of_bind_eq_ok h
      cases done
      rcases List.mem_append.1 hp with hp | hp
      · obtain ⟨q, -, hq⟩ := List.mem_flatMap.1 hp
        exact node?_of_mem_expand hq
      · exact ih more hp

end Source

lemma mem_of_mem_compact {xs : List String} {x : String} (h : x ∈ compact xs) : x ∈ xs := by
  fun_induction compact xs with
  | case1 a b rest same ih => exact List.mem_cons_of_mem a (ih h)
  | case2 a b rest differ ih =>
    rcases List.mem_cons.1 h with rfl | h
    · exact List.mem_cons_self
    · exact List.mem_cons_of_mem a (ih h)
  | case3 => exact h

/-- The files that patterns resolve to. -/
lemma exists_of_mem_resolve {s : Source} {patterns names : List String}
    (h : resolve (some s) patterns = .ok names) {name : String} (hn : name ∈ names) :
    ∃ p bytes, name = placeText p ∧ s.node? p = some (.file bytes) := by
  simp only [resolve] at h
  split at h
  · cases h
  · obtain ⟨⟨files, missing⟩, collected, h⟩ := exists_of_bind_eq_ok h
    split at h
    · cases h
      have hn := (List.mergeSort_perm _ _).mem_iff.1 (mem_of_mem_compact hn)
      obtain ⟨p, hp, rfl⟩ := List.mem_map.1 hn
      obtain ⟨bytes, node⟩ := Source.node?_of_mem_collect collected hp
      exact ⟨p, bytes, rfl, node⟩
    · cases h

end FileSet

namespace Project

/-- A file that patterns select below a rooted base. -/
lemma exists_of_mem_filesBelow {tree : FileTree} (formed : tree.WellFormed) {base : Path}
    (rooted : base.rooted = true) {extension : String} {patterns files : List String}
    (h : filesBelow tree base extension patterns = .ok files) {file : String} (hf : file ∈ files) :
    ∃ rel bytes, file = (Path.mk true (base.parts ++ rel)).text ∧
      tree.node? (base.parts ++ rel) = some (.file bytes) := by
  rw [filesBelow] at h
  split at h
  · next names resolved =>
    cases h
    obtain ⟨name, hn, rfl⟩ := List.mem_map.1 hf
    obtain ⟨p, bytes, rfl, node⟩ := FileSet.exists_of_mem_resolve resolved hn
    have names : ∀ s ∈ p, Path.IsName s := fun s hs =>
      formed.isName_of_file node s (List.mem_append_right _ hs)
    have place : FileSet.placeText p = Text.join "/" p ∨ p = [] := by
      rw [FileSet.placeText]
      cases p <;> simp
    refine ⟨p, bytes, ?_, node⟩
    rcases place with place | rfl
    · rw [place, Path.join_of_isName names, rooted]
    · rw [List.append_nil, ← rooted]
      simp [FileSet.placeText, Path.join, Text.splitAt, Text.splitList, Path.step]
  · cases h
  · cases h

/-- What a plan is made from. -/
structure Planned (tree : FileTree) (dir base : Path) (s : Settings) (p : Plan) : Prop where
  schemas : filesBelow tree base ".erd" s.schemas = .ok p.schemas
  out : folderBelow dir s.out = .ok p.out
  sidecar : p.sidecar = "" ∨ fileBelow tree base s.sidecar = .ok p.sidecar
  plugins : p.plugins = [] ∨ filesBelow tree base pluginExtension s.plugins = .ok p.plugins
  cacheDir : p.cacheDir = "" ∨ folderBelow dir s.cacheDir = .ok p.cacheDir

lemma planned_of_plan {tree : FileTree} {dir base : Path} {s : Settings} {p : Plan}
    (h : plan tree dir base s = .ok p) : Planned tree dir base s p := by
  rw [plan] at h
  obtain ⟨schemas, hschemas, h⟩ := exists_of_bind_eq_ok h
  obtain ⟨-, h⟩ := of_guard_eq_ok h
  obtain ⟨out, hout, h⟩ := exists_of_bind_eq_ok h
  obtain ⟨dialect, -, h⟩ := exists_of_bind_eq_ok h
  obtain ⟨sidecar, hsidecar, h⟩ := exists_of_ite_bind_eq_ok h
  obtain ⟨plugins, hplugins, h⟩ := exists_of_ite_bind_eq_ok h
  obtain ⟨cacheDir, hcacheDir, h⟩ := exists_of_ite_bind_eq_ok h
  cases h
  refine ⟨mapError_eq_ok.1 hschemas, mapError_eq_ok.1 hout, ?_, ?_, ?_⟩
  · split at hsidecar
    · cases hsidecar
      exact .inl rfl
    · exact .inr (mapError_eq_ok.1 hsidecar)
  · split at hplugins
    · cases hplugins
      exact .inl rfl
    · exact .inr (mapError_eq_ok.1 hplugins)
  · split at hcacheDir
    · cases hcacheDir
      exact .inl rfl
    · exact .inr (mapError_eq_ok.1 hcacheDir)

lemma rooted_absolute {workingDir : Path} (h : workingDir.rooted = true) (s : String) :
    (Path.absolute workingDir s).rooted = true := by
  rw [Path.absolute]
  split
  · next rooted => exact rooted
  · exact h

/-- A plan that is loaded is made from the settings in the file. -/
lemma exists_of_load {tree : FileTree} {workingDir : Path} {path : String} {strict : Bool} {p : Plan}
    {warnings : List String} (h : load tree workingDir path strict = .ok (p, warnings)) :
    let dir := Path.ofText (Path.dirText path)
    ∃ bytes settings unknown, tree.read workingDir (Path.ofText path).text = .ok bytes ∧
      Settings.readBytes bytes = .ok (settings, unknown) ∧
      Planned tree dir (Path.absolute workingDir dir.text) settings p := by
  intro dir
  unfold load at h
  split at h
  · next bytes read =>
    obtain ⟨_, ⟨⟩, h⟩ := exists_of_bind_eq_ok h
    simp only at h
    split at h
    · next settings decoded =>
      obtain ⟨_, ⟨⟩, h⟩ := exists_of_bind_eq_ok h
      obtain ⟨-, h⟩ := of_guard_eq_ok h
      split at h
      · next planned =>
        cases h
        exact ⟨bytes, settings.1, settings.2, read, decoded, planned_of_plan planned⟩
      · cases h
    · cases h
  · cases h

/-- A project loads if its settings, of which none is unknown, make a plan. -/
lemma load_eq_ok {tree : FileTree} {workingDir : Path} {path : String} {strict : Bool} {p : Plan}
    {bytes : List UInt8} {settings : Settings}
    (read : tree.read workingDir (Path.ofText path).text = .ok bytes)
    (decoded : Settings.readBytes bytes = .ok (settings, []))
    (planned : plan tree (Path.ofText (Path.dirText path))
      (Path.absolute workingDir (Path.ofText (Path.dirText path)).text) settings = .ok p) :
    load tree workingDir path strict = .ok (p, []) := by
  have none : FileSet.compact (Text.sortTexts []) = [] := by
    rw [Text.sortTexts, List.mergeSort_nil]
    rfl
  unfold load
  simp only [read, bind, Except.bind, pure, Except.pure, decoded, none, planned, List.isEmpty_nil,
    Bool.not_true, Bool.and_false, Bool.false_eq_true, if_false, if_true]

/-- The documents of a plan are texts of the places of files. -/
def Plan.Placed (tree : FileTree) (p : Plan) : Prop :=
  ∀ file ∈ p.schemas,
    ∃ place bytes, file = (Path.mk true place).text ∧ tree.node? place = some (.file bytes)

lemma placed_of_load {tree : FileTree} (formed : tree.WellFormed) {workingDir : Path}
    (rooted : workingDir.rooted = true) {path : String} {strict : Bool} {p : Plan}
    {warnings : List String} (h : load tree workingDir path strict = .ok (p, warnings)) :
    p.Placed tree := by
  intro file hf
  obtain ⟨_, _, _, -, -, planned⟩ := exists_of_load h
  obtain ⟨rel, bytes, text, node⟩ :=
    exists_of_mem_filesBelow formed (rooted_absolute rooted _) planned.schemas hf
  exact ⟨_, bytes, text, node⟩

end Project

namespace Generation

open ErdSql.Path (IsName)

/-! ### Scripts of a plan -/

/-- The path of the script of a document. -/
def scriptPath (plan : Project.Plan) (source : String) : String :=
  (outputPath (Path.ofText plan.out) (commonDir (plan.schemas.map Path.ofText))
    (Path.ofText source)).text

variable {tree : FileTree} {plan : Project.Plan}

/-- Where the documents of a plan lie below their common folder, and where their scripts lie. -/
lemma exists_scriptPath (formed : tree.WellFormed) (placed : plan.Placed tree) :
    ∃ root, ∀ source ∈ plan.schemas, ∃ dirs name,
      (∀ s ∈ root ++ (dirs ++ [name]), IsName s) ∧
        source = (Path.mk true (root ++ (dirs ++ [name]))).text ∧
        scriptPath plan source = (Path.mk (Path.isRooted plan.out) ((Path.ofText plan.out).parts ++
          (dirs ++ [Path.withoutExtension name ++ scriptExtension]))).text := by
  have path {source : String} (hs : source ∈ plan.schemas) :
      ∃ place bytes, source = (Path.mk true place).text ∧ Path.ofText source = ⟨true, place⟩ ∧
        tree.node? place = some (.file bytes) := by
    obtain ⟨place, bytes, rfl, node⟩ := placed source hs
    exact ⟨place, bytes, rfl, Path.ofText_text rfl (formed.isName_of_file node), node⟩
  have file {p : Path} (hp : p ∈ plan.schemas.map Path.ofText) :
      p.rooted = true ∧ ∃ bytes, tree.node? p.parts = some (.file bytes) := by
    obtain ⟨source, hs, rfl⟩ := List.mem_map.1 hp
    obtain ⟨place, bytes, -, eq, node⟩ := path hs
    rw [eq]
    exact ⟨rfl, bytes, node⟩
  have rooted : ∀ p ∈ plan.schemas.map Path.ofText, p.rooted = true := fun p hp => (file hp).1
  have named : ∀ p ∈ plan.schemas.map Path.ofText, ∀ s ∈ p.parts, IsName s := fun p hp => by
    obtain ⟨-, _, node⟩ := file hp
    exact formed.isName_of_file node
  refine ⟨(commonDir (plan.schemas.map Path.ofText)).parts, fun source hs => ?_⟩
  obtain ⟨place, bytes, text, eq, node⟩ := path hs
  obtain ⟨below, ne, whole⟩ := commonDir_prefix rooted named
    (fun p hp q hq le => by
      obtain ⟨-, _, hp⟩ := file hp
      obtain ⟨-, _, hq⟩ := file hq
      exact formed.eq_of_prefix hp hq le)
    (fun p hp => by
      obtain ⟨-, _, hp⟩ := file hp
      exact (FileTree.node?_eq_file_iff.1 hp).1)
    (List.mem_map_of_mem hs)
  obtain ⟨dirs, name, rfl⟩ : ∃ dirs name, below = dirs ++ [name] :=
    ⟨_, _, (List.dropLast_append_getLast ne).symm⟩
  rw [eq] at whole
  obtain rfl : place = _ := whole
  have names := formed.isName_of_file node
  refine ⟨dirs, name, names, text, ?_⟩
  have root : commonDir (plan.schemas.map Path.ofText) =
      ⟨true, (commonDir (plan.schemas.map Path.ofText)).parts⟩ := by
    obtain ⟨-, -, top, -⟩ := exists_commonDir rooted named (List.ne_nil_of_mem (List.mem_map_of_mem hs))
    rw [← top]
  rw [scriptPath, eq]
  conv_lhs => rw [root]
  rw [outputPath_below _ _ _ _ _ fun s hs => names s (List.mem_append_right _ hs)]
  rfl

/-- Two documents of a plan have one script exactly if they differ in their extensions only. -/
lemma scriptPath_eq_iff (formed : tree.WellFormed) (placed : plan.Placed tree) {a b : String}
    (ha : a ∈ plan.schemas) (hb : b ∈ plan.schemas) :
    scriptPath plan a = scriptPath plan b ↔ Path.withoutExtension a = Path.withoutExtension b := by
  obtain ⟨root, all⟩ := exists_scriptPath formed placed
  obtain ⟨dirs, name, names, document, script⟩ := all a ha
  obtain ⟨dirs', name', names', document', script'⟩ := all b hb
  have slash {front dirs : List String} {name last : String} (hf : ∀ s ∈ front, '/' ∉ s.toList)
      (names : ∀ s ∈ root ++ (dirs ++ [name]), IsName s) (hl : '/' ∉ last.toList) :
      ∀ s ∈ front ++ (dirs ++ [last]), '/' ∉ s.toList := by
    intro s hs
    rw [List.mem_append, List.mem_append, List.mem_singleton] at hs
    rcases hs with hs | hs | rfl
    · exact hf s hs
    · exact (names s (by simp [hs])).slash
    · exact hl
  have plain := (names name (by simp)).slash
  have plain' := (names' name' (by simp)).slash
  have last {u v : String} : dirs ++ [u] = dirs' ++ [v] ↔ dirs = dirs' ∧ u = v := by
    rw [← List.concat_eq_append, ← List.concat_eq_append, List.concat_inj]
  have scripts : scriptPath plan a = scriptPath plan b ↔
      dirs = dirs' ∧ Path.withoutExtension name = Path.withoutExtension name' := by
    have out : ∀ s ∈ (Path.ofText plan.out).parts, '/' ∉ s.toList := fun s => Path.slash_of_mem_ofText
    rw [script, script', Path.text_inj (by simp) (by simp) (slash out names (isName_script plain).slash)
      (slash out names' (isName_script plain').slash), List.append_cancel_left_eq, last,
      String.append_left_inj]
  have documents : Path.withoutExtension a = Path.withoutExtension b ↔
      dirs = dirs' ∧ Path.withoutExtension name = Path.withoutExtension name' := by
    have above : ∀ s ∈ root, '/' ∉ s.toList := fun s hs => (names s (by simp [hs])).slash
    have stem := slash above names (Path.slash_withoutExtension plain)
    have stem' := slash above names' (Path.slash_withoutExtension plain')
    rw [document, document', ← List.append_assoc, ← List.append_assoc,
      Path.withoutExtension_text (by simpa using fun s hs => (names s hs).slash),
      Path.withoutExtension_text (by simpa using fun s hs => (names' s hs).slash),
      List.append_assoc, List.append_assoc, Path.text_inj (by simp) (by simp) stem stem',
      List.append_cancel_left_eq, last]
  rw [scripts, documents]

/-- The scripts of a plan have different paths exactly if the documents differ in more than their
extensions. -/
lemma nodup_scriptPath_iff (formed : tree.WellFormed) (placed : plan.Placed tree) :
    (plan.schemas.map (scriptPath plan)).Nodup ↔ (plan.schemas.map Path.withoutExtension).Nodup := by
  unfold List.Nodup
  rw [List.pairwise_map, List.pairwise_map]
  exact List.Pairwise.iff_of_mem fun ha hb => not_congr (scriptPath_eq_iff formed placed ha hb)

end Generation

end ErdSql
