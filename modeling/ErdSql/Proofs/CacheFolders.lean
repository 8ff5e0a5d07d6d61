import ErdSql.Cache.Folder
import ErdSql.Proofs.Selection

/-!
# Where the cache of a project lies

The folder that keeps results is given by a path below the configuration file, and clearing it removes
all that is in it. The path cannot lead out of the folder of the configuration. Nothing else is looked
at, so the folder may hold what the project is made of.

* `Path.IsClean`: the shortest form of a path; its text leads back to it.
* `Project.cachePlace_eq`: the parts of the setting are the way from the configuration to the folder.
* `Cache.Folder.node?_clear_iff`: the files that clearing a folder keeps.
* `Project.spared_iff`: when no file of the project and not its output is in the folder.
-/

namespace ErdSql

/-! ### Clean paths -/

namespace Path

/-- The parts of a path in its shortest form: ways up, unless it starts at the root, and names. -/
def CleanParts (rooted : Bool) (parts : List String) : Prop :=
  ∃ n names, parts = List.replicate n ".." ++ names ∧ (∀ s ∈ names, IsName s) ∧
    (rooted = true → n = 0)

/-- A path in its shortest form. -/
def IsClean (p : Path) : Prop := CleanParts p.rooted p.parts

lemma cleanParts_of_isName {rooted : Bool} {names : List String} (h : ∀ s ∈ names, IsName s) :
    CleanParts rooted names :=
  ⟨0, names, rfl, h, fun _ => rfl⟩

lemma CleanParts.append {rooted : Bool} {parts names : List String} (h : CleanParts rooted parts)
    (hn : ∀ s ∈ names, IsName s) : CleanParts rooted (parts ++ names) := by
  obtain ⟨n, front, rfl, named, root⟩ := h
  refine ⟨n, front ++ names, List.append_assoc .., fun s hs => ?_, root⟩
  exact (List.mem_append.1 hs).elim (named s) (hn s)

/-- The parts of a clean path have no slash. -/
lemma CleanParts.slash {rooted : Bool} {parts : List String} (h : CleanParts rooted parts) :
    ∀ s ∈ parts, '/' ∉ s.toList := by
  obtain ⟨n, names, rfl, named, -⟩ := h
  intro s hs
  rcases List.mem_append.1 hs with hs | hs
  · rw [List.eq_of_mem_replicate hs]
    decide
  · exact (named s hs).slash

/-- Going on by a part keeps a path clean. The parts done stand in reverse. -/
lemma CleanParts.step {rooted : Bool} {done : List String} (h : CleanParts rooted done.reverse)
    {part : String} (slash : '/' ∉ part.toList) :
    CleanParts rooted (Path.step rooted done part).reverse := by
  obtain ⟨n, names, parts, named, root⟩ := h
  unfold Path.step
  split
  · exact ⟨n, names, parts, named, root⟩
  · next plain =>
    rw [Bool.or_eq_true, not_or, beq_iff_eq, beq_iff_eq] at plain
    split
    · cases done with
      | nil =>
        cases rooted with
        | true => exact cleanParts_of_isName (by simp)
        | false => exact ⟨1, [], rfl, by simp, nofun⟩
      | cons last rest =>
        rw [List.reverse_cons] at parts
        rcases List.eq_nil_or_concat names with rfl | ⟨front, name, rfl⟩
        · -- only ways up were done, and one more is added
          rw [List.append_nil] at parts
          have up : last = ".." := by
            refine List.eq_of_mem_replicate (n := n) ?_
            rw [← parts]
            exact List.mem_append_right _ (List.mem_singleton_self last)
          have relative : rooted ≠ true := fun root' => by simp [root root'] at parts
          refine ⟨n + 1, [], ?_, by simp, fun root' => absurd root' relative⟩
          simp [up, List.replicate_succ', ← parts]
        · -- the name done last is taken away
          rw [List.concat_eq_append, ← List.append_assoc] at parts
          obtain ⟨front_eq, rfl⟩ := List.append_singleton_inj.1 parts
          have name : (last == "..") = false :=
            beq_eq_false_iff_ne.2 (named last (by simp)).ne_up
          simp only [name]
          exact ⟨n, front, front_eq, fun s hs => named s (by simp [hs]), root⟩
    · next up =>
      rw [beq_iff_eq] at up
      rw [List.reverse_cons, parts]
      exact CleanParts.append ⟨n, names, rfl, named, root⟩
        (List.forall_mem_singleton.2 ⟨plain.1, plain.2, up, slash⟩)

lemma IsClean.join {p : Path} (h : p.IsClean) (s : String) : (p.join s).IsClean := by
  have run (parts done : List String) (slash : ∀ part ∈ parts, '/' ∉ part.toList)
      (hd : CleanParts p.rooted done.reverse) :
      CleanParts p.rooted (parts.foldl (Path.step p.rooted) done).reverse := by
    induction parts generalizing done with
    | nil => exact hd
    | cons part parts ih =>
      exact ih _ (fun q hq => slash q (List.mem_cons_of_mem part hq))
        (hd.step (slash part List.mem_cons_self))
  refine run _ _ ?_ (by rwa [List.reverse_reverse])
  intro part hp
  obtain ⟨cs, hcs, rfl⟩ := List.mem_map.1 hp
  rw [String.toList_ofList]
  exact Ddl.not_mem_of_mem_splitList hcs

lemma isClean_ofText (s : String) : (ofText s).IsClean :=
  IsClean.join (cleanParts_of_isName (by simp)) s

/-- Ways up and names lead on to themselves from an empty path. -/
lemma foldl_step_of_cleanParts {rooted : Bool} {parts : List String} (h : CleanParts rooted parts) :
    parts.foldl (step rooted) [] = parts.reverse := by
  obtain ⟨n, names, rfl, named, root⟩ := h
  have more (k : Nat) : (List.replicate n "..").foldl (step false) (List.replicate k "..") =
      List.replicate (k + n) ".." := by
    clear root
    induction n generalizing k with
    | zero => rfl
    | succ n ih =>
      have one : step false (List.replicate k "..") ".." = List.replicate (k + 1) ".." := by
        cases k <;> rfl
      rw [List.replicate_succ, List.foldl_cons, one, ih, Nat.add_right_comm, Nat.add_assoc]
  have ups : (List.replicate n "..").foldl (step rooted) [] = List.replicate n ".." := by
    cases rooted with
    | true => simp [root rfl]
    | false => simpa using more 0
  rw [List.foldl_append, ups, foldl_step_of_isName named, List.reverse_append, List.reverse_replicate]

/-- The text of a clean path that does not start at the root does not look as if it did. -/
lemma IsClean.isRooted_text {p : Path} (h : p.IsClean) : isRooted p.text = p.rooted := by
  cases rooted : p.rooted with
  | true => exact Path.isRooted_text rooted
  | false =>
    cases parts : p.parts with
    | nil =>
      rw [text, if_neg (by simp [rooted]), if_pos (by simp [parts])]
      decide
    | cons s rest =>
      have first : s ≠ "" ∧ '/' ∉ s.toList := by
        refine ⟨?_, h.slash s (by simp [parts])⟩
        obtain ⟨n, names, whole, named, -⟩ := h
        rw [parts] at whole
        have mem : s ∈ List.replicate n ".." ++ names := whole ▸ List.mem_cons_self
        rcases List.mem_append.1 mem with mem | mem
        · rw [List.eq_of_mem_replicate mem]
          decide
        · exact (named s mem).ne_empty
      obtain ⟨c, cs, spelled⟩ : ∃ c cs, s.toList = c :: cs := by
        cases spelled : s.toList with
        | nil => exact absurd (String.toList_eq_nil_iff.1 spelled) first.1
        | cons c cs => exact ⟨c, cs, rfl⟩
      have differ : ('/' == c) = false :=
        beq_eq_false_iff_ne.2 fun same => first.2 (spelled ▸ same ▸ List.mem_cons_self)
      have start : ∃ more, (Text.join "/" (s :: rest)).toList = c :: more := by
        cases rest with
        | nil => exact ⟨cs, spelled⟩
        | cons t rest =>
          rw [Text.toList_join_cons Text.toList_slash, spelled]
          exact ⟨_, rfl⟩
      obtain ⟨more, start⟩ := start
      rw [text, if_neg (by simp [rooted]), if_neg (by simp [parts]), parts, isRooted, Text.startsWith,
        start]
      simp only [show "/".toList = ['/'] from rfl, List.isPrefixOf, differ, Bool.false_and]

/-- Going on by the text of a clean path is going on by its parts. -/
lemma IsClean.join_text {p : Path} (h : p.IsClean) (relative : p.rooted = false) (base : Path) :
    base.join p.text = ⟨base.rooted, (p.parts.foldl (Path.step base.rooted) base.parts.reverse).reverse⟩ := by
  rw [Path.join, text, relative]
  cases parts : p.parts with
  | nil => simp [Text.splitAt, Text.splitList, Path.step]
  | cons s rest =>
    have slash : ∀ part ∈ s :: rest, '/' ∉ part.toList := parts ▸ h.slash
    simp [Text.splitAt_join Text.toList_slash (List.cons_ne_nil s rest) slash]

/-- A clean path is the path that its text spells. -/
lemma IsClean.ofText_text {p : Path} (h : p.IsClean) : ofText p.text = p := by
  cases rooted : p.rooted with
  | true =>
    obtain ⟨n, names, parts, named, root⟩ := h
    refine Path.ofText_text rooted ?_
    rw [parts, root rooted]
    exact named
  | false =>
    rw [ofText, h.isRooted_text, rooted, h.join_text rooted]
    have parts := foldl_step_of_cleanParts h
    rw [rooted] at parts
    simp only [List.reverse_nil]
    rw [parts, List.reverse_reverse, ← rooted]

/-- A path below a clean one leads from anywhere below where the clean one leads. -/
lemma absolute_text_append {workingDir p : Path} (h : p.IsClean) {names : List String}
    (hn : ∀ s ∈ names, IsName s) :
    (absolute workingDir (Path.mk p.rooted (p.parts ++ names)).text).parts =
      (absolute workingDir p.text).parts ++ names := by
  have longer : (Path.mk p.rooted (p.parts ++ names)).IsClean := CleanParts.append h hn
  rw [absolute, absolute, longer.isRooted_text, h.isRooted_text]
  cases rooted : p.rooted with
  | true =>
    rw [rooted] at longer
    rw [if_pos rfl, if_pos rfl, longer.ofText_text, h.ofText_text]
  | false =>
    rw [rooted] at longer
    rw [if_neg Bool.false_ne_true, if_neg Bool.false_ne_true, longer.join_text rfl,
      h.join_text rooted]
    simp only [List.foldl_append]
    rw [foldl_step_of_isName hn, List.reverse_append, List.reverse_reverse]

/-- A text that does not go up leads below any path, by names. -/
lemma join_of_not_goesUp {s : String} (rooted : isRooted s = false) (stays : (ofText s).goesUp = false)
    (p : Path) : p.join s = ⟨p.rooted, p.parts ++ (ofText s).parts⟩ ∧
      ∀ part ∈ (ofText s).parts, IsName part := by
  -- a way up at the bottom is never taken away
  have stuck (parts done : List String) (up : done.getLast? = some "..") :
      (parts.foldl (step false) done).getLast? = some ".." := by
    induction parts generalizing done with
    | nil => exact up
    | cons part parts ih =>
      refine ih _ ?_
      cases done with
      | nil => cases up
      | cons last rest =>
        unfold step
        split
        · exact up
        · split
          · change (if last == ".." then ".." :: last :: rest else rest).getLast? = some ".."
            split
            · rw [List.getLast?_cons_cons]
              exact up
            · next name =>
              cases rest with
              | nil => exact absurd (beq_iff_eq.2 (Option.some.inj up)) name
              | cons second rest =>
                rw [List.getLast?_cons_cons] at up
                exact up
          · rw [List.getLast?_cons_cons]
            exact up
  have below (parts done : List String) (r : Bool) (front : List String)
      (stays : (parts.foldl (step false) done).getLast? ≠ some "..") :
      parts.foldl (step r) (done ++ front) = parts.foldl (step false) done ++ front := by
    induction parts generalizing done with
    | nil => rfl
    | cons part parts ih =>
      rw [List.foldl_cons] at stays
      have one : step r (done ++ front) part = step false done part ++ front := by
        cases done with
        | nil =>
          have name : (part == "..") = false := by
            rw [beq_eq_false_iff_ne]
            rintro rfl
            exact stays (stuck parts [".."] rfl)
          unfold step
          rw [name]
          split <;> rfl
        | cons last rest =>
          unfold step
          split
          · rfl
          · split
            · change (if last == ".." then ".." :: last :: (rest ++ front) else rest ++ front) =
                (if last == ".." then ".." :: last :: rest else rest) ++ front
              split <;> rfl
            · rfl
      rw [List.foldl_cons, List.foldl_cons, one, ih _ stays]
  have reversed : (ofText s).parts = ((Text.splitAt '/' s).foldl (step false) []).reverse := by
    rw [ofText, join, rooted]
    rfl
  have bottom : ((Text.splitAt '/' s).foldl (step false) []).getLast? ≠ some ".." := by
    rw [goesUp, reversed, List.head?_reverse, beq_eq_false_iff_ne] at stays
    exact stays
  refine ⟨?_, ?_⟩
  · rw [join, reversed]
    have moved := below _ [] p.rooted p.parts.reverse bottom
    rw [List.nil_append] at moved
    rw [moved, List.reverse_append, List.reverse_reverse]
  · obtain ⟨n, names, parts, named, -⟩ := isClean_ofText s
    cases n with
    | zero =>
      rw [parts]
      exact named
    | succ n =>
      rw [goesUp, parts] at stays
      simp [List.replicate_succ] at stays

end Path

/-! ### Clearing a folder -/

namespace FileTree

/-- Making folders changes no file. -/
lemma node?_makeFolders_eq_file_iff (t : FileTree) (p q : Place) (bytes : List UInt8) :
    (t.makeFolders p).node? q = some (.file bytes) ↔ t.node? q = some (.file bytes) := by
  rw [makeFolders]
  split
  · rfl
  · next free =>
    rw [node?_eq_file_iff, node?_eq_file_iff]
    refine and_congr_right fun ne => and_congr_left fun found => ?_
    rw [List.mem_append, not_or, List.mem_filter]
    refine and_iff_left_of_imp fun _ mem => free ?_
    rw [blocking?, List.find?_isSome]
    exact ⟨q, mem.1, by rw [found]; rfl⟩

/-- Removing a place keeps the files elsewhere and no other one. -/
lemma node?_removeAll_eq_file_iff (t : FileTree) (p q : Place) (bytes : List UInt8) :
    (t.removeAll p).node? q = some (.file bytes) ↔
      t.node? q = some (.file bytes) ∧ ¬ p <+: q := by
  rw [node?_eq_file_iff, node?_eq_file_iff, removeAll]
  by_cases inside : p <+: q
  · have gone : (t.files.filter fun f => !p.isPrefixOf f.1).lookup q = none := by
      rw [List.lookup_eq_none_iff]
      rintro ⟨r, b⟩ hr
      have outside := (List.mem_filter.1 hr).2
      rw [Bool.not_eq_true', ← Bool.not_eq_true, List.isPrefixOf_iff_prefix] at outside
      rw [bne_iff_ne]
      rintro rfl
      exact outside inside
    simp [inside, gone]
  · have kept : (!p.isPrefixOf q) = true := by
      rw [Bool.not_eq_true', ← Bool.not_eq_true, List.isPrefixOf_iff_prefix]
      exact inside
    rw [lookup_filter_of_pos (p := fun r => !p.isPrefixOf r) kept, List.mem_filter, kept]
    simp [inside]

end FileTree

namespace Cache.Folder

/-- Clearing a folder keeps the files that are not in it, and no other one. -/
lemma node?_clear_eq_file_iff (f : Folder) (tree : FileTree) (q : Place) (bytes : List UInt8) :
    (f.clear tree).node? q = some (.file bytes) ↔
      tree.node? q = some (.file bytes) ∧ ¬ f.placeOf f.dir <+: q := by
  rw [clear, FileTree.node?_makeFolders_eq_file_iff, FileTree.node?_removeAll_eq_file_iff]

end Cache.Folder

/-! ### Plans -/

namespace Project

/-- A folder below a clean path, as it is used: the setting goes on from the path by names. -/
lemma of_folderBelow {base : Path} (clean : base.IsClean) {dir folder : String}
    (h : folderBelow base dir = .ok folder) (workingDir : Path) :
    (∀ s ∈ (Path.ofText dir).parts, Path.IsName s) ∧
      (Path.ofText folder).text = folder ∧ (Path.absolute workingDir folder).parts =
        (Path.absolute workingDir base.text).parts ++ (Path.ofText dir).parts := by
  rw [folderBelow] at h
  split at h
  · cases h
  split at h
  · cases h
  next relative stays =>
    rw [Bool.not_eq_true] at relative stays
    obtain ⟨joined, named⟩ := Path.join_of_not_goesUp relative stays base
    cases h
    have below : (base.join dir).IsClean := clean.join dir
    refine ⟨named, by rw [below.ofText_text], ?_⟩
    rw [joined]
    exact Path.absolute_text_append clean named

/-- The store of the results of a plan. -/
def Plan.store (p : Plan) (workingDir : Path) : Cache.Folder := ⟨Path.ofText p.cacheDir, workingDir⟩

/-- The place of the results of a plan. -/
def Plan.cachePlace (p : Plan) (workingDir : Path) : Place :=
  (Path.absolute workingDir p.cacheDir).parts

/-- The places of the documents, of the plugins and of the overlay of a plan. -/
def Plan.inputs (p : Plan) : List Place :=
  (p.schemas ++ p.plugins ++ if p.sidecar == "" then [] else [p.sidecar]).map fun file =>
    (Path.ofText file).parts

/-- Neither the configuration nor what its plan reads nor the folder that it writes to is at a place or
below it. -/
structure Plan.Spared (workingDir : Path) (path : String) (p : Plan) (place : Place) : Prop where
  configuration : ¬ place <+: (Path.absolute workingDir (Path.ofText path).text).parts
  inputs : ∀ file ∈ p.inputs, ¬ place <+: file
  out : ¬ place <+: (Path.absolute workingDir p.out).parts

/-- The files that a plan reads lie below the folder of its configuration. -/
lemma exists_of_mem_inputs {tree : FileTree} (formed : tree.WellFormed) {dir base : Path}
    (rooted : base.rooted = true) {s : Settings} {p : Plan} (planned : Planned tree dir base s p)
    {file : Place} (hf : file ∈ p.inputs) :
    ∃ rel bytes, file = base.parts ++ rel ∧ tree.node? file = some (.file bytes) := by
  obtain ⟨text, mem, rfl⟩ := List.mem_map.1 hf
  have selected : ∃ extension patterns files,
      filesBelow tree base extension patterns = .ok files ∧ text ∈ files := by
    simp only [List.mem_append] at mem
    rcases mem with (mem | mem) | mem
    · exact ⟨_, _, _, planned.schemas, mem⟩
    · exact ⟨_, _, _, planned.plugins.resolve_left (List.ne_nil_of_mem mem), mem⟩
    · split at mem
      · cases mem
      · next given =>
        obtain rfl := List.mem_singleton.1 mem
        have found := planned.sidecar.resolve_left (by simpa using given)
        rw [fileBelow] at found
        obtain ⟨files, resolved, found⟩ := exists_of_bind_eq_ok found
        split at found
        · cases found
          exact ⟨_, _, _, resolved, mem⟩
        · cases found
  obtain ⟨extension, patterns, files, resolved, mem⟩ := selected
  obtain ⟨rel, bytes, rfl, node⟩ := exists_of_mem_filesBelow formed rooted resolved mem
  rw [Path.ofText_text rfl (formed.isName_of_file node)]
  exact ⟨rel, bytes, rfl, node⟩

/-- The folder for results is below the folder of the configuration, and nothing outside of it is
cleared. It spares the project exactly if the cleaned setting is not at the front of the cleaned output
setting, nor of the way from the configuration's folder to the configuration or to a file that is
read. -/
theorem spared_iff {tree : FileTree} (formed : tree.WellFormed) {workingDir : Path}
    (rooted : workingDir.rooted = true) {path : String} {strict : Bool} {p : Plan}
    {warnings : List String} (h : load tree workingDir path strict = .ok (p, warnings))
    (set : p.cacheDir ≠ "") :
    let base := (Path.absolute workingDir (Path.ofText (Path.dirText path)).text).parts
    let configuration := (Path.absolute workingDir (Path.ofText path).text).parts
    ∃ bytes settings unknown, tree.read workingDir (Path.ofText path).text = .ok bytes ∧
      Settings.readBytes bytes = .ok (settings, unknown) ∧
      let folder := (Path.ofText settings.cacheDir).parts
      p.cachePlace workingDir = base ++ folder ∧
      (∀ file ∈ p.inputs, ∃ rel bytes, file = base ++ rel ∧ tree.node? file = some (.file bytes)) ∧
      (p.Spared workingDir path (p.cachePlace workingDir) ↔
        ¬ folder <+: (Path.ofText settings.out).parts ∧
          ∀ rel, base ++ rel ∈ configuration :: p.inputs → ¬ folder <+: rel) ∧
      ∀ place bytes, ((p.store workingDir).clear tree).node? place = some (.file bytes) ↔
        tree.node? place = some (.file bytes) ∧ ¬ p.cachePlace workingDir <+: place := by
  intro base configuration
  obtain ⟨bytes, settings, unknown, read, decoded, planned⟩ := exists_of_load h
  have clean := Path.isClean_ofText (Path.dirText path)
  obtain ⟨-, text, place⟩ := of_folderBelow clean (planned.cacheDir.resolve_left set) workingDir
  obtain ⟨-, -, out⟩ := of_folderBelow clean planned.out workingDir
  refine ⟨bytes, settings, unknown, read, decoded, place, fun file hf => ?_, ?_, fun q bytes => ?_⟩
  · exact exists_of_mem_inputs formed (rooted_absolute rooted _) planned hf
  · rw [Plan.cachePlace, place]
    have prefixes (q : Place) : ¬ base ++ (Path.ofText settings.cacheDir).parts <+: q ↔
        ∀ rel, base ++ rel = q → ¬ (Path.ofText settings.cacheDir).parts <+: rel := by
      constructor
      · rintro outside rel rfl front
        exact outside ((List.prefix_append_right_inj _).2 front)
      · rintro apart ⟨rest, rfl⟩
        exact apart _ (List.append_assoc ..).symm ⟨rest, rfl⟩
    constructor
    · intro spared
      refine ⟨fun front => spared.out ?_, fun rel mem => ?_⟩
      · rw [out]
        exact (List.prefix_append_right_inj _).2 front
      · rcases List.mem_cons.1 mem with same | mem
        · exact (prefixes _).1 spared.configuration rel same
        · exact (prefixes _).1 (spared.inputs _ mem) rel rfl
    · rintro ⟨outside, apart⟩
      refine ⟨(prefixes _).2 fun rel same => apart rel ?_, fun file hf => (prefixes _).2 fun rel same =>
        apart rel ?_, fun front => outside ?_⟩
      · exact same ▸ List.mem_cons_self
      · exact same ▸ List.mem_cons_of_mem _ hf
      · rw [out] at front
        exact (List.prefix_append_right_inj _).1 front
  · rw [Cache.Folder.node?_clear_eq_file_iff, Cache.Folder.placeOf, Plan.store, text]
    rfl

/-- A project with its document in a folder of its own. -/
def project (cacheDir : String) : FileTree :=
  ⟨[(["home", fileName], Text.bytes ("schemas = [\"db/a.erd\"]\nout = \"out\"\ncache_dir = \"" ++
      cacheDir ++ "\"\n")), (["home", "db", "a.erd"], Text.bytes ":A\n  INT $.id PK\n")],
    [["home"], ["home", "db"]]⟩

/-- The plan of the project. -/
def projectPlan (cacheDir : String) : Plan :=
  { schemas := ["/home/db/a.erd"], out := "out", dialect := "postgresql", cacheDir }

lemma load_project {cacheDir : String} (folder : cacheDir = "cache" ∨ cacheDir = "db") :
    load (project cacheDir) ⟨true, ["home"]⟩ fileName false = .ok (projectPlan cacheDir, []) := by
  have loaded : (load (project cacheDir) ⟨true, ["home"]⟩ fileName false).toOption =
      some (projectPlan cacheDir, []) := by
    rcases folder with rfl | rfl <;> decide +kernel
  cases result : load (project cacheDir) ⟨true, ["home"]⟩ fileName false with
  | error e => simp [result, Except.toOption] at loaded
  | ok p =>
    rw [result] at loaded
    exact congrArg _ (Option.some.inj loaded)

lemma wellFormed_project (cacheDir : String) : (project cacheDir).WellFormed :=
  .of_inits
    (show ∀ p ∈ [["home"], ["home", "db"], ["home", fileName], ["home", "db", "a.erd"]], ∀ s ∈ p,
      s ≠ "" ∧ s ≠ "." ∧ s ≠ ".." ∧ '/' ∉ s.toList by decide)
    (show ∀ p ∈ [["home"], ["home", "db"], ["home", fileName], ["home", "db", "a.erd"]],
      ∀ q ∈ p.inits, q ≠ p → q = [] ∨ q ∈ [["home"], ["home", "db"]] by decide)

/-- The results of the project are kept apart from it, so its settings are apart and clearing the results
keeps the document. -/
theorem spared_iff_of_project :
    load (project "cache") ⟨true, ["home"]⟩ fileName false = .ok (projectPlan "cache", []) ∧
      (∃ bytes settings unknown, Settings.readBytes bytes = .ok (settings, unknown) ∧
        ¬ (Path.ofText settings.cacheDir).parts <+: (Path.ofText settings.out).parts) ∧
      (((projectPlan "cache").store ⟨true, ["home"]⟩).clear (project "cache")).node?
        ["home", "db", "a.erd"] = some (.file (Text.bytes ":A\n  INT $.id PK\n")) := by
  have loaded := @load_project "cache" (.inl rfl)
  have spared : (projectPlan "cache").Spared ⟨true, ["home"]⟩ fileName
      ((projectPlan "cache").cachePlace ⟨true, ["home"]⟩) := ⟨by decide, by decide, by decide⟩
  obtain ⟨bytes, settings, unknown, -, decoded, -, -, apart, cleared⟩ :=
    spared_iff (wellFormed_project "cache") rfl loaded (by decide)
  exact ⟨loaded, ⟨bytes, settings, unknown, decoded, (apart.1 spared).1⟩,
    (cleared _ _).2 ⟨rfl, by decide⟩⟩

/-- The folder for results holds the document, and clearing it removes the document. -/
theorem clear_removes_document :
    load (project "db") ⟨true, ["home"]⟩ fileName false = .ok (projectPlan "db", []) ∧
      ¬ (projectPlan "db").Spared ⟨true, ["home"]⟩ fileName
        ((projectPlan "db").cachePlace ⟨true, ["home"]⟩) ∧
      (project "db").node? ["home", "db", "a.erd"] = some (.file (Text.bytes ":A\n  INT $.id PK\n")) ∧
      (((projectPlan "db").store ⟨true, ["home"]⟩).clear (project "db")).node?
        ["home", "db", "a.erd"] = none := by
  refine ⟨load_project (.inr rfl), fun spared => ?_, rfl, by decide⟩
  exact spared.inputs ["home", "db", "a.erd"] (by decide) (by decide)

end Project

end ErdSql
