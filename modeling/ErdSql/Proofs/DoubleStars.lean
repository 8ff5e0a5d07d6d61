import ErdSql.Proofs.CacheFolders
import ErdSql.Proofs.Patterns

/-!
# Files selected by patterns with a double star

The search for a pattern with `**` starts at the folder that the plain segments at its front name, which
loses nothing: whatever matches the pattern lies there. Each folder that is found stands for the files below
it that have the extension. The base itself is called `.` in the search, so a pattern that matches this one
name finds the base and with it all files that have the extension.

* `FileSet.searchRoot_eq`, `FileSet.Matches.front_isPrefix`: where the search starts, and what lies there.
* `FileTree.follow_append`: names lead to what is there.
* `FileSet.Source.search_cases`: what the search finds.
* `FileSet.Source.mem_expand_iff`: what a place that was found stands for.
* `FileSet.Source.double_star_selects`: the files that the pattern selects.
-/

namespace ErdSql

/-! ### Where the search starts -/

namespace FileSet

open ErdSql.Path (IsName)

/-- The segments in front of the first that is not plain, the last one left aside. -/
def plainFront (segments : List String) : List String :=
  segments.dropLast.takeWhile fun s => !hasMeta s

lemma plainFront_isPrefix (segments : List String) : plainFront segments <+: segments :=
  (List.takeWhile_prefix _).trans (List.dropLast_prefix segments)

lemma hasMeta_of_mem_plainFront {segments : List String} {s : String} (h : s ∈ plainFront segments) :
    hasMeta s = false := by
  simpa using List.mem_takeWhile_imp h

/-- What matches a pattern starts with the plain segments at the front. -/
lemma Matches.front_isPrefix {segments names : List String} (h : Matches segments names) :
    plainFront segments <+: names := by
  obtain ⟨more, whole⟩ := plainFront_isPrefix segments
  rw [← whole] at h
  exact h.plain_prefix fun _ => hasMeta_of_mem_plainFront

/-- A pattern that matches the name of the base starts with no plain segment, as no segment is this name. -/
lemma Matches.front_eq_nil {segments : List String} (names : ∀ s ∈ segments, IsName s)
    (h : Matches segments ["."]) : plainFront segments = [] := by
  cases front : plainFront segments with
  | nil => rfl
  | cons first rest =>
    have le := h.front_isPrefix
    rw [front] at le
    have dot : "." ∈ plainFront segments := by
      rw [front, (List.cons_prefix_cons.1 le).1]
      exact List.mem_cons_self
    exact absurd rfl (names "." ((plainFront_isPrefix segments).subset dot)).ne_here

lemma isName_iff {s : String} (slash : '/' ∉ s.toList) : isName s = true ↔ IsName s := by
  simp only [isName, Bool.and_eq_true, bne_iff_ne]
  exact ⟨fun h => ⟨h.1.1, h.1.2, h.2, slash⟩, fun h => ⟨⟨h.ne_empty, h.ne_here⟩, h.ne_up⟩⟩

lemma placeText_eq_text (p : Place) : placeText p = (Path.mk false p).text := by
  simp [placeText, Path.text]

lemma splitAt_placeText {p : Place} (names : ∀ s ∈ p, IsName s) (ne : p ≠ []) :
    Text.splitAt '/' (placeText p) = p := by
  rw [placeText, if_neg (by simpa using ne),
    Text.splitAt_join Text.toList_slash ne fun s hs => (names s hs).slash]

/-- The extension of a place is the one of its last name. -/
lemma extension_placeText_append {front p : Place} (names : ∀ s ∈ p, IsName s)
    (above : ∀ s ∈ front, IsName s) (ne : p ≠ []) :
    Path.extension (placeText (front ++ p)) = Path.extension (placeText p) := by
  obtain ⟨dirs, name, rfl⟩ : ∃ dirs name, p = dirs ++ [name] :=
    ⟨_, _, (List.dropLast_append_getLast ne).symm⟩
  have slash : ∀ s ∈ dirs ++ [name], '/' ∉ s.toList := fun s hs => (names s hs).slash
  have slashes : ∀ s ∈ (front ++ dirs) ++ [name], '/' ∉ s.toList := fun s hs => by
    rw [List.append_assoc] at hs
    exact (List.mem_append.1 hs).elim (fun h => (above s h).slash) (slash s)
  rw [placeText, placeText, if_neg (by simp), if_neg (by simp), ← List.append_assoc,
    Path.extension_join slashes, Path.extension_join slash]

/-- The text of a place names the place. -/
lemma place?_placeText {p : Place} (names : ∀ s ∈ p, IsName s) : place? (placeText p) = some p := by
  cases p with
  | nil => rfl
  | cons s rest =>
    have parts := splitAt_placeText names (List.cons_ne_nil s rest)
    have all : (s :: rest).all isName = true :=
      List.all_eq_true.2 fun t ht => (isName_iff (names t ht).slash).2 (names t ht)
    have other : placeText (s :: rest) ≠ "." := by
      intro same
      rw [same] at parts
      have dot : "." ∈ s :: rest := by
        rw [← parts]
        decide
      exact (names "." dot).ne_here rfl
    rw [place?, if_neg (by simpa using other), parts]
    simp only [all, if_true]

/-- The search starts at the place of the plain segments at the front. -/
lemma searchRoot_eq {segments : List String} (names : ∀ s ∈ segments, IsName s) :
    Source.searchRoot segments = placeText (plainFront segments) := by
  have front : ∀ s ∈ plainFront segments, IsName s := fun s hs =>
    names s ((plainFront_isPrefix segments).subset hs)
  rw [Source.searchRoot, ← plainFront]
  cases fixed : plainFront segments with
  | nil => rfl
  | cons s rest =>
    rw [fixed] at front
    have some : (s :: rest).filter (· != "") = s :: rest :=
      List.filter_eq_self.2 fun t ht => bne_iff_ne.2 (front t ht).ne_empty
    have first := (front s List.mem_cons_self).ne_empty
    have clean : (Path.mk false (s :: rest)).IsClean := Path.cleanParts_of_isName front
    have text : Text.join "/" (s :: rest) = (Path.mk false (s :: rest)).text := rfl
    rw [if_neg (by simp), if_neg (by simp [first]), some, text, clean.ofText_text, placeText_eq_text]

end FileSet

/-! ### What is there -/

namespace FileTree

open ErdSql.Path (IsName)

variable {t : FileTree} {here p q : Place}

lemma mem_places_of_node {n : Node} (node : t.node? p = some n) (ne : p ≠ []) : p ∈ t.places := by
  cases n with
  | file bytes => exact mem_places_of_file node
  | folder =>
    rcases node?_eq_folder_iff.1 node with root | folder
    · exact absurd root ne
    · exact List.mem_append_left _ folder

/-- What is on the way to something is a folder. -/
lemma WellFormed.node?_of_prefix (h : t.WellFormed) {n : Node} (node : t.node? p = some n) (le : q <+: p)
    (ne : q ≠ p) : t.node? q = some .folder := by
  refine h.nested p (mem_places_of_node node ?_) q le ne
  rintro rfl
  exact ne (List.prefix_nil.1 le)

lemma mem_below_iff : q ∈ t.below p ↔ p <+: q ∧ (t.node? q).isSome = true := by
  rw [below, List.mem_filter, Bool.and_eq_true, List.isPrefixOf_iff_prefix]
  refine ⟨fun h => h.2, fun h => ⟨?_, h⟩⟩
  obtain ⟨n, node⟩ := Option.isSome_iff_exists.1 h.2
  by_cases root : q = []
  · rw [root]
    exact List.mem_cons_self
  · exact List.mem_cons_of_mem _ (mem_places_of_node node root)

/-- Names that are not too long lead where the folders on the way lead. -/
lemma follow_append {names : List String} (named : ∀ s ∈ names, IsName s)
    (short : ∀ s ∈ names, isLongName s = false)
    (folders : ∀ q, here <+: q → q <+: here ++ names → q ≠ here ++ names → t.node? q = some .folder) :
    t.follow here names = .ok (here ++ names) := by
  induction names generalizing here with
  | nil => rw [follow, List.append_nil]
  | cons name names ih =>
    have first := named name List.mem_cons_self
    have whole : here ++ name :: names = (here ++ [name]) ++ names := by simp
    have node := folders here (List.prefix_refl here) (List.prefix_append here _) (by simp)
    rw [follow, node]
    simp only
    rw [if_neg (by simp [first.ne_empty, first.ne_here]), if_neg (by simp [first.ne_up]),
      if_neg (by simp [short name List.mem_cons_self]), whole]
    refine ih (fun s hs => named s (List.mem_cons_of_mem name hs))
      (fun s hs => short s (List.mem_cons_of_mem name hs)) fun q below le ne => ?_
    rw [← whole] at le ne
    exact folders q ((List.prefix_append here [name]).trans below) le ne

end FileTree

namespace FileSet

open ErdSql.Path (IsName)

/-- Files are looked for in a folder of a well-formed tree. Where what is looked at can be refused, every
place has a text and names that are accepted. -/
structure Source.WellFormed (s : Source) : Prop where
  tree : s.tree.WellFormed
  base : s.tree.node? s.base = some .folder
  usable : s.strict = true → ∀ p, (s.node? p).isSome = true →
    FileTree.unusable? (placeText p) = none ∧ ∀ name ∈ p, FileTree.isLongName name = false

namespace Source

variable {s : Source} {p q : Place}

/-- Whether a file stands at a place below the base. -/
def IsFile (s : Source) (p : Place) : Prop :=
  ∃ bytes, s.node? p = some (.file bytes)

/-- Whether the name of a place ends with the extension that files of folders have. -/
def Carries (s : Source) (p : Place) : Prop :=
  s.extension ≠ "" ∧ Path.extension (placeText p) = s.extension

/-- The files that the segments of a pattern describe: those that match, and those with the extension that
lie in a folder below the base that matches. -/
def Described (s : Source) (segments : List String) (p : Place) : Prop :=
  s.IsFile p ∧ (Matches segments p ∨
    s.Carries p ∧ ∃ q, q <+: p ∧ q ≠ p ∧ q ≠ [] ∧ Matches segments q)

lemma IsFile.isSome (file : s.IsFile p) : (s.node? p).isSome = true := by
  obtain ⟨bytes, node⟩ := file
  rw [node]
  rfl

lemma IsFile.ne_folder (file : s.IsFile p) : s.node? p ≠ some .folder := by
  obtain ⟨bytes, node⟩ := file
  simp [node]

lemma isFile_iff : s.IsFile p ↔ (s.node? p).isSome = true ∧ s.tree.isFolder (s.base ++ p) = false := by
  rw [IsFile, FileTree.isFolder, ← node?]
  cases s.node? p with
  | none => simp
  | some n => cases n <;> simp

namespace WellFormed

lemma names (h : s.WellFormed) (node : (s.node? p).isSome = true) : ∀ name ∈ p, IsName name := by
  obtain ⟨n, node⟩ := Option.isSome_iff_exists.1 node
  intro name hn
  have ne : s.base ++ p ≠ [] := fun none => by
    rw [(List.append_eq_nil_iff.1 none).2] at hn
    cases hn
  exact h.tree.named _ (FileTree.mem_places_of_node node ne) name (List.mem_append_right _ hn)

/-- What is on the way from the base to something is a folder. -/
lemma node?_of_prefix (h : s.WellFormed) (node : (s.node? p).isSome = true) (le : q <+: p) (ne : q ≠ p) :
    s.node? q = some .folder := by
  obtain ⟨n, node⟩ := Option.isSome_iff_exists.1 node
  refine h.tree.node?_of_prefix node ((List.prefix_append_right_inj _).2 le) ?_
  exact fun same => ne (List.append_cancel_left same)

lemma isSome_of_prefix (h : s.WellFormed) (node : (s.node? p).isSome = true) (le : q <+: p) :
    (s.node? q).isSome = true := by
  by_cases same : q = p
  · rwa [same]
  · rw [h.node?_of_prefix node le same]
    rfl

lemma node?_base (h : s.WellFormed) : s.node? [] = some .folder := by
  rw [node?, List.append_nil]
  exact h.base

lemma ne_nil_of_isFile (h : s.WellFormed) (file : s.IsFile p) : p ≠ [] := by
  rintro rfl
  exact file.ne_folder h.node?_base

/-- The extension of a file does not depend on where the base lies. -/
lemma extension_append (h : s.WellFormed) (file : s.IsFile p) :
    Path.extension (placeText (s.base ++ p)) = Path.extension (placeText p) := by
  have ne := h.ne_nil_of_isFile file
  refine extension_placeText_append (h.names file.isSome) (fun name hn => ?_) ne
  obtain ⟨bytes, node⟩ := file
  exact h.tree.named _ (FileTree.mem_places_of_node node (by simp [ne])) name (List.mem_append_left _ hn)

/-- Nothing keeps the search from a place where something stands. -/
lemma obstacle?_eq_none (h : s.WellFormed) (node : (s.node? p).isSome = true) :
    s.obstacle? (placeText p) p = none := by
  rw [obstacle?]
  split
  · rfl
  · next strict =>
    have strict : s.strict = true := by simpa using strict
    obtain ⟨usable, short⟩ := h.usable strict p node
    have way : s.tree.follow s.base p = .ok (s.base ++ p) := by
      refine FileTree.follow_append (h.names node) short fun q below le ne => ?_
      obtain ⟨front, rfl⟩ := below
      refine h.node?_of_prefix node ((List.prefix_append_right_inj _).1 le) ?_
      exact fun same => ne (congrArg _ same)
    rw [usable, way]

end WellFormed

/-! ### What is found -/

/-- The search finds what lies at or below its start and has a text whose parts match. It is only refused
where nothing stands at its start. -/
lemma search_cases (formed : s.WellFormed) {segments : List String}
    (names : ∀ segment ∈ segments, IsName segment) :
    (∃ places, s.search segments = .ok places ∧
      ∀ p, p ∈ places ↔ (s.node? p).isSome = true ∧ plainFront segments <+: p ∧
        Matches segments (Text.splitAt '/' (placeText p))) ∨
    s.strict = true ∧ (∃ fault, s.search segments = .error fault) ∧
      s.node? (plainFront segments) = none := by
  have front : ∀ name ∈ plainFront segments, IsName name := fun name hn =>
    names name ((plainFront_isPrefix segments).subset hn)
  rw [search, searchRoot_eq names]
  simp only [place?_placeText front]
  cases stop : s.obstacle? (placeText (plainFront segments)) (plainFront segments) with
  | none =>
    refine .inl ⟨_, rfl, fun p => ?_⟩
    rw [List.mem_filter, List.mem_map, matchSegments_iff, ← and_assoc]
    refine and_congr_left fun _ => ?_
    constructor
    · rintro ⟨q, below, rfl⟩
      obtain ⟨⟨rest, rfl⟩, node⟩ := FileTree.mem_below_iff.1 below
      rw [List.append_assoc] at node ⊢
      rw [List.drop_left]
      exact ⟨node, List.prefix_append _ rest⟩
    · rintro ⟨node, le⟩
      refine ⟨s.base ++ p, FileTree.mem_below_iff.2 ⟨?_, node⟩, List.drop_left⟩
      exact (List.prefix_append_right_inj _).2 le
  | some fault =>
    refine .inr ⟨?_, ⟨_, rfl⟩, ?_⟩
    · by_contra lax
      rw [obstacle?, if_pos (by simpa using lax)] at stop
      cases stop
    · by_contra there
      rw [formed.obstacle?_eq_none (Option.isSome_iff_ne_none.2 there)] at stop
      cases stop

/-- A folder stands for the files below it that have the extension. -/
lemma mem_expand_folder (formed : s.WellFormed) (node : s.node? q = some .folder) :
    p ∈ s.expand q ↔ s.IsFile p ∧ q <+: p ∧ s.Carries p := by
  rw [expand, node]
  simp only
  rw [List.mem_map]
  constructor
  · rintro ⟨place, found, rfl⟩
    rw [List.mem_filter, FileTree.mem_below_iff] at found
    obtain ⟨⟨⟨rest, rfl⟩, there⟩, plain⟩ := found
    rw [List.append_assoc] at there plain ⊢
    rw [List.drop_left]
    simp only [Bool.and_eq_true, Bool.not_eq_true', bne_iff_ne, beq_iff_eq] at plain
    obtain ⟨⟨noFolder, some⟩, ends⟩ := plain
    have file : s.IsFile (q ++ rest) := isFile_iff.2 ⟨there, noFolder⟩
    rw [formed.extension_append file] at ends
    exact ⟨file, List.prefix_append q rest, some, ends⟩
  · rintro ⟨file, ⟨rest, rfl⟩, some, ends⟩
    obtain ⟨there, noFolder⟩ := isFile_iff.1 file
    refine ⟨s.base ++ (q ++ rest), ?_, List.drop_left⟩
    rw [List.mem_filter, FileTree.mem_below_iff]
    refine ⟨⟨⟨rest, List.append_assoc ..⟩, there⟩, ?_⟩
    rw [formed.extension_append file, ends]
    simp [noFolder, some]

/-- A place that was found stands for itself if it is a file, and for the files below it that have the
extension if it is a folder. -/
lemma mem_expand_iff (formed : s.WellFormed) :
    p ∈ s.expand q ↔ s.IsFile p ∧ (q = p ∨ s.node? q = some .folder ∧ q <+: p ∧ s.Carries p) := by
  cases node : s.node? q with
  | none =>
    rw [expand, node]
    simp only [List.not_mem_nil, reduceCtorEq, false_and, or_false, false_iff]
    rintro ⟨file, rfl⟩
    have there := file.isSome
    rw [node] at there
    cases there
  | some n =>
    cases n with
    | file bytes =>
      rw [expand, node]
      simp only [List.mem_singleton, Option.some.injEq, reduceCtorEq, false_and, or_false]
      constructor
      · rintro rfl
        exact ⟨⟨bytes, node⟩, rfl⟩
      · rintro ⟨-, same⟩
        exact same.symm
    | folder =>
      rw [mem_expand_folder formed node]
      simp only [true_and]
      constructor
      · rintro ⟨file, below⟩
        exact ⟨file, .inr below⟩
      · rintro ⟨file, rfl | below⟩
        · exact absurd node file.ne_folder
        · exact ⟨file, below⟩

/-! ### What is selected -/

/-- The files that the search leads to: what the segments describe, and where the base is found, all files
that have the extension. -/
lemma mem_flatMap_expand_iff (formed : s.WellFormed) {segments : List String}
    (names : ∀ segment ∈ segments, IsName segment) {places : List Place}
    (found : ∀ q, q ∈ places ↔ (s.node? q).isSome = true ∧ plainFront segments <+: q ∧
      Matches segments (Text.splitAt '/' (placeText q))) :
    p ∈ places.flatMap s.expand ↔
      s.Described segments p ∨ Matches segments ["."] ∧ s.IsFile p ∧ s.Carries p := by
  simp only [List.mem_flatMap, mem_expand_iff formed, found]
  constructor
  · rintro ⟨q, ⟨node, -, matched⟩, file, way⟩
    by_cases base : q = []
    · subst base
      rcases way with same | ⟨-, -, carries⟩
      · exact absurd same.symm (formed.ne_nil_of_isFile file)
      · exact .inr ⟨matched, file, carries⟩
    · rw [splitAt_placeText (formed.names node) base] at matched
      rcases way with rfl | ⟨folder, le, carries⟩
      · exact .inl ⟨file, .inl matched⟩
      · refine .inl ⟨file, .inr ⟨carries, q, le, ?_, base, matched⟩⟩
        rintro rfl
        exact file.ne_folder folder
  · rintro (⟨file, matched | ⟨carries, q, le, ne, below, matched⟩⟩ | ⟨matched, file, carries⟩)
    · refine ⟨p, ⟨file.isSome, matched.front_isPrefix, ?_⟩, file, .inl rfl⟩
      rwa [splitAt_placeText (formed.names file.isSome) (formed.ne_nil_of_isFile file)]
    · have folder := formed.node?_of_prefix file.isSome le ne
      have node := formed.isSome_of_prefix file.isSome le
      refine ⟨q, ⟨node, matched.front_isPrefix, ?_⟩, file, .inr ⟨folder, le, carries⟩⟩
      rwa [splitAt_placeText (formed.names node) below]
    · have start := matched.front_eq_nil names
      refine ⟨[], ⟨?_, ?_, matched⟩, file, .inr ⟨formed.node?_base, List.nil_prefix, carries⟩⟩
      · rw [formed.node?_base]
        rfl
      · rw [start]

/-- Nothing is described where nothing stands at the start of the search. -/
lemma not_described_of_node?_eq_none (formed : s.WellFormed) {segments : List String}
    (none : s.node? (plainFront segments) = none) : ¬ s.Described segments p := by
  rintro ⟨file, described⟩
  have absent {q : Place} (le : q <+: p) (matched : Matches segments q) : False := by
    have start := formed.isSome_of_prefix file.isSome (matched.front_isPrefix.trans le)
    rw [none] at start
    cases start
  rcases described with matched | ⟨-, q, le, -, -, matched⟩
  · exact absent List.prefix_rfl matched
  · exact absent le matched

lemma select_of_double_star {pattern : String} (stars : hasDoubleStar pattern.toList = true)
    (valid : ∀ segment ∈ Text.splitAt '/' pattern, (Glob.parse? segment.toList).isSome = true) :
    s.select pattern = s.search (Text.splitAt '/' pattern) := by
  have readable : ((Text.splitAt '/' pattern).any fun segment =>
      (Glob.parse? segment.toList).isNone) = false := by
    rw [List.any_eq_false]
    intro segment hs
    have := valid segment hs
    simpa [Option.isNone_iff_eq_none, ← Option.isSome_iff_ne_none] using this
  rw [select]
  simp only [readable, stars, Bool.false_eq_true, if_false, if_true]

/-- **What a double star selects.** Let a pattern have `**`, and let its segments be well written and neither
empty nor `.` nor `..`. Then the files that it selects are those that match it, those with the extension that
lie in a folder below the base that matches it, and, if the single name `.` matches it, all files that have
the extension: the search calls the base by this name. Only where it looks at something that cannot be
reached is the search refused, and then the pattern describes no file. -/
theorem double_star_selects (formed : s.WellFormed) {pattern : String}
    (stars : hasDoubleStar pattern.toList = true)
    (valid : ∀ segment ∈ Text.splitAt '/' pattern,
      (Glob.parse? segment.toList).isSome = true ∧ segment ≠ "" ∧ segment ≠ "." ∧ segment ≠ "..") :
    let segments := Text.splitAt '/' pattern
    (∃ files missing, s.collect [pattern] = .ok (files, missing) ∧
      ∀ p, p ∈ files ↔
        s.Described segments p ∨ Matches segments ["."] ∧ s.IsFile p ∧ s.Carries p) ∨
    s.strict = true ∧ (∃ e, s.collect [pattern] = .error e) ∧ ∀ p, ¬ s.Described segments p := by
  intro segments
  have names : ∀ segment ∈ segments, IsName segment := by
    intro segment hs
    obtain ⟨-, empty, here, up⟩ := valid segment hs
    obtain ⟨cs, hcs, rfl⟩ := List.mem_map.1 hs
    refine ⟨empty, here, up, ?_⟩
    rw [String.toList_ofList]
    exact Ddl.not_mem_of_mem_splitList hcs
  have selects := select_of_double_star (s := s) stars fun segment hs => (valid segment hs).1
  rcases search_cases formed names with ⟨places, search, found⟩ | ⟨strict, ⟨fault, search⟩, none⟩
  · refine .inl ⟨places.flatMap s.expand, if (places.flatMap s.expand).isEmpty then [pattern] else [], ?_,
      fun p => mem_flatMap_expand_iff formed names found⟩
    rw [collect, selects, search]
    simp only [collect, bind, Except.bind, pure, Except.pure, List.append_nil]
  · refine .inr ⟨strict, ⟨.badPattern pattern fault, ?_⟩, fun p => not_described_of_node?_eq_none formed none⟩
    rw [collect, selects, search]

/-- Documents in nested folders, a note beside one of them, and a document whose name starts with a dot. -/
def archive : Source where
  tree := ⟨[([".draft.erd"], []), (["db", "users.erd"], []), (["db", "old", "posts.erd"], []),
    (["db", "old", "notes.txt"], [])], [["db"], ["db", "old"]]⟩
  base := []

lemma wellFormed_archive : archive.WellFormed where
  tree := .of_inits (by decide) (by decide)
  base := rfl
  usable := nofun

/-- A folder that matches stands for its documents. -/
theorem double_star_selects_of_archive :
    archive.WellFormed ∧ hasDoubleStar "**/o?d".toList = true ∧
      (∀ segment ∈ Text.splitAt '/' "**/o?d",
        (Glob.parse? segment.toList).isSome = true ∧ segment ≠ "" ∧ segment ≠ "." ∧ segment ≠ "..") ∧
      (∀ p, archive.Described ["**", "o?d"] p ↔ p = ["db", "old", "posts.erd"]) := by
  have valid : ∀ segment ∈ Text.splitAt '/' "**/o?d",
      (Glob.parse? segment.toList).isSome = true ∧ segment ≠ "" ∧ segment ≠ "." ∧ segment ≠ ".." := by
    decide +kernel
  have segments : Text.splitAt '/' "**/o?d" = ["**", "o?d"] := by decide
  refine ⟨wellFormed_archive, by decide, valid, fun p => ?_⟩
  rcases double_star_selects wellFormed_archive (by decide) valid with
    ⟨files, missing, collected, selected⟩ | ⟨strict, -, -⟩
  · have all : (archive.collect ["**/o?d"]).toOption = some ([["db", "old", "posts.erd"]], []) := by
      decide +kernel
    have files : files = [["db", "old", "posts.erd"]] := by
      rw [collected] at all
      exact congrArg Prod.fst (Option.some.inj all)
    have base : ¬ Matches ["**", "o?d"] ["."] := by
      decide +kernel
    simpa [files, segments, base] using (selected p).symm
  · cases strict

/-- A pattern for the names that start with a dot selects every document, also those in folders that do
not match. -/
theorem dot_pattern_selects_all :
    archive.WellFormed ∧ hasDoubleStar "**/.*".toList = true ∧
      (∀ segment ∈ Text.splitAt '/' "**/.*",
        (Glob.parse? segment.toList).isSome = true ∧ segment ≠ "" ∧ segment ≠ "." ∧ segment ≠ "..") ∧
      (∃ files, archive.collect ["**/.*"] = .ok (files, []) ∧ ["db", "users.erd"] ∈ files) ∧
      ¬ archive.Described (Text.splitAt '/' "**/.*") ["db", "users.erd"] := by
  refine ⟨wellFormed_archive, by decide, by decide +kernel, ?_, ?_⟩
  · have all : (archive.collect ["**/.*"]).toOption = some
        ([[".draft.erd"], ["db", "users.erd"], ["db", "old", "posts.erd"], [".draft.erd"]], []) := by
      decide +kernel
    cases collected : archive.collect ["**/.*"] with
    | error e => simp [collected, Except.toOption] at all
    | ok found =>
      rw [collected] at all
      obtain rfl := Option.some.inj all
      exact ⟨_, rfl, by decide⟩
  · have segments : Text.splitAt '/' "**/.*" = ["**", ".*"] := by decide
    rw [segments]
    rintro ⟨-, matched | ⟨-, q, le, ne, some, matched⟩⟩
    · revert matched
      decide +kernel
    · have proper : ∀ q ∈ List.inits ["db", "users.erd"], q ≠ ["db", "users.erd"] → q ≠ [] →
          ¬ Matches ["**", ".*"] q := by
        decide +kernel
      exact proper q ((List.mem_inits q _).2 le) ne some matched

end Source

end FileSet

end ErdSql
