import ErdSql.Proofs.Paths

/-!
# Scripts in the arrangement of their documents

The search for the common folder of documents climbs from the folder of the first one until the next
document lies in the folder. It ends in the deepest folder that contains all documents, and below the output
folder each script takes the place that its document has below this folder.

* `Path.Splits`: a name and its extension.
* `Path.splits_name`: the extension of a name is cut off at its last point.
* `Path.IsAbove`: a folder contains a path.
* `Generation.scripts_mirror_documents`: the common folder, and where the scripts lie.
-/

namespace ErdSql

namespace Path

/-! ### Extensions of names -/

/-- A name is a stem and an extension. The extension starts with the last point of the name; a name without
a point has none. -/
def Splits (name stem extension : String) : Prop :=
  name = stem ++ extension ∧
    (extension = "" ∧ '.' ∉ name.toList ∨ ∃ tail, extension = "." ++ tail ∧ '.' ∉ tail.toList)

lemma extension_of_notMem {name : String} (slash : '/' ∉ name.toList) (point : '.' ∉ name.toList) :
    extension name = "" := by
  have plain : ∀ c ∈ name.toList.reverse, (c != '.') = true := fun c hc =>
    bne_iff_ne.2 fun same => point (same ▸ List.mem_reverse.1 hc)
  rw [extension, Text.splitAt_of_not_mem slash]
  simp [List.span_eq_takeWhile_dropWhile, List.dropWhile_eq_nil_iff.2 plain]

lemma extension_of_append {name : String} (slash : '/' ∉ name.toList) {front tail : List Char}
    (whole : name.toList = front ++ '.' :: tail) (last : '.' ∉ tail) :
    extension name = String.ofList ('.' :: tail) := by
  have plain : ∀ c ∈ tail.reverse, (c != '.') = true := fun c hc =>
    bne_iff_ne.2 fun same => last (same ▸ List.mem_reverse.1 hc)
  rw [extension, Text.splitAt_of_not_mem slash]
  simp [whole, List.span_eq_takeWhile_dropWhile, List.takeWhile_append_of_pos plain,
    List.dropWhile_append_of_pos plain]

/-- A name loses its extension. -/
lemma splits_name {name : String} (slash : '/' ∉ name.toList) :
    Splits name (withoutExtension name) (extension name) := by
  by_cases point : '.' ∈ name.toList
  · obtain ⟨tail, front, turned, first⟩ := List.eq_append_cons_of_mem (List.mem_reverse.2 point)
    have last : '.' ∉ tail.reverse := fun mem => first (List.mem_reverse.1 mem)
    have whole : name.toList = front.reverse ++ '.' :: tail.reverse := by
      rw [← List.reverse_reverse name.toList, turned]
      simp
    have ends := extension_of_append slash whole last
    have stem : withoutExtension name = String.ofList front.reverse := by
      rw [withoutExtension, ends, String.length_ofList, ← String.length_toList, whole, List.length_append,
        Nat.add_sub_cancel, List.take_left' rfl]
    refine ⟨?_, .inr ⟨String.ofList tail.reverse, ?_, by rwa [String.toList_ofList]⟩⟩
    · rw [← String.toList_inj, stem, ends, String.toList_append, String.toList_ofList, String.toList_ofList,
        whole]
    · rw [ends, ← String.toList_inj]
      simp
  · have none := extension_of_notMem slash point
    refine ⟨?_, .inl ⟨none, point⟩⟩
    rw [withoutExtension, none, String.append_empty, String.length_empty, Nat.sub_zero,
      ← String.length_toList, List.take_length, String.ofList_toList]

/-! ### Containment -/

/-- A folder contains a path, at any depth. -/
def IsAbove (dir p : Path) : Prop :=
  dir.rooted = p.rooted ∧ ∃ below, below ≠ [] ∧ p.parts = dir.parts ++ below

/-- A text is the shortest spelling of a rooted path that leads to something below the root. -/
structure SpellsFile (s : String) : Prop where
  rooted : isRooted s = true
  shortest : (ofText s).text = s
  below : (ofText s).parts ≠ []

end Path

namespace Generation

open ErdSql.Path (IsName IsAbove SpellsFile Splits)

section Documents
variable {files : List String} (spelled : ∀ f ∈ files, SpellsFile f)
include spelled

lemma rooted_of_spelled : ∀ p ∈ files.map Path.ofText, p.rooted = true :=
  List.forall_mem_map.2 fun f hf => (spelled f hf).rooted

lemma isName_of_spelled : ∀ p ∈ files.map Path.ofText, ∀ s ∈ p.parts, IsName s :=
  List.forall_mem_map.2 fun f hf => Path.isName_of_mem_ofText (spelled f hf).rooted

lemma rooted_commonDir (some : files ≠ []) : (commonDir (files.map Path.ofText)).rooted = true := by
  obtain ⟨-, -, top, -⟩ := exists_commonDir (rooted_of_spelled spelled) (isName_of_spelled spelled)
    (by simpa using some)
  exact top

/-- Documents of which none lies below another lie below their common folder. -/
lemma exists_place (apart : ∀ f ∈ files, ∀ g ∈ files, ¬ (Path.ofText f).IsAbove (Path.ofText g)) {f : String}
    (hf : f ∈ files) :
    ∃ rest, rest ≠ [] ∧ Path.ofText f = ⟨true, (commonDir (files.map Path.ofText)).parts ++ rest⟩ := by
  have rooted := rooted_of_spelled spelled
  have separate : ∀ p ∈ files.map Path.ofText, ∀ q ∈ files.map Path.ofText,
      p.parts <+: q.parts → p.parts = q.parts := by
    intro p hp q hq le
    obtain ⟨f, hf, rfl⟩ := List.mem_map.1 hp
    obtain ⟨g, hg, rfl⟩ := List.mem_map.1 hq
    obtain ⟨rest, whole⟩ := le
    by_contra differ
    refine apart f hf g hg ⟨(rooted _ hp).trans (rooted _ hq).symm, rest, ?_, whole.symm⟩
    rintro rfl
    exact differ (by rw [← whole, List.append_nil])
  have hp := List.mem_map_of_mem (f := Path.ofText) hf
  obtain ⟨rest, ne, whole⟩ := commonDir_prefix rooted (isName_of_spelled spelled) separate
    (List.forall_mem_map.2 fun f hf => (spelled f hf).below) hp
  refine ⟨rest, ne, ?_⟩
  rw [← rooted _ hp, ← whole]

/-- A folder that contains all documents is the common folder or contains it. -/
lemma eq_or_isAbove_commonDir (some : files ≠ []) {other : Path}
    (contains : ∀ f ∈ files, other.IsAbove (Path.ofText f)) :
    other = commonDir (files.map Path.ofText) ∨ other.IsAbove (commonDir (files.map Path.ofText)) := by
  obtain ⟨f, hf⟩ := List.exists_mem_of_ne_nil files some
  have root : other.rooted = (commonDir (files.map Path.ofText)).rooted := by
    rw [(contains f hf).1, rooted_commonDir spelled some]
    exact (spelled f hf).rooted
  obtain ⟨rest, whole⟩ := prefix_commonDir (rooted_of_spelled spelled) (isName_of_spelled spelled)
    (by simpa using some) (List.forall_mem_map.2 fun f hf => (contains f hf).2)
  by_cases same : rest = []
  · refine .inl ?_
    rw [same, List.append_nil] at whole
    show Path.mk other.rooted other.parts = _
    rw [root, whole]
  · exact .inr ⟨root, rest, same, whole.symm⟩

end Documents

/-- Below the output folder a script lies as its document lies below a folder. -/
lemma exists_script {dir p : Path} (rooted : dir.rooted = true) {rest : List String} (some : rest ≠ [])
    (place : p = ⟨true, dir.parts ++ rest⟩) (names : ∀ s ∈ p.parts, IsName s) (out : Path) :
    ∃ dirs name stem extension, rest = dirs ++ [name] ∧ Splits name stem extension ∧
      outputPath out dir p = ⟨out.rooted, out.parts ++ (dirs ++ [stem ++ scriptExtension])⟩ ∧
      ∀ s ∈ dirs ++ [stem ++ scriptExtension], IsName s := by
  obtain ⟨dirs, name, rfl⟩ : ∃ dirs name, rest = dirs ++ [name] :=
    ⟨_, _, (List.dropLast_append_getLast some).symm⟩
  have named : ∀ s ∈ dirs ++ [name], IsName s := fun s hs =>
    names s (place ▸ List.mem_append_right _ hs)
  have slash := (named name (by simp)).slash
  refine ⟨dirs, name, Path.withoutExtension name, Path.extension name, rfl, Path.splits_name slash, ?_, ?_⟩
  · have folder : dir = ⟨true, dir.parts⟩ := by rw [← rooted]
    rw [place]
    conv_lhs => rw [folder]
    exact outputPath_below out true dir.parts dirs name named
  · intro s hs
    rcases List.mem_append.1 hs with hs | hs
    · exact named s (List.mem_append_left _ hs)
    · rw [List.mem_singleton.1 hs]
      exact isName_script slash

/-- **Scripts mirror documents.** Let none of some documents, given by clean absolute paths, lie below
another. Then their common folder contains all of them, and every folder that does is this one or contains
it. Below any output folder the script of a document lies as the document lies below the common folder, with
the extension of scripts in place of its own, so no script lies outside the output folder. -/
theorem scripts_mirror_documents {files : List String} (some : files ≠ [])
    (spelled : ∀ f ∈ files, SpellsFile f)
    (apart : ∀ f ∈ files, ∀ g ∈ files, ¬ (Path.ofText f).IsAbove (Path.ofText g)) :
    let dir := commonDir (files.map Path.ofText)
    (∀ f ∈ files, dir.IsAbove (Path.ofText f)) ∧
    (∀ other : Path, (∀ f ∈ files, other.IsAbove (Path.ofText f)) → other = dir ∨ other.IsAbove dir) ∧
    ∀ (out : Path), ∀ f ∈ files, ∃ dirs name stem extension,
      f = (Path.mk true (dir.parts ++ (dirs ++ [name]))).text ∧ Splits name stem extension ∧
      outputPath out dir (Path.ofText f) = ⟨out.rooted, out.parts ++ (dirs ++ [stem ++ ".sql"])⟩ ∧
      (∀ s ∈ dirs ++ [stem ++ ".sql"], IsName s) ∧ out.IsAbove (outputPath out dir (Path.ofText f)) := by
  intro dir
  have rooted : dir.rooted = true := rooted_commonDir spelled some
  refine ⟨fun f hf => ?_, fun other contains => eq_or_isAbove_commonDir spelled some contains,
    fun out f hf => ?_⟩
  · obtain ⟨rest, ne, place⟩ := exists_place spelled apart hf
    rw [place]
    exact ⟨rooted, rest, ne, rfl⟩
  · obtain ⟨rest, ne, place⟩ := exists_place spelled apart hf
    have names := isName_of_spelled spelled _ (List.mem_map_of_mem hf)
    obtain ⟨dirs, name, stem, extension, rfl, splits, script, named⟩ :=
      exists_script rooted ne place names out
    refine ⟨dirs, name, stem, extension, ?_, splits, script, named, ?_⟩
    · rw [← place, (spelled f hf).shortest]
    · rw [script]
      exact ⟨rfl, _, by simp, rfl⟩

/-- Documents beside folders whose names start with points and with each other, one of them without an
extension and one with nothing else. -/
theorem scripts_mirror_documents_of_points :
    let files := ["/srv/..data/a.b.erd", "/srv/..data-2/c", "/srv/.erd"]
    (∀ f ∈ files, SpellsFile f) ∧
      (∀ f ∈ files, ∀ g ∈ files, ¬ (Path.ofText f).IsAbove (Path.ofText g)) ∧
      commonDir (files.map Path.ofText) = ⟨true, ["srv"]⟩ ∧
      (Path.mk true ["srv"]).IsAbove (Path.ofText "/srv/.erd") ∧
      (∀ f ∈ files, (Path.ofText "out").IsAbove
        (outputPath (Path.ofText "out") ⟨true, ["srv"]⟩ (Path.ofText f))) ∧
      files.map (fun f => (outputPath (Path.ofText "out") ⟨true, ["srv"]⟩ (Path.ofText f)).text) =
        ["out/..data/a.b.sql", "out/..data-2/c.sql", "out/.sql"] := by
  intro files
  have spelled : ∀ f ∈ files, SpellsFile f := by
    have all : ∀ f ∈ files, Path.isRooted f = true ∧ (Path.ofText f).text = f ∧ (Path.ofText f).parts ≠ [] := by
      decide
    exact fun f hf => ⟨(all f hf).1, (all f hf).2.1, (all f hf).2.2⟩
  have apart : ∀ f ∈ files, ∀ g ∈ files, ¬ (Path.ofText f).IsAbove (Path.ofText g) := by
    have short : ∀ f ∈ files, ∀ g ∈ files, ¬ (Path.ofText f).parts.isPrefixOf (Path.ofText g).parts = true ∨
        (Path.ofText f).parts = (Path.ofText g).parts := by
      decide
    rintro f hf g hg ⟨-, below, ne, whole⟩
    rcases short f hf g hg with apart | same
    · exact apart (List.isPrefixOf_iff_prefix.2 ⟨below, whole.symm⟩)
    · exact ne (by simpa [same] using whole)
  have dir : commonDir (files.map Path.ofText) = ⟨true, ["srv"]⟩ := by decide +kernel
  obtain ⟨above, -, scripts⟩ := scripts_mirror_documents (by simp [files]) spelled apart
  rw [dir] at above scripts
  refine ⟨spelled, apart, dir, above _ (by simp [files]), fun f hf => ?_, by decide +kernel⟩
  obtain ⟨-, -, -, -, -, -, -, -, below⟩ := scripts (Path.ofText "out") f hf
  exact below

end Generation

end ErdSql
