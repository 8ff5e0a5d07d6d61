import ErdSql.Overlay.Reader
import ErdSql.Proofs.Caching

/-!
# Overlays at other paths

What the path of an overlay has to do with a compilation. The overlay is read from bytes, which may stand
in any file. The path of the file is the place of the findings about the overlay, and nothing else depends
on it.

* `Overlay.readBytes_movedTo`: the path is all that differs between overlays that are read from the same
  bytes.
* `Overlay.check_movedTo_eq_iff`: when the findings show it.
* `Compilation.Call.result_movedTo_eq_iff`: when the result of a compilation shows it.
-/

namespace ErdSql

/-- The diagnostic with its place in another file. -/
def Diagnostic.movedTo (d : Diagnostic) (path : String) : Diagnostic :=
  { d with location := { d.location with path } }

namespace Overlay

/-- The overlay as it is read from another file with the same content. -/
def movedTo (o : Overlay) (path : String) : Overlay := { o with path }

/-- An overlay that is read from a file has the path of the file. -/
lemma path_of_readBytes {path : String} {bytes : List UInt8} {o : Overlay}
    (h : readBytes path bytes = .ok o) : o.path = path := by
  rw [readBytes] at h
  split at h
  · rw [read] at h
    split at h
    · cases h
    · cases h
      rfl
    · split at h
      · cases h
      · cases h
        rfl
      · cases h
  · cases h

/-- Files with the same bytes hold the same overlay, but for its path. -/
lemma readBytes_movedTo {path : String} {bytes : List UInt8} {o : Overlay}
    (h : readBytes path bytes = .ok o) (other : String) : readBytes other bytes = .ok (o.movedTo other) := by
  rw [readBytes] at h ⊢
  cases decoded : Text.decode? bytes with
  | none =>
    rw [decoded] at h
    cases h
  | some cs =>
    rw [decoded] at h
    simp only [read] at h ⊢
    split at h
    · cases h
    · cases h
      rfl
    · split at h
      · cases h
      · cases h
        rfl
      · cases h

/-! ### Findings -/

lemma check_movedTo (o : Overlay) (path : String) (s : Schema) :
    (o.movedTo path).check s = (o.check s).map (·.movedTo path) := by
  rw [check, check, List.map_flatMap]
  refine List.flatMap_congr fun name _ => ?_
  rw [show (o.movedTo path).entity? name = o.entity? name from rfl]
  split
  · rfl
  · split
    · rfl
    · rw [List.map_map]
      rfl

/-- A finding about an overlay stands in the file of the overlay. -/
lemma path_of_mem_check {o : Overlay} {s : Schema} {d : Diagnostic} (hd : d ∈ o.check s) :
    d.location.path = o.path := by
  obtain ⟨name, -, hd⟩ := List.mem_flatMap.1 hd
  split at hd
  · rw [List.mem_singleton.1 hd]
    rfl
  · split at hd
    · cases hd
    · obtain ⟨column, -, rfl⟩ := List.mem_map.1 hd
      rfl

/-- An overlay at another path has other findings, if it has any. -/
lemma check_movedTo_eq_iff {o : Overlay} {path : String} {s : Schema} :
    (o.movedTo path).check s = o.check s ↔ path = o.path ∨ o.check s = [] := by
  constructor
  · intro same
    refine or_iff_not_imp_right.2 fun some => ?_
    obtain ⟨d, hd⟩ := List.exists_mem_of_ne_nil _ some
    have moved : d ∈ (o.movedTo path).check s := same ▸ hd
    exact (path_of_mem_check moved).symm.trans (path_of_mem_check hd)
  · rintro (rfl | none)
    · rfl
    · rw [check_movedTo, none]
      rfl

end Overlay

/-! ### Results -/

namespace Compilation.Call

/-- The call with its overlay at another path. -/
def movedTo (c : Call) (path : String) : Call :=
  { c with options := { c.options with overlay := c.options.overlay.movedTo path } }

/-- What a call finds about its overlay. -/
def overlayFindings (c : Call) : List Diagnostic :=
  c.options.overlay.check (analyse c.path c.src c.options).1

/-- Keys do not show the path of the overlay. -/
lemma Alike.result_eq_movedTo {c c' : Call} (h : Alike c' c) {path : String}
    (overlay : c'.options.overlay = c.options.overlay.movedTo path)
    (plugins : c'.options.plugins = c.options.plugins) : c'.result = (c.movedTo path).result := by
  have alike : Alike c' (c.movedTo path) :=
    ⟨h.path, h.src, h.dialect, h.ifNotExists, h.lint, h.header, h.keywords, h.fingerprint⟩
  refine alike.result_eq ⟨overlay, ?_⟩
  rw [plugins]
  exact ⟨rfl, fun _ => rfl⟩

variable (c : Call) (path : String)

lemma generate_movedTo (s : Schema) :
    Ddl.generate (generateOptions (c.movedTo path).options) s =
      Ddl.generate (generateOptions c.options) s := rfl

/-- The findings about the overlay stand between others, which do not depend on the path. -/
lemma exists_analyse_movedTo : ∃ front behind,
    (analyse c.path c.src c.options).2 = front ++ c.overlayFindings ++ behind ∧
    ∀ path, analyse c.path c.src (c.movedTo path).options =
      ((analyse c.path c.src c.options).1, front ++ c.overlayFindings.map (·.movedTo path) ++ behind) := by
  refine ⟨_, _, rfl, fun path => ?_⟩
  rw [overlayFindings, ← Overlay.check_movedTo]
  rfl

/-- What a result owes to the overlay: findings between others. The path shows in their places, and the
script does not depend on it. -/
lemma exists_result_movedTo : ∃ front behind,
    c.result.diagnostics = front ++ c.overlayFindings ++ behind ∧
    ∀ path, (c.movedTo path).result = { c.result with
      diagnostics := front ++ c.overlayFindings.map (·.movedTo path) ++ behind } := by
  obtain ⟨front, behind, here, moved⟩ := c.exists_analyse_movedTo
  have severity (path : String) (before behind : List Diagnostic) :
      Diagnostic.hasErrors (before ++ c.overlayFindings.map (·.movedTo path) ++ behind) =
        Diagnostic.hasErrors (before ++ c.overlayFindings ++ behind) := by
    simp only [Diagnostic.hasErrors, List.any_append, List.any_map]
    rfl
  have made (path : String) : (c.movedTo path).result =
      (run c.path c.src (c.movedTo path).options).entry := rfl
  have analysed : analyse c.path c.src c.options =
      ((analyse c.path c.src c.options).1, front ++ c.overlayFindings ++ behind) :=
    Prod.ext rfl here
  generalize (analyse c.path c.src c.options).1 = schema at analysed moved
  rw [result]
  simp only [made, run_eq, moved, analysed, generate_movedTo]
  cases Ddl.generate (generateOptions c.options) schema with
  | ok output =>
    refine ⟨front, behind, rfl, fun path => ?_⟩
    simp only [entry, sql, generated, valid, severity]
  | error e =>
    refine ⟨front, behind ++ [generateDiagnostic c.path e], (List.append_assoc ..), fun path => ?_⟩
    simp only [entry, sql, generated, valid, List.append_assoc _ behind, severity]

/-- A result shows the path of the overlay exactly by the findings about it. -/
lemma result_movedTo_eq_iff :
    (c.movedTo path).result = c.result ↔ path = c.options.overlay.path ∨ c.overlayFindings = [] := by
  obtain ⟨front, behind, here, moved⟩ := c.exists_result_movedTo
  have findings : c.overlayFindings.map (·.movedTo path) = c.overlayFindings ↔
      path = c.options.overlay.path ∨ c.overlayFindings = [] := by
    rw [overlayFindings, ← Overlay.check_movedTo, Overlay.check_movedTo_eq_iff]
  rw [moved, ← findings]
  constructor
  · intro same
    have diagnostics := congrArg Cache.Entry.diagnostics same
    rw [here] at diagnostics
    exact (List.append_right_inj _).1 ((List.append_left_inj _).1 diagnostics)
  · intro same
    rw [same, ← here]

end Compilation.Call

end ErdSql
