import ErdSql.FileTree
import ErdSql.Proofs.Paths

/-!
# Changes to file trees

What making folders and writing files leaves as it was. Folders are only ever added, where nothing
stands yet, and a file is only written where no folder stands. So a text that leads to a place keeps
leading there, and a file that is not written over keeps its content.

* `FileTree.Extends`: what one tree keeps of another.
* `FileTree.extends_makePath`, `FileTree.extends_setFile`: what the changes keep.
* `FileTree.Extends.read`: what is read is kept.
* `FileTree.locate_text`: the place that the text of a rooted path names.
-/

namespace ErdSql

/-! ### Computations that may fail -/

section Computations

variable {ε δ α β : Type}

lemma exists_of_bind_eq_ok {x : Except ε α} {f : α → Except ε β} {b : β}
    (h : (x >>= f) = .ok b) : ∃ a, x = .ok a ∧ f a = .ok b := by
  cases x with
  | error e => cases h
  | ok a => exact ⟨a, rfl, h⟩

lemma exists_of_ite_bind_eq_ok {c : Prop} [Decidable c] {x y : Except ε α} {f : α → Except ε β} {b : β}
    (h : (if c then x >>= f else y >>= f) = .ok b) :
    ∃ a, (if c then x else y) = .ok a ∧ f a = .ok b := by
  split at h
  · next yes => simpa only [if_pos yes] using exists_of_bind_eq_ok h
  · next no => simpa only [if_neg no] using exists_of_bind_eq_ok h

lemma of_guard_eq_ok {c : Prop} [Decidable c] {e : ε} {f : Unit → Except ε β} {b : β}
    (h : (if c then throw e >>= f else f ()) = .ok b) : ¬ c ∧ f () = .ok b := by
  split at h
  · cases h
  · next no => exact ⟨no, h⟩

lemma mapError_eq_ok {x : Except ε α} {f : ε → δ} {a : α} : x.mapError f = .ok a ↔ x = .ok a := by
  cases x <;> simp [Except.mapError]

end Computations

namespace FileTree

/-! ### Nodes -/

/-- Entries of other keys may be left out. -/
lemma lookup_filter_of_pos {α β : Type} [BEq α] [LawfulBEq α] {p : α → Bool} {a : α} (h : p a = true)
    (xs : List (α × β)) : (xs.filter fun x => p x.1).lookup a = xs.lookup a := by
  induction xs with
  | nil => rfl
  | cons x xs ih =>
    obtain ⟨b, y⟩ := x
    rw [List.filter_cons]
    split
    · rw [List.lookup_cons, List.lookup_cons, ih]
    · next gone =>
      have differ : (a == b) = false := beq_eq_false_iff_ne.2 fun same => gone (same ▸ h)
      rw [List.lookup_cons, differ, ih]

lemma lookup_filter_ne {α β : Type} [BEq α] [LawfulBEq α] {a b : α} (ne : b ≠ a) (xs : List (α × β)) :
    (xs.filter fun x => x.1 != a).lookup b = xs.lookup b :=
  lookup_filter_of_pos (p := (· != a)) (bne_iff_ne.2 ne) xs

lemma node?_eq_folder_iff {t : FileTree} {p : Place} :
    t.node? p = some .folder ↔ p = [] ∨ p ∈ t.folders := by
  rw [node?]
  split
  · next h => simpa using h
  · next h => simpa using h

lemma node?_eq_file_iff {t : FileTree} {p : Place} {bytes : List UInt8} :
    t.node? p = some (.file bytes) ↔ p ≠ [] ∧ p ∉ t.folders ∧ t.files.lookup p = some bytes := by
  rw [node?]
  split
  · next h =>
    simp only [Bool.or_eq_true, List.isEmpty_iff, List.contains_iff_mem] at h
    simp only [Option.some.injEq, reduceCtorEq, false_iff]
    tauto
  · next h =>
    simp only [Bool.or_eq_true, List.isEmpty_iff, List.contains_iff_mem, not_or] at h
    simp [h]

lemma node?_setFile_self {t : FileTree} {p : Place} (free : t.node? p ≠ some .folder)
    (bytes : List UInt8) : (t.setFile p bytes).node? p = some (.file bytes) := by
  rw [ne_eq, node?_eq_folder_iff, not_or] at free
  exact node?_eq_file_iff.2 ⟨free.1, free.2, by simp [setFile]⟩

lemma node?_setFile_of_ne (t : FileTree) {p q : Place} (ne : q ≠ p) (bytes : List UInt8) :
    (t.setFile p bytes).node? q = t.node? q := by
  rw [node?, node?, setFile, List.lookup_cons, beq_eq_false_iff_ne.2 ne]
  simp only [lookup_filter_ne ne]

/-! ### What a change keeps -/

/-- A tree has the folders of another one, and its files but for some places. -/
structure Extends (touched : Place → Prop) (t t' : FileTree) : Prop where
  folder : ∀ p, t.node? p = some .folder → t'.node? p = some .folder
  file : ∀ p, ¬ touched p → ∀ bytes, t.node? p = some (.file bytes) ↔ t'.node? p = some (.file bytes)

variable {t t' t'' : FileTree} {touched : Place → Prop}

@[refl]
lemma Extends.refl (touched : Place → Prop) (t : FileTree) : Extends touched t t :=
  ⟨fun _ h => h, fun _ _ _ => Iff.rfl⟩

lemma Extends.trans (h : Extends touched t t') (h' : Extends touched t' t'') :
    Extends touched t t'' :=
  ⟨fun p hp => h'.folder p (h.folder p hp),
    fun p hp bytes => (h.file p hp bytes).trans (h'.file p hp bytes)⟩

lemma Extends.mono {wider : Place → Prop} (le : ∀ p, touched p → wider p) (h : Extends touched t t') :
    Extends wider t t' :=
  ⟨h.folder, fun p hp => h.file p fun hp' => hp (le p hp')⟩

/-- Steps that each keep the folders and the files keep them together. -/
lemma Extends.foldl {β : Type} {step : FileTree × β → Path → FileTree × β}
    (h : ∀ start p, Extends touched start.1 (step start p).1) (ps : List Path) (start : FileTree × β) :
    Extends touched start.1 (ps.foldl step start).1 := by
  induction ps generalizing start with
  | nil => exact .refl _ _
  | cons p ps ih => exact (h start p).trans (ih _)

lemma extends_setFile {p : Place} (free : t.node? p ≠ some .folder) (bytes : List UInt8) :
    Extends (· = p) t (t.setFile p bytes) := by
  constructor
  · intro q hq
    have ne : q ≠ p := by
      rintro rfl
      exact free hq
    rwa [node?_setFile_of_ne t ne]
  · intro q hq content
    rw [node?_setFile_of_ne t hq]

/-- A folder that is made takes nobody's place. -/
lemma extends_makeFolder {workingDir p : Path} (made : t.makeFolder workingDir p = .ok t') :
    Extends (fun _ => False) t t' := by
  simp only [makeFolder] at made
  split at made
  · cases made
    rfl
  · cases made
  · cases made
  · next place _ none _ =>
    split at made
    · cases made
    · cases made
      constructor
      · intro q hq
        rw [node?_eq_folder_iff] at hq ⊢
        exact hq.imp_right (List.mem_append_left _)
      · intro q _ bytes
        rw [node?_eq_file_iff, node?_eq_file_iff, List.mem_append, List.mem_singleton, not_or]
        refine ⟨fun h => ⟨h.1, ⟨h.2.1, ?_⟩, h.2.2⟩, fun h => ⟨h.1, h.2.1.1, h.2.2⟩⟩
        rintro rfl
        rw [node?_eq_file_iff.2 h] at none
        cases none

/-- The folders of a path that are made take nobody's place, also if not all can be made. -/
lemma extends_makePath (t : FileTree) (workingDir p : Path) :
    Extends (fun _ => False) t (t.makePath workingDir p).1 := by
  refine Extends.foldl (fun start q => ?_) _ (t, none)
  obtain ⟨t, _ | e⟩ := start
  · simp only
    split
    · next made => exact extends_makeFolder made
    · exact Extends.refl _ _
  · exact Extends.refl _ _

/-! ### What a text leads to -/

lemma Extends.follow (h : Extends touched t t') {here place : Place} {names : List String}
    (found : t.follow here names = .ok place) : t'.follow here names = .ok place := by
  induction names generalizing here with
  | nil => exact found
  | cons name names ih =>
    rw [FileTree.follow] at found ⊢
    cases node : t.node? here with
    | none => simp [node] at found
    | some n =>
      cases n with
      | file bytes => simp [node] at found
      | folder =>
        rw [node] at found
        rw [h.folder here node]
        simp only at found ⊢
        split at found
        · next skip => rw [if_pos skip]; exact ih found
        · next skip =>
          rw [if_neg skip]
          split at found
          · next up => rw [if_pos up]; exact ih found
          · next up =>
            rw [if_neg up]
            split at found
            · cases found
            · next short => rw [if_neg short]; exact ih found

lemma Extends.locate (h : Extends touched t t') {workingDir : Path} {s : String} {place : Place}
    (found : t.locate workingDir s = .ok place) : t'.locate workingDir s = .ok place := by
  rw [FileTree.locate] at found ⊢
  split at found
  · cases found
  · split at found
    · cases found
    · next ne => rw [if_neg ne]; exact h.follow found

/-- A file has been read exactly if its text leads to it. -/
lemma read_eq_ok_iff {workingDir : Path} {s : String} {bytes : List UInt8} :
    t.read workingDir s = .ok bytes ↔
      ∃ p, t.locate workingDir s = .ok p ∧ t.node? p = some (.file bytes) := by
  rw [read, find]
  cases t.locate workingDir s with
  | error fault => simp [bind, Except.bind]
  | ok p =>
    cases node : t.node? p with
    | none => simp [bind, Except.bind, node]
    | some n => cases n <;> simp [bind, Except.bind, node, pure, Except.pure]

/-- A file keeps its content unless it is written over. -/
lemma Extends.read (h : Extends touched t t') {workingDir : Path} {s : String} {bytes : List UInt8}
    (untouched : ∀ p, t.locate workingDir s = .ok p → ¬ touched p)
    (found : t.read workingDir s = .ok bytes) : t'.read workingDir s = .ok bytes := by
  rw [read_eq_ok_iff] at found ⊢
  obtain ⟨p, hp, node⟩ := found
  exact ⟨p, h.locate hp, (h.file p (untouched p hp) bytes).1 node⟩

/-- Following names leads to the place below that has these names. -/
lemma follow_of_isName {here place : Place} {names : List String} (h : ∀ s ∈ names, Path.IsName s)
    (found : t.follow here names = .ok place) : place = here ++ names := by
  induction names generalizing here with
  | nil =>
    cases found
    rw [List.append_nil]
  | cons name names ih =>
    have first := h name List.mem_cons_self
    rw [FileTree.follow] at found
    split at found
    · cases found
    · cases found
    · rw [if_neg (by simp [first.ne_empty, first.ne_here]), if_neg (by simp [first.ne_up])] at found
      split at found
      · cases found
      · rw [ih (fun s hs => h s (List.mem_cons_of_mem name hs)) found, List.append_assoc]
        rfl

/-- Names that end with a proper one lead to a place of this name. -/
lemma getLast?_of_follow {here place : Place} {names : List String} {name : String}
    (last : names.getLast? = some name) (proper : name ≠ "" ∧ name ≠ "." ∧ name ≠ "..")
    (found : t.follow here names = .ok place) : place.getLast? = some name := by
  induction names generalizing here with
  | nil => cases last
  | cons first names ih =>
    rw [FileTree.follow] at found
    split at found
    · cases found
    · cases found
    · cases names with
      | nil =>
        obtain rfl : first = name := Option.some.inj last
        rw [if_neg (by simp [proper.1, proper.2.1]), if_neg (by simp [proper.2.2])] at found
        split at found
        · cases found
        · cases found
          rw [List.getLast?_append]
          rfl
      | cons second names =>
        have last : (second :: names).getLast? = some name := by rwa [List.getLast?_cons_cons] at last
        split at found
        · exact ih last found
        · split at found
          · exact ih last found
          · split at found
            · cases found
            · exact ih last found

lemma getLast?_of_locate {workingDir : Path} {s name : String} {place : Place}
    (last : (Text.splitAt '/' s).getLast? = some name)
    (proper : name ≠ "" ∧ name ≠ "." ∧ name ≠ "..") (found : t.locate workingDir s = .ok place) :
    place.getLast? = some name := by
  rw [locate] at found
  split at found
  · cases found
  · split at found
    · cases found
    · exact getLast?_of_follow last proper found

/-- The text of a rooted path names the place that the parts of the path name. -/
lemma locate_text {workingDir p : Path} {place : Place} (rooted : p.rooted = true)
    (h : ∀ s ∈ p.parts, Path.IsName s) (found : t.locate workingDir p.text = .ok place) :
    place = p.parts := by
  rw [locate] at found
  split at found
  · cases found
  · split at found
    · cases found
    · rw [if_pos (Path.isRooted_text rooted)] at found
      by_cases ne : p.parts = []
      · rw [Path.text_of_rooted rooted, ne] at found
        rw [ne]
        simpa [Text.join, Text.splitAt, Text.splitList, FileTree.follow, node?, eq_comm] using found
      · rw [Path.splitAt_text rooted h ne, FileTree.follow] at found
        simp only [node?_eq_folder_iff.2 (.inl rfl)] at found
        exact follow_of_isName h (by simpa using found)

lemma target_eq_ok {workingDir : Path} {s : String} {place : Place}
    (h : t.target workingDir s = .ok place) :
    t.locate workingDir s = .ok place ∧ t.node? place ≠ some .folder := by
  rw [target] at h
  obtain ⟨p, found, h⟩ := exists_of_bind_eq_ok h
  obtain ⟨free, h⟩ := of_guard_eq_ok h
  cases h
  exact ⟨found, by simpa [isFolder] using free⟩

end FileTree

end ErdSql
