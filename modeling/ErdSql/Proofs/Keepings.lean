import ErdSql.Generation.World
import ErdSql.Proofs.Caching
import ErdSql.Proofs.FileTrees
import ErdSql.Proofs.Records

/-!
# Where results are kept and where scripts are written

A folder that keeps results has files named by keys, and scripts have other names. So writing scripts
does not change what is kept, and keeping results does not change scripts.

* `Generation.Keeping.Holds`: the places of the files that results are kept in.
* `Generation.Keeping.extends_put`: keeping a result touches such places only.
* `Generation.Writer.toFiles_cases`: what writing a file can do.
* `Generation.Writer.get?_toFiles`: writing scripts leaves kept results alone.
-/

namespace ErdSql

/-! ### Folders -/

namespace Cache

/-- The extension of the files that results are kept in. -/
def recordExtension : String := ".json"

lemma isName_record {key : String} (h : isKey key = true) : Path.IsName (key ++ recordExtension) := by
  rw [isKey, Bool.and_eq_true, decide_eq_true_eq, List.all_eq_true] at h
  have length : (key ++ recordExtension).length ≥ 4 := by
    rw [String.length_append]
    exact Nat.le_add_right_of_le h.1
  have long {s : String} (short : s.length < 4) : key ++ recordExtension ≠ s := by
    rintro rfl
    omega
  refine ⟨long (by decide), long (by decide), long (by decide), ?_⟩
  rw [String.toList_append, List.mem_append, not_or]
  exact ⟨fun slash => absurd (h.2 '/' slash) (by decide), by decide⟩

namespace Folder

/-- The file of a key has the key for its name. -/
lemma getLast?_placeOf {f : Folder} {key : String} {p : Path} (h : f.filePath key = .ok p) :
    (f.placeOf p).getLast? = some (key ++ recordExtension) := by
  rw [filePath] at h
  split at h
  · next valid =>
    cases h
    have name := isName_record valid
    have parts := Path.join_of_isName (List.forall_mem_singleton.2 name)
      (f.dir.join (String.ofList (key.toList.take 2)))
    have last := Path.getLast?_splitAt_text (congrArg Path.parts parts) name.slash
    rw [placeOf, Path.absolute]
    split
    · exact Path.getLast?_join last name.proper _
    · exact Path.getLast?_join last name.proper _
  · cases h

lemma eq_of_placeOf_eq {f : Folder} {key other : String} {p q : Path} (hp : f.filePath key = .ok p)
    (hq : f.filePath other = .ok q) (h : f.placeOf p = f.placeOf q) : key = other := by
  have names := (getLast?_placeOf hp).symm.trans ((congrArg List.getLast? h).trans (getLast?_placeOf hq))
  exact (String.append_left_inj _).1 (Option.some.inj names)

lemma get?_eq_some_iff {f : Folder} {t : FileTree} {key : String} {entry : Entry} :
    f.get? t key = some entry ↔ ∃ p, f.filePath key = .ok p ∧ ∃ bytes,
      t.node? (f.placeOf p) = some (.file bytes) ∧ (Record.read? bytes).map (·.entry) = some entry := by
  rw [get?]
  cases f.filePath key with
  | error e => simp
  | ok p => rcases node : t.node? (f.placeOf p) with _ | bytes | _ <;> simp [node]

lemma extends_of_ensure {f : Folder} {t t' : FileTree} {dir : Path} (h : f.ensure t dir = .ok t') :
    FileTree.Extends (fun _ => False) t t' := by
  have made := FileTree.extends_makePath t f.workingDir dir
  rw [ensure] at h
  split at h
  · next e =>
    cases h
    rwa [e] at made
  · cases h

/-- What keeping an entry does to the files. -/
lemma put_cases {f : Folder} {t t' : FileTree} {now : Instant} {key : String} {entry : Entry}
    (h : f.put t now key entry = .ok t') :
    ∃ p made, f.filePath key = .ok p ∧ FileTree.Extends (fun _ => False) t made ∧
      made.node? (f.placeOf p) ≠ some .folder ∧
      t' = made.setFile (f.placeOf p) (Text.bytes (Record.text ⟨formatVersion, now, entry⟩)) := by
  rw [put] at h
  obtain ⟨p, path, h⟩ := exists_of_bind_eq_ok h
  obtain ⟨made, ensured, h⟩ := exists_of_bind_eq_ok h
  obtain ⟨-, h⟩ := of_guard_eq_ok h
  obtain ⟨free, h⟩ := of_guard_eq_ok h
  cases h
  exact ⟨p, made, path, extends_of_ensure ensured, by simpa [FileTree.isFolder] using free, rfl⟩

end Folder

end Cache

namespace Generation

/-! ### Kept results -/

namespace Keeping

/-- Whether a place is one that results are kept in. -/
def Holds : Keeping → Place → Prop
  | folder f, place => ∃ key p, f.filePath key = .ok p ∧ place = f.placeOf p
  | _, _ => False

variable {σ : Type} {k : Keeping}

lemma exists_of_holds {place : Place} (h : k.Holds place) :
    ∃ key, place.getLast? = some (key ++ Cache.recordExtension) := by
  cases k with
  | nowhere => exact h.elim
  | memory => exact h.elim
  | folder f =>
    obtain ⟨key, p, path, rfl⟩ := h
    exact ⟨key, Cache.Folder.getLast?_placeOf path⟩

/-- What is kept depends on the store and on the files at places that are for it. -/
lemma get?_of_extends {touched : Place → Prop} {w w' : World σ} (store : w'.store = w.store)
    (tree : FileTree.Extends touched w.tree w'.tree) (apart : ∀ place, k.Holds place → ¬ touched place)
    (key : String) : k.get? w' key = k.get? w key := by
  cases k with
  | nowhere => rfl
  | memory => rw [get?, get?, store]
  | folder f =>
    refine Option.ext fun entry => ?_
    rw [get?, get?, Cache.Folder.get?_eq_some_iff, Cache.Folder.get?_eq_some_iff]
    refine exists_congr fun p => and_congr_right fun path => exists_congr fun bytes => ?_
    rw [tree.file (f.placeOf p) (apart _ ⟨key, p, path, rfl⟩)]

/-- Keeping a result touches only places that are for it. -/
lemma extends_put (now : Instant) (w : World σ) (key : String) (entry : Cache.Entry) :
    FileTree.Extends k.Holds w.tree (k.put now w key entry).tree := by
  cases k with
  | nowhere => exact FileTree.Extends.refl _ _
  | memory => exact FileTree.Extends.refl _ _
  | folder f =>
    rw [put]
    split
    · next kept =>
      obtain ⟨p, made, path, folders, free, rfl⟩ := Cache.Folder.put_cases kept
      refine (folders.mono fun _ h => h.elim).trans
        ((FileTree.extends_setFile free _).mono ?_)
      rintro _ rfl
      exact ⟨key, p, path, rfl⟩
    · exact FileTree.Extends.refl _ _

/-- Another key gives what it gave before. -/
lemma get?_put_of_ne (now : Instant) (w : World σ) {key other : String} (ne : other ≠ key)
    (entry : Cache.Entry) : k.get? (k.put now w key entry) other = k.get? w other := by
  cases k with
  | nowhere => rfl
  | memory =>
    rw [put, get?, get?]
    cases w.store with
    | none => rfl
    | some s => exact s.get?_put_of_ne ne entry
  | folder f =>
    rw [put]
    split
    · next tree kept =>
      obtain ⟨p, made, path, folders, free, rfl⟩ := Cache.Folder.put_cases kept
      have touched := (folders.mono fun _ h => h.elim).trans (FileTree.extends_setFile free
        (Text.bytes (Cache.Record.text ⟨Cache.formatVersion, now, entry⟩)))
      refine Option.ext fun e => ?_
      rw [get?, get?, Cache.Folder.get?_eq_some_iff, Cache.Folder.get?_eq_some_iff]
      refine exists_congr fun q => and_congr_right fun path' => exists_congr fun bytes => ?_
      rw [touched.file (f.placeOf q) fun same => ne (Cache.Folder.eq_of_placeOf_eq path' path same)]
    · rfl

/-- What is found under the key of a result that was to be kept is that result, or what was found there
before. -/
lemma eq_of_get?_put {now : Instant} {w : World σ} {key : String} {entry e : Cache.Entry}
    (h : k.get? (k.put now w key entry) key = some e) : e = entry ∨ k.get? w key = some e := by
  cases k with
  | nowhere => exact .inr h
  | memory =>
    rw [put, get?] at h
    cases store : w.store with
    | none =>
      rw [store] at h
      cases h
    | some s =>
      rw [store] at h
      have found : (s.put key entry).get? key = some e := h
      rw [Cache.Store.get?_put_self] at found
      exact .inl (Option.some.inj found).symm
  | folder f =>
    rw [put] at h
    split at h
    · next tree kept =>
      obtain ⟨p, made, path, -, free, rfl⟩ := Cache.Folder.put_cases kept
      obtain ⟨q, path', bytes, node, read⟩ := Cache.Folder.get?_eq_some_iff.1 h
      obtain rfl : p = q := Except.ok.inj (path.symm.trans path')
      rw [FileTree.node?_setFile_self free] at node
      obtain rfl := FileTree.Node.file.inj (Option.some.inj node)
      obtain ⟨r, found, rfl⟩ := Option.map_eq_some_iff.1 read
      exact .inl (Cache.entry_of_read?_text found)
    · exact .inr h

end Keeping

/-! ### Written files -/

/-- A path that ends with the name of a script. -/
def IsScript (path : String) : Prop :=
  ∃ name, (Text.splitAt '/' path).getLast? = some (name ++ scriptExtension)

/-- Scripts have the names of scripts. -/
lemma isScript_outputPath (out root source : Path) : IsScript (outputPath out root source).text := by
  rw [outputPath]
  generalize Path.withoutExtension (placeBelow root source) = stem
  obtain ⟨name, last⟩ := Text.getLast?_splitAt_append stem (t := scriptExtension) (by decide)
  have slash : '/' ∉ (name ++ scriptExtension).toList := by
    obtain ⟨cs, hcs, e⟩ := List.mem_map.1 (List.mem_of_getLast? last)
    rw [← e, String.toList_ofList]
    exact Ddl.not_mem_of_mem_splitList hcs
  obtain ⟨parts, whole⟩ := List.getLast?_eq_some_iff.1 (Path.getLast?_join last (proper_script name) out)
  exact ⟨name, Path.getLast?_splitAt_text whole slash⟩

/-- No result is kept where a script is written. -/
lemma not_holds_of_isScript {k : Keeping} {t : FileTree} {workingDir : Path} {path : String}
    {place : Place} (h : IsScript path) (found : t.locate workingDir path = .ok place) :
    ¬ k.Holds place := by
  intro held
  obtain ⟨name, last⟩ := h
  obtain ⟨key, other⟩ := Keeping.exists_of_holds held
  rw [FileTree.getLast?_of_locate last (proper_script name) found] at other
  have ends := congrArg (fun s => s.toList.getLast?) (Option.some.inj other)
  have script : scriptExtension.toList.getLast? = some 'l' := by decide
  have record : Cache.recordExtension.toList.getLast? = some 'n' := by decide
  simp [String.toList_append, List.getLast?_append, script, record] at ends

/-- What writing a file can do. -/
lemma writeTo_cases (workingDir : Path) (t : FileTree) (path : String) (content : List UInt8) :
    ∃ made, FileTree.Extends (fun _ => False) t made ∧
      ((∃ message, writeTo workingDir t path content = (made, some message)) ∨
        ∃ place, made.target workingDir path = .ok place ∧
          writeTo workingDir t path content = (made.setFile place content, none)) := by
  rw [writeTo]
  split
  · exact ⟨t, FileTree.Extends.refl _ _, .inl ⟨_, rfl⟩⟩
  · refine ⟨_, FileTree.extends_makePath t workingDir (Path.ofText path).dir, ?_⟩
    simp only
    split
    · exact .inl ⟨_, rfl⟩
    · exact .inl ⟨_, rfl⟩
    · next place _ target => exact .inr ⟨place, target, rfl⟩

namespace Writer

variable {σ : Type}

/-- Stops with a message, if there is one. -/
def stopWith : Option String → Action σ Unit
  | some message => throw message
  | none => return

lemma run_stopWith (message : Option String) (w : World σ) :
    (stopWith message).run.run w = (message.elim (.ok ()) .error, w) := by
  cases message <;> rfl

lemma run_toFiles (workingDir : Path) (path : String) (content : List UInt8) (w : World σ) :
    (toFiles workingDir path content).run.run w =
      ((writeTo workingDir w.tree path content).2.elim (.ok ()) .error,
        { w with tree := (writeTo workingDir w.tree path content).1 }) := by
  rw [← run_stopWith, stopWith.eq_def]
  rfl

/-- Writing a script leaves kept results alone. -/
lemma get?_toFiles (k : Keeping) {workingDir : Path} {path : String} (h : IsScript path)
    (content : List UInt8) (w : World σ) (key : String) :
    k.get? ((toFiles workingDir path content).run.run w).2 key = k.get? w key := by
  rw [run_toFiles]
  obtain ⟨made, folders, ⟨message, written⟩ | ⟨place, target, written⟩⟩ :=
    writeTo_cases workingDir w.tree path content
  · have store : { w with tree := made }.store = w.store := rfl
    rw [written]
    exact Keeping.get?_of_extends store folders (fun _ _ h => h) key
  · have store : { w with tree := made.setFile place content }.store = w.store := rfl
    obtain ⟨found, free⟩ := FileTree.target_eq_ok target
    have file : FileTree.Extends (· = place) w.tree (made.setFile place content) :=
      (folders.mono fun _ h => h.elim).trans (FileTree.extends_setFile free content)
    rw [written]
    refine Keeping.get?_of_extends store file ?_ key
    rintro _ held rfl
    exact not_holds_of_isScript h found held

end Writer

end Generation

end ErdSql
