import ErdSql.Generation.Layout
import ErdSql.Proofs.Boundaries

/-!
# Paths and their texts

A rooted path whose parts are names can be told from its text, and going on from a path by a text of
names adds these names. A script takes the place that its document has below the common folder, with
another extension.

* `Path.ofText_text`: a rooted path is the path that its text spells.
* `Path.withoutExtension_join`: only the last part of a text loses its extension.
* `Generation.within_iff`: a path lies in the folders that are on the way to it.
* `Generation.foldl_climb`: climbing ends in the deepest folder.
* `Generation.commonDir_prefix`, `Generation.prefix_commonDir`: the common folder is on the way to every
  path, and no deeper one is.
* `Generation.outputPath_below`: where the script of a document lies.
-/

namespace ErdSql

namespace Text

lemma toList_slash : "/".toList = ['/'] :=
  rfl

lemma join_inj {xs ys : List String} (hx : xs ≠ []) (hy : ys ≠ []) (nx : ∀ x ∈ xs, '/' ∉ x.toList)
    (ny : ∀ y ∈ ys, '/' ∉ y.toList) : join "/" xs = join "/" ys ↔ xs = ys := by
  refine ⟨fun h => ?_, congrArg _⟩
  rw [← splitAt_join toList_slash hx nx, ← splitAt_join toList_slash hy ny, h]

/-- The last of joined texts stands behind a text of its own, which ends with a slash. -/
lemma toList_join_concat (xs : List String) :
    ∃ front : List Char, (∀ x : String, (join "/" (xs ++ [x])).toList = front ++ x.toList) ∧
      (front = [] ∨ ∃ start, front = start ++ ['/']) := by
  induction xs with
  | nil => exact ⟨[], fun x => rfl, .inl rfl⟩
  | cons y xs ih =>
    obtain ⟨front, h, slash⟩ := ih
    refine ⟨y.toList ++ '/' :: front, fun x => ?_, .inr ?_⟩
    · rw [List.append_assoc, List.cons_append, List.cons_append, ← h x]
      cases xs with
      | nil => exact toList_join_cons toList_slash y x []
      | cons z zs => exact toList_join_cons toList_slash y z (zs ++ [x])
    · rcases slash with rfl | ⟨start, rfl⟩
      · exact ⟨y.toList, rfl⟩
      · exact ⟨y.toList ++ '/' :: start, by simp⟩

/-- What is added to a text without a separator is added to its last part. -/
lemma splitList_append_end {separator : Char} {ys : List Char} (h : separator ∉ ys) (xs : List Char) :
    ∃ parts last, splitList separator xs = parts ++ [last] ∧
      splitList separator (xs ++ ys) = parts ++ [last ++ ys] := by
  induction xs with
  | nil => exact ⟨[], [], rfl, Script.splitList_of_not_mem h⟩
  | cons x xs ih =>
    obtain ⟨parts, last, before, behind⟩ := ih
    rw [List.cons_append, splitList, splitList, before, behind]
    split
    · exact ⟨[] :: parts, last, rfl, rfl⟩
    · cases parts with
      | nil => exact ⟨[], x :: last, rfl, rfl⟩
      | cons part parts => exact ⟨(x :: part) :: parts, last, rfl, rfl⟩

/-- A text that goes on without a slash ends with a part that does. -/
lemma getLast?_splitAt_append (s : String) {t : String} (h : '/' ∉ t.toList) :
    ∃ last : String, (splitAt '/' (s ++ t)).getLast? = some (last ++ t) := by
  obtain ⟨parts, last, -, whole⟩ := splitList_append_end h s.toList
  refine ⟨String.ofList last, ?_⟩
  rw [splitAt, String.toList_append, whole, List.map_append, List.getLast?_append]
  simp [String.ofList_append]

/-- The last part of joined texts is the last text. -/
lemma getLast?_splitAt_join (xs : List String) {x : String} (h : '/' ∉ x.toList) :
    (splitAt '/' (join "/" (xs ++ [x]))).getLast? = some x := by
  obtain ⟨front, whole, slash⟩ := toList_join_concat xs
  obtain ⟨parts, last, alone, behind⟩ := splitList_append_end h front
  have blank : last = [] := by
    rcases slash with rfl | ⟨start, rfl⟩
    · cases parts with
      | nil => exact (List.singleton_inj.1 alone).symm
      | cons part parts => simp [splitList] at alone
    · rw [Script.splitList_append_cons] at alone
      exact (List.append_singleton_inj.1 alone).2.symm
  rw [splitAt, whole, behind, blank, List.map_append, List.getLast?_append]
  simp

end Text

namespace Path

/-- What can be a part of a rooted path. -/
structure IsName (s : String) : Prop where
  ne_empty : s ≠ ""
  ne_here : s ≠ "."
  ne_up : s ≠ ".."
  slash : '/' ∉ s.toList

/-! ### Going on from a path -/

lemma step_of_proper {s : String} (h : s ≠ "" ∧ s ≠ "." ∧ s ≠ "..") (rooted : Bool)
    (done : List String) : step rooted done s = s :: done := by
  unfold step
  rw [if_neg (by simp [h.1, h.2.1]), if_neg (by simp [h.2.2])]

lemma IsName.proper {s : String} (h : IsName s) : s ≠ "" ∧ s ≠ "." ∧ s ≠ ".." :=
  ⟨h.ne_empty, h.ne_here, h.ne_up⟩

lemma foldl_step_of_isName {names : List String} (h : ∀ s ∈ names, IsName s) (rooted : Bool)
    (done : List String) : names.foldl (step rooted) done = names.reverse ++ done := by
  induction names generalizing done with
  | nil => rfl
  | cons s names ih =>
    rw [List.foldl_cons, step_of_proper (h s List.mem_cons_self).proper,
      ih fun t ht => h t (List.mem_cons_of_mem s ht), List.reverse_cons, List.append_assoc]
    rfl

/-- A text of names leads to the place below a path that has these names. -/
lemma join_of_isName {names : List String} (h : ∀ s ∈ names, IsName s) (p : Path) :
    p.join (Text.join "/" names) = ⟨p.rooted, p.parts ++ names⟩ := by
  rw [join]
  cases names with
  | nil => simp [Text.join, Text.splitAt, Text.splitList, step]
  | cons s names =>
    rw [Text.splitAt_join Text.toList_slash (List.cons_ne_nil s names) fun t ht => (h t ht).slash,
      foldl_step_of_isName h, List.reverse_append, List.reverse_reverse, List.reverse_reverse]

lemma isName_of_step {done : List String} (h : ∀ s ∈ done, IsName s) {part : String}
    (slash : '/' ∉ part.toList) : ∀ s ∈ step true done part, IsName s := by
  unfold step
  split
  · exact h
  · next plain =>
    rw [Bool.or_eq_true, not_or, beq_iff_eq, beq_iff_eq] at plain
    split
    · cases done with
      | nil => nofun
      | cons last rest =>
        have last_ne : (last == "..") = false := beq_eq_false_iff_ne.2 (h last List.mem_cons_self).ne_up
        simp only [last_ne]
        exact fun s hs => h s (List.mem_cons_of_mem last hs)
    · next up =>
      rw [beq_iff_eq] at up
      rintro s (_ | ⟨_, hs⟩)
      · exact ⟨plain.1, plain.2, up, slash⟩
      · exact h s hs

/-- A rooted path has names for parts, wherever one goes from it. -/
lemma isName_of_mem_join {p : Path} (rooted : p.rooted = true) (h : ∀ s ∈ p.parts, IsName s)
    (text : String) : ∀ s ∈ (p.join text).parts, IsName s := by
  have run (parts done : List String) (slash : ∀ part ∈ parts, '/' ∉ part.toList)
      (hd : ∀ s ∈ done, IsName s) : ∀ s ∈ parts.foldl (step true) done, IsName s := by
    induction parts generalizing done with
    | nil => exact hd
    | cons part parts ih =>
      exact ih _ (fun q hq => slash q (List.mem_cons_of_mem part hq))
        (isName_of_step hd (slash part List.mem_cons_self))
  intro s hs
  rw [join, rooted, List.mem_reverse] at hs
  refine run _ _ ?_ (fun t ht => h t (List.mem_reverse.1 ht)) s hs
  intro part hp
  obtain ⟨cs, hcs, rfl⟩ := List.mem_map.1 hp
  rw [String.toList_ofList]
  exact Ddl.not_mem_of_mem_splitList hcs

/-- A text that ends with a name leads to a path that ends with it. -/
lemma getLast?_join {s name : String} (h : (Text.splitAt '/' s).getLast? = some name)
    (proper : name ≠ "" ∧ name ≠ "." ∧ name ≠ "..") (p : Path) :
    (p.join s).parts.getLast? = some name := by
  obtain ⟨parts, whole⟩ := List.getLast?_eq_some_iff.1 h
  rw [join, whole, List.foldl_append, List.foldl_cons, List.foldl_nil, step_of_proper proper,
    List.reverse_cons, List.getLast?_append]
  rfl

@[simp]
lemma rooted_join (p : Path) (s : String) : (p.join s).rooted = p.rooted := rfl

@[simp]
lemma rooted_ofText (s : String) : (ofText s).rooted = isRooted s := rfl

lemma isName_of_mem_ofText {s : String} (rooted : isRooted s = true) :
    ∀ part ∈ (ofText s).parts, IsName part :=
  isName_of_mem_join rooted (by simp) s

/-- The parts of a path come from the texts it was made from, but for the way up. -/
lemma mem_of_mem_foldl_step {rooted : Bool} {parts done : List String} {s : String}
    (h : s ∈ parts.foldl (step rooted) done) : s ∈ done ∨ s ∈ parts ∨ s = ".." := by
  induction parts generalizing done with
  | nil => exact .inl h
  | cons part parts ih =>
    have one : s ∈ step rooted done part → s ∈ done ∨ s = part ∨ s = ".." := by
      unfold step
      split
      · exact .inl
      · split
        · cases done with
          | nil => cases rooted <;> simp +contextual
          | cons last rest =>
            simp only
            split <;> simp +contextual [or_imp]
        · simp +contextual [or_imp]
    rcases ih h with h | h | h
    · rcases one h with h | h | h
      · exact .inl h
      · exact .inr (.inl (h ▸ List.mem_cons_self))
      · exact .inr (.inr h)
    · exact .inr (.inl (List.mem_cons_of_mem part h))
    · exact .inr (.inr h)

lemma slash_of_mem_ofText {s part : String} (h : part ∈ (ofText s).parts) : '/' ∉ part.toList := by
  rcases mem_of_mem_foldl_step (List.mem_reverse.1 h) with h | h | rfl
  · cases h
  · obtain ⟨cs, hcs, rfl⟩ := List.mem_map.1 h
    rw [String.toList_ofList]
    exact Ddl.not_mem_of_mem_splitList hcs
  · decide

/-! ### Texts of paths -/

lemma text_of_rooted {p : Path} (rooted : p.rooted = true) : p.text = "/" ++ Text.join "/" p.parts := by
  rw [text, if_pos rooted]

lemma isRooted_text {p : Path} (rooted : p.rooted = true) : isRooted p.text = true := by
  rw [text_of_rooted rooted, isRooted, Text.startsWith, String.toList_append]
  rfl

/-- The text of a rooted path starts with an empty part. -/
lemma text_eq_join {p : Path} (rooted : p.rooted = true) (ne : p.parts ≠ []) :
    p.text = Text.join "/" ("" :: p.parts) := by
  rw [text_of_rooted rooted]
  cases hp : p.parts with
  | nil => exact absurd hp ne
  | cons s names => rw [Text.join, String.empty_append]

lemma splitAt_text {p : Path} (rooted : p.rooted = true) (h : ∀ s ∈ p.parts, IsName s)
    (ne : p.parts ≠ []) : Text.splitAt '/' p.text = "" :: p.parts := by
  rw [text_eq_join rooted ne, Text.splitAt_join Text.toList_slash (List.cons_ne_nil _ _)]
  rintro s (_ | ⟨_, hs⟩)
  · exact List.not_mem_nil
  · exact (h s hs).slash

/-- The text of a path ends with its last part. -/
lemma getLast?_splitAt_text {p : Path} {parts : List String} {name : String}
    (h : p.parts = parts ++ [name]) (slash : '/' ∉ name.toList) :
    (Text.splitAt '/' p.text).getLast? = some name := by
  have ne : p.parts ≠ [] := by simp [h]
  cases rooted : p.rooted with
  | true =>
    rw [text_eq_join rooted ne, h, ← List.cons_append]
    exact Text.getLast?_splitAt_join _ slash
  | false =>
    have plain : p.text = Text.join "/" p.parts := by simp [text, rooted, ne]
    rw [plain, h]
    exact Text.getLast?_splitAt_join _ slash

/-- A rooted path is the path that its text spells. -/
lemma ofText_text {p : Path} (rooted : p.rooted = true) (h : ∀ s ∈ p.parts, IsName s) :
    ofText p.text = p := by
  obtain ⟨root, parts⟩ := p
  subst rooted
  cases parts with
  | nil => decide
  | cons s names =>
    rw [ofText, isRooted_text rfl, join, splitAt_text rfl h (List.cons_ne_nil s names), List.foldl_cons,
      foldl_step_of_isName h]
    simp [step]

/-- Paths can be told from their texts. -/
lemma text_inj {rooted : Bool} {xs ys : List String} (hx : xs ≠ []) (hy : ys ≠ [])
    (nx : ∀ x ∈ xs, '/' ∉ x.toList) (ny : ∀ y ∈ ys, '/' ∉ y.toList) :
    (Path.mk rooted xs).text = (Path.mk rooted ys).text ↔ xs = ys := by
  have parts : (Path.mk rooted xs).text = (Path.mk rooted ys).text ↔
      Text.join "/" xs = Text.join "/" ys := by
    cases rooted with
    | true => simp [text]
    | false => simp [text, hx, hy]
  exact parts.trans (Text.join_inj hx hy nx ny)

/-! ### Extensions -/

lemma extension_join {xs : List String} {x : String} (h : ∀ y ∈ xs ++ [x], '/' ∉ y.toList) :
    extension (Text.join "/" (xs ++ [x])) = extension x := by
  rw [extension, extension, Text.splitAt_join Text.toList_slash (by simp) h, Text.splitAt_of_not_mem (h x (by simp)),
    List.getLast?_append]
  rfl

lemma length_extension_le {x : String} (slash : '/' ∉ x.toList) : (extension x).length ≤ x.length := by
  have cut := List.span_eq_takeWhile_dropWhile (p := (· != '.')) (l := x.toList.reverse)
  rw [extension, Text.splitAt_of_not_mem slash]
  split
  · next tail c rest hs =>
    have hs : x.toList.reverse.span (· != '.') = (tail, c :: rest) := hs
    rw [cut, Prod.mk.injEq] at hs
    have total := congrArg List.length (List.takeWhile_append_dropWhile (p := (· != '.'))
      (l := x.toList.reverse))
    rw [hs.1, hs.2, List.length_append, List.length_cons, List.length_reverse] at total
    rw [String.length_ofList, List.length_cons, List.length_reverse, ← String.length_toList]
    omega
  · exact Nat.zero_le _

/-- Only the last part of a text loses its extension. -/
lemma withoutExtension_join {xs : List String} {x : String} (h : ∀ y ∈ xs ++ [x], '/' ∉ y.toList) :
    withoutExtension (Text.join "/" (xs ++ [x])) = Text.join "/" (xs ++ [withoutExtension x]) := by
  obtain ⟨front, whole, -⟩ := Text.toList_join_concat xs
  have short := length_extension_le (h x (by simp))
  have length : (Text.join "/" (xs ++ [x])).length = front.length + x.length := by
    rw [← String.length_toList, whole, List.length_append, String.length_toList]
  have cut : front.length + x.length - (extension x).length =
      front.length + (x.length - (extension x).length) := by omega
  rw [← String.toList_inj, whole, withoutExtension, withoutExtension, extension_join h, length, cut,
    String.toList_ofList, String.toList_ofList, whole, List.take_length_add_append]

lemma withoutExtension_text {xs : List String} {x : String} (h : ∀ y ∈ xs ++ [x], '/' ∉ y.toList) :
    withoutExtension (Path.mk true (xs ++ [x])).text =
      (Path.mk true (xs ++ [withoutExtension x])).text := by
  have slash : ∀ y ∈ "" :: xs ++ [x], '/' ∉ y.toList := by
    rw [List.cons_append]
    exact List.forall_mem_cons.2 ⟨List.not_mem_nil, h⟩
  rw [text_eq_join rfl (by simp), text_eq_join rfl (by simp), ← List.cons_append, ← List.cons_append,
    withoutExtension_join slash]

lemma slash_withoutExtension {x : String} (h : '/' ∉ x.toList) : '/' ∉ (withoutExtension x).toList := by
  rw [withoutExtension, String.toList_ofList]
  exact fun mem => h (List.mem_of_mem_take mem)

end Path

namespace Generation

open ErdSql.Path (IsName)

/-! ### Containment -/

/-- What two lists have in common at the start stands in front of what is left of each. -/
lemma exists_append_dropCommon (xs ys : List String) :
    ∃ common, xs = common ++ (Path.dropCommon xs ys).1 ∧ ys = common ++ (Path.dropCommon xs ys).2 := by
  fun_induction Path.dropCommon xs ys with
  | case1 x xs y ys same ih =>
    obtain ⟨common, left, right⟩ := ih
    refine ⟨x :: common, congrArg (x :: ·) left, ?_⟩
    rw [beq_iff_eq.1 same]
    exact congrArg (y :: ·) right
  | case2 => exact ⟨[], rfl, rfl⟩
  | case3 => exact ⟨[], rfl, rfl⟩

lemma dropCommon_append (xs ys : List String) : Path.dropCommon xs (xs ++ ys) = ([], ys) := by
  induction xs with
  | nil => cases ys <;> rfl
  | cons x xs ih => rw [List.cons_append, Path.dropCommon, if_pos (by simp), ih]

/-- A path lies in the folders that are on the way to it. -/
lemma within_iff {dir p : Path} (rooted : dir.rooted = p.rooted) (down : ∀ s ∈ p.parts, s ≠ "..") :
    within dir p = true ↔ dir.parts <+: p.parts := by
  constructor
  · intro inside
    obtain ⟨common, left, right⟩ := exists_append_dropCommon dir.parts p.parts
    have none : (Path.dropCommon dir.parts p.parts).1 = [] := by
      cases up : (Path.dropCommon dir.parts p.parts).1 with
      | nil => rfl
      | cons s up' =>
        rw [within, Path.relative?, if_neg (by simp [rooted])] at inside
        simp only [up, List.length_cons, List.replicate_succ] at inside
        split at inside
        · cases inside
        · simp [Path.goesUp] at inside
    rw [none, List.append_nil] at left
    exact ⟨_, (left.symm ▸ right).symm⟩
  · rintro ⟨rest, whole⟩
    have way : Path.relative? dir p = some ⟨false, rest⟩ := by
      rw [Path.relative?, if_neg (by simp [rooted]), ← whole, dropCommon_append]
      rfl
    have stays : Path.goesUp ⟨false, rest⟩ = false := by
      rw [Path.goesUp, beq_eq_false_iff_ne]
      intro up
      have mem : ".." ∈ p.parts := whole ▸ List.mem_append_right _ (List.mem_of_head? up)
      exact down ".." mem rfl
    simp [within, way, stays]

/-! ### The common folder -/

/-- Climbing stays on the way to the folder from which it starts. -/
lemma climb_isPrefix (dir p : Path) : (climb dir p).parts <+: dir.parts := by
  fun_induction climb dir p with
  | case1 => exact List.prefix_rfl
  | case2 dir _ ih => exact ih.trans (List.dropLast_prefix _)

@[simp]
lemma rooted_climb (dir p : Path) : (climb dir p).rooted = dir.rooted := by
  fun_induction climb dir p with
  | case1 => rfl
  | case2 dir _ ih => exact ih

section Climb
variable {dir p : Path} (rooted : dir.rooted = p.rooted) (down : ∀ s ∈ p.parts, s ≠ "..")
include rooted down

/-- Climbing ends in a folder that the path lies in. -/
lemma climb_prefix_path : (climb dir p).parts <+: p.parts := by
  fun_induction climb dir p with
  | case1 dir stop =>
    rw [Bool.or_eq_true] at stop
    rcases stop with inside | top
    · exact (within_iff rooted down).1 inside
    · rw [List.isEmpty_iff.1 top]
      exact List.nil_prefix
  | case2 dir _ ih => exact ih rooted

/-- Climbing does not pass a folder that the path lies in. -/
lemma prefix_climb {d : List String} (above : d <+: dir.parts) (contains : d <+: p.parts) :
    d <+: (climb dir p).parts := by
  fun_induction climb dir p with
  | case1 => exact above
  | case2 dir go ih =>
    refine ih rooted ?_
    have outside : ¬ dir.parts <+: p.parts := by
      intro inside
      rw [(within_iff rooted down).2 inside] at go
      exact go rfl
    obtain ⟨rest, whole⟩ := above
    have ne : rest ≠ [] := by
      rintro rfl
      rw [List.append_nil] at whole
      exact outside (whole ▸ contains)
    rw [Path.dir, ← whole, List.dropLast_append_of_ne_nil ne]
    exact List.prefix_append d _

end Climb

/-- Climbing for one path after another ends in the deepest folder on the way to all of them and to the
folder from which it starts. -/
lemma foldl_climb {dir : Path} {ps : List Path} (rooted : ∀ p ∈ ps, dir.rooted = p.rooted)
    (down : ∀ p ∈ ps, ∀ s ∈ p.parts, s ≠ "..") :
    let found := ps.foldl climb dir
    found.rooted = dir.rooted ∧ found.parts <+: dir.parts ∧ (∀ p ∈ ps, found.parts <+: p.parts) ∧
      ∀ d : List String, d <+: dir.parts → (∀ p ∈ ps, d <+: p.parts) → d <+: found.parts := by
  induction ps generalizing dir with
  | nil => exact ⟨rfl, List.prefix_rfl, nofun, fun d above _ => above⟩
  | cons p ps ih =>
    have first := rooted p List.mem_cons_self
    have ahead := down p List.mem_cons_self
    obtain ⟨root, start, rest, deepest⟩ := @ih (climb dir p)
      (fun q hq => (rooted_climb dir p).trans (rooted q (List.mem_cons_of_mem p hq)))
      (fun q hq => down q (List.mem_cons_of_mem p hq))
    refine ⟨root.trans (rooted_climb dir p), start.trans (climb_isPrefix dir p), ?_, ?_⟩
    · rintro q (_ | ⟨_, hq⟩)
      · exact start.trans (climb_prefix_path first ahead)
      · exact rest q hq
    · intro d above contains
      refine deepest d ?_ fun q hq => contains q (List.mem_cons_of_mem p hq)
      exact prefix_climb first ahead above (contains p List.mem_cons_self)

section CommonDir
variable {ps : List Path} (rooted : ∀ p ∈ ps, p.rooted = true) (names : ∀ p ∈ ps, ∀ s ∈ p.parts, IsName s)
include rooted names

/-- What holds of climbing holds of climbing from the folder of the first path. -/
lemma exists_commonDir (ne : ps ≠ []) :
    ∃ first ∈ ps, (commonDir ps).rooted = true ∧ (commonDir ps).parts <+: first.parts.dropLast ∧
      (∀ p ∈ ps, (commonDir ps).parts <+: p.parts) ∧
      ∀ d : List String, d <+: first.parts.dropLast → (∀ p ∈ ps, d <+: p.parts) →
        d <+: (commonDir ps).parts := by
  cases ps with
  | nil => exact absurd rfl ne
  | cons first rest =>
    have top := rooted first List.mem_cons_self
    obtain ⟨root, start, all, deepest⟩ := @foldl_climb first.dir rest
      (fun p hp => top.trans (rooted p (List.mem_cons_of_mem first hp)).symm)
      (fun p hp s hs => (names p (List.mem_cons_of_mem first hp) s hs).ne_up)
    refine ⟨first, List.mem_cons_self, root.trans top, start, ?_, ?_⟩
    · rintro p (_ | ⟨_, hp⟩)
      · exact List.IsPrefix.trans start (List.dropLast_prefix first.parts)
      · exact all p hp
    · intro d above contains
      exact deepest d above fun p hp => contains p (List.mem_cons_of_mem first hp)

/-- The common folder is on the way to every path. It is none of the paths unless one of them is on the
way to another. -/
lemma commonDir_prefix (apart : ∀ p ∈ ps, ∀ q ∈ ps, p.parts <+: q.parts → p.parts = q.parts)
    (some : ∀ p ∈ ps, p.parts ≠ []) {p : Path} (hp : p ∈ ps) :
    ∃ below, below ≠ [] ∧ p.parts = (commonDir ps).parts ++ below := by
  obtain ⟨first, hf, -, start, all, -⟩ := exists_commonDir rooted names (List.ne_nil_of_mem hp)
  obtain ⟨below, whole⟩ := all p hp
  refine ⟨below, ?_, whole.symm⟩
  rintro rfl
  rw [List.append_nil] at whole
  rw [whole] at start
  have same := apart p hp first hf (start.trans (List.dropLast_prefix _))
  have short := start.length_le
  rw [same, List.length_dropLast] at short
  have := List.length_pos_iff.2 (some first hf)
  omega

/-- No folder that contains all paths is deeper than the common folder. -/
lemma prefix_commonDir (ne : ps ≠ []) {d : List String}
    (contains : ∀ p ∈ ps, ∃ below, below ≠ [] ∧ p.parts = d ++ below) : d <+: (commonDir ps).parts := by
  obtain ⟨first, hf, -, -, -, deepest⟩ := exists_commonDir rooted names ne
  refine deepest d ?_ fun p hp => ?_
  · obtain ⟨below, ne, whole⟩ := contains first hf
    rw [whole, List.dropLast_append_of_ne_nil ne]
    exact List.prefix_append d _
  · obtain ⟨below, -, whole⟩ := contains p hp
    exact ⟨below, whole.symm⟩

end CommonDir

/-! ### The place of a script -/

lemma proper_script (name : String) : name ++ scriptExtension ≠ "" ∧ name ++ scriptExtension ≠ "." ∧
    name ++ scriptExtension ≠ ".." := by
  have length : (name ++ scriptExtension).length ≥ 4 := by
    rw [String.length_append]
    exact Nat.le_add_left _ _
  have long {s : String} (short : s.length < 4) : name ++ scriptExtension ≠ s := by
    rintro rfl
    omega
  exact ⟨long (by decide), long (by decide), long (by decide)⟩

lemma isName_script {x : String} (h : '/' ∉ x.toList) :
    IsName (Path.withoutExtension x ++ scriptExtension) := by
  obtain ⟨ne_empty, ne_here, ne_up⟩ := proper_script (Path.withoutExtension x)
  refine ⟨ne_empty, ne_here, ne_up, ?_⟩
  rw [String.toList_append, List.mem_append, not_or]
  exact ⟨Path.slash_withoutExtension h, by decide⟩

/-- The script of a document lies below the output folder as the document lies below the common
folder. -/
lemma outputPath_below (out : Path) (rooted : Bool) (root dirs : List String) (name : String)
    (names : ∀ s ∈ dirs ++ [name], IsName s) :
    outputPath out ⟨rooted, root⟩ ⟨rooted, root ++ (dirs ++ [name])⟩ =
      ⟨out.rooted, out.parts ++ (dirs ++ [Path.withoutExtension name ++ scriptExtension])⟩ := by
  have below : placeBelow ⟨rooted, root⟩ ⟨rooted, root ++ (dirs ++ [name])⟩ =
      Text.join "/" (dirs ++ [name]) := by
    have inside : (Path.mk false (dirs ++ [name])).goesUp = false := by
      rw [Path.goesUp, beq_eq_false_iff_ne]
      intro up
      exact (names ".." (List.mem_of_head? up)).ne_up rfl
    have relative : Path.relative? ⟨rooted, root⟩ ⟨rooted, root ++ (dirs ++ [name])⟩ =
        some ⟨false, dirs ++ [name]⟩ := by
      simp [Path.relative?, dropCommon_append]
    simp [placeBelow, relative, inside, Path.text]
  have script : Text.join "/" (dirs ++ [Path.withoutExtension name]) ++ scriptExtension =
      Text.join "/" (dirs ++ [Path.withoutExtension name ++ scriptExtension]) := by
    obtain ⟨front, whole, -⟩ := Text.toList_join_concat dirs
    rw [← String.toList_inj, String.toList_append, whole, whole, String.toList_append, List.append_assoc]
  rw [outputPath, below, Path.withoutExtension_join fun s hs => (names s hs).slash, script,
    Path.join_of_isName]
  intro s hs
  rcases List.mem_append.1 hs with hs | hs
  · exact names s (List.mem_append_left _ hs)
  · rw [List.mem_singleton.1 hs]
    exact isName_script (names name (by simp)).slash

end Generation

end ErdSql
