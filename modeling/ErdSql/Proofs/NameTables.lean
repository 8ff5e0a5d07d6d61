import ErdSql.Ddl.NameTable
import ErdSql.Proofs.FileTrees

/-!
# Names given out

A table of names answers a base name with the base name itself if it is free, and otherwise with the
base name and a number. Numbered names may be base names too, asked for before or after, so the table
keeps every name that it gave out and looks for a number that makes a new one.

* `NameTable.Search`: the search for a name, without a bound on the numbers that it tries.
* `NameTable.search_claim`: every search ends.
* `Drawn`: names drawn from a table of names are new and different.
* `NameTable.given_apart`: the names given out for any base names.
-/

namespace ErdSql.Ddl

namespace NameTable

/-! ### Free numbers -/

lemma numbered_injective (base : String) : Function.Injective (numbered base) := by
  intro i j h
  rw [numbered, numbered, String.append_right_inj] at h
  exact Nat.repr_inj.1 h

/-- A name that is taken is one of those given out. -/
lemma mem_of_isTaken {t : NameTable} {name : String} (h : t.isTaken name = true) :
    name ∈ t.entries.map Prod.fst := by
  obtain ⟨entry, mem, same⟩ := List.lookup_isSome_iff.1 h
  rw [eq_of_beq same]
  exact List.mem_map_of_mem mem

/-- If the search ends at a name that is taken, all names that it tried are. -/
lemma isTaken_of_freeNumber {t : NameTable} {base : String} {i fuel : Nat}
    (h : t.isTaken (numbered base (freeNumber t base i fuel)) = true) {k : Nat} (hk : k ≤ fuel) :
    t.isTaken (numbered base (i + k)) = true := by
  induction fuel generalizing i k with
  | zero =>
    obtain rfl := Nat.le_zero.1 hk
    exact h
  | succ fuel ih =>
    rw [freeNumber] at h
    split at h
    · next taken =>
      cases k with
      | zero => exact taken
      | succ k =>
        rw [Nat.add_comm k, ← Nat.add_assoc]
        exact ih h (Nat.le_of_succ_le_succ hk)
    · next free => exact absurd h free

/-- The search ends at a free name: more names are tried than were given out. -/
lemma isTaken_freeNumber (t : NameTable) (base : String) (i : Nat) :
    t.isTaken (numbered base (freeNumber t base i (t.entries.length + 1))) = false := by
  -- otherwise all names tried were given out, and they are one too many
  by_contra taken
  rw [Bool.not_eq_false] at taken
  let tried := (List.range (t.entries.length + 1)).map fun k => numbered base (i + k)
  have given : tried ⊆ t.entries.map Prod.fst := by
    intro name h
    obtain ⟨k, hk, rfl⟩ := List.mem_map.1 h
    exact mem_of_isTaken (isTaken_of_freeNumber taken (List.mem_range.1 hk).le)
  have nodup : tried.Nodup :=
    List.nodup_range.map fun _ _ same => Nat.add_left_cancel (numbered_injective base same)
  have le := (nodup.subperm given).length_le
  simp [tried] at le

/-- The search passes over numbers in order, and only over those that give a name that is taken. -/
lemma isTaken_of_lt_freeNumber {t : NameTable} {base : String} (i fuel : Nat) :
    i ≤ freeNumber t base i fuel ∧ ∀ j, i ≤ j → j < freeNumber t base i fuel →
      t.isTaken (numbered base j) = true := by
  induction fuel generalizing i with
  | zero => exact ⟨le_rfl, fun j le lt => absurd le lt.not_ge⟩
  | succ fuel ih =>
    rw [freeNumber]
    split
    · next taken =>
      obtain ⟨le, passed⟩ := ih (i + 1)
      refine ⟨(Nat.le_succ i).trans le, fun j hj lt => ?_⟩
      rcases hj.eq_or_lt with rfl | later
      · exact taken
      · exact passed j later lt
    · exact ⟨le_rfl, fun j le lt => absurd le lt.not_ge⟩

/-! ### Searches -/

/-- The search for a name: the base name if it is free, and otherwise the base name with the first
number behind the last one tried for it that gives a free name, however far that is. -/
inductive Search (t : NameTable) (base : String) : String → Prop where
  | free :
    t.isTaken base = false →
    Search t base base
  | numbered {last i : Nat} :
    t.entries.lookup base = some last →
    last < i →
    (∀ j, last < j → j < i → t.isTaken (numbered base j) = true) →
    t.isTaken (numbered base i) = false →
    Search t base (numbered base i)

/-- A search ends at a free name. -/
lemma Search.isTaken {t : NameTable} {base name : String} (h : Search t base name) :
    t.isTaken name = false := by
  cases h with
  | free free => exact free
  | numbered _ _ _ free => exact free

/-- A search ends at the base name or at a numbered one. -/
lemma Search.eq_or_numbered {t : NameTable} {base name : String} (h : Search t base name) :
    name = base ∨ ∃ i, name = NameTable.numbered base i := by
  cases h with
  | free => exact .inl rfl
  | numbered => exact .inr ⟨_, rfl⟩

/-- A free base name is the name that is found. -/
lemma Search.eq_of_free {t : NameTable} {base name : String} (h : Search t base name)
    (free : t.isTaken base = false) : name = base := by
  cases h with
  | free => rfl
  | numbered found =>
    rw [NameTable.isTaken, found] at free
    cases free

/-- Every search ends, and its name is given out. -/
lemma search_claim (t : NameTable) (base : String) : Search t base (t.claim base).1 := by
  unfold claim
  split
  · next free => exact .free (by rw [isTaken, free]; rfl)
  · next last found =>
    obtain ⟨le, passed⟩ := @isTaken_of_lt_freeNumber t base (last + 1)
      (t.entries.length + 1)
    exact .numbered found le passed (isTaken_freeNumber t base _)

/-- The name that is given out is free. -/
lemma isTaken_claim (t : NameTable) (base : String) : t.isTaken (t.claim base).1 = false :=
  (search_claim t base).isTaken

lemma isTaken_set (t : NameTable) (name : String) (n : Nat) (other : String) :
    (t.set name n).isTaken other = true ↔ other = name ∨ t.isTaken other = true := by
  rw [isTaken, set, List.lookup_cons]
  by_cases same : other = name
  · simp [same]
  · have differ : (other == name) = false := beq_eq_false_iff_ne.2 same
    simp [differ, same, FileTree.lookup_filter_ne same, isTaken]

/-- Giving out a name takes this name and no other. -/
lemma isTaken_snd_claim (t : NameTable) (base other : String) :
    (t.claim base).2.isTaken other = true ↔ t.isTaken other = true ∨ other = (t.claim base).1 := by
  unfold claim
  split
  · rw [isTaken_set, or_comm]
  · next last found =>
    -- the base name has a number already, so the new one takes nothing
    have taken : t.isTaken base = true := by rw [isTaken, found]; rfl
    rw [isTaken_set, isTaken_set]
    constructor
    · rintro (rfl | rfl | before)
      · exact .inr rfl
      · exact .inl taken
      · exact .inl before
    · rintro (before | rfl)
      · exact .inr (.inr before)
      · exact .inl rfl

end NameTable

/-! ### Drawn names -/

/-- What drawing some names, in order, does to a table of names: they are new and different, and they
are taken afterwards, as are those taken before. -/
structure Drawn (t : NameTable) (names : List String) (t' : NameTable) : Prop where
  nodup : names.Nodup
  free : ∀ name ∈ names, t.isTaken name = false
  taken : ∀ name, t.isTaken name = true ∨ name ∈ names → t'.isTaken name = true

namespace Drawn
variable {t t' t'' : NameTable} {names names' : List String}

lemma refl (t : NameTable) : Drawn t [] t :=
  ⟨List.nodup_nil, nofun, fun _ h => h.resolve_right List.not_mem_nil⟩

lemma trans (h : Drawn t names t') (h' : Drawn t' names' t'') : Drawn t (names ++ names') t'' where
  nodup := by
    refine List.nodup_append'.2 ⟨h.nodup, h'.nodup, fun name hn hn' => ?_⟩
    exact Bool.eq_false_iff.1 (h'.free name hn') (h.taken name (.inr hn))
  free name hn := by
    rcases List.mem_append.1 hn with hn | hn
    · exact h.free name hn
    · rw [Bool.eq_false_iff]
      exact fun before => Bool.eq_false_iff.1 (h'.free name hn) (h.taken name (.inl before))
  taken name hn := by
    refine h'.taken name ?_
    rcases hn with before | hn
    · exact .inl (h.taken name (.inl before))
    · exact (List.mem_append.1 hn).imp_left fun hn => h.taken name (.inr hn)

lemma claim (t : NameTable) (base : String) : Drawn t [(t.claim base).1] (t.claim base).2 where
  nodup := List.nodup_singleton _
  free name hn := by
    rw [List.mem_singleton.1 hn]
    exact t.isTaken_claim base
  taken name hn := by
    rw [List.mem_singleton] at hn
    exact (t.isTaken_snd_claim base name).2 hn

end Drawn

namespace NameTable

/-! ### Runs -/

/-- Gives out a name for each of some base names, in order. -/
def claims (bases : List String) : StateM NameTable (List String) :=
  bases.mapM fun base t => t.claim base

section Runs
variable (bases bases' : List String) (t : NameTable)

lemma claims_cons (base : String) : (claims (base :: bases)).run t =
    ((t.claim base).1 :: ((claims bases).run (t.claim base).2).1,
      ((claims bases).run (t.claim base).2).2) := by
  rw [claims, List.mapM_cons]
  rfl

lemma claims_append : (claims (bases ++ bases')).run t =
    (((claims bases).run t).1 ++ ((claims bases').run ((claims bases).run t).2).1,
      ((claims bases').run ((claims bases).run t).2).2) := by
  induction bases generalizing t with
  | nil => rfl
  | cons base bases ih => rw [List.cons_append, claims_cons, claims_cons, ih, List.cons_append]

/-- The names that a run gives out are new and different. -/
lemma drawn_claims : Drawn t ((claims bases).run t).1 ((claims bases).run t).2 := by
  induction bases generalizing t with
  | nil => exact .refl t
  | cons base bases ih =>
    rw [claims_cons]
    exact (Drawn.claim t base).trans (ih _)

/-- After a run the names are taken that were taken before or that it gave out. -/
lemma isTaken_claims (name : String) : ((claims bases).run t).2.isTaken name = true ↔
    t.isTaken name = true ∨ name ∈ ((claims bases).run t).1 := by
  induction bases generalizing t with
  | nil => exact (or_iff_left List.not_mem_nil).symm
  | cons base bases ih => rw [claims_cons, ih, isTaken_snd_claim, List.mem_cons, or_assoc]

/-- Where each step of a run draws the names of its own base names, the run draws those of all. -/
lemma claims_flatMap {α β : Type} {f : α → StateM NameTable β} (asked : α → List String)
    (made : β → List String)
    (h : ∀ a t, (claims (asked a)).run t = (made ((f a).run t).1, ((f a).run t).2)) (as : List α) :
    (claims (as.flatMap asked)).run t =
      (((as.mapM f).run t).1.flatMap made, ((as.mapM f).run t).2) := by
  induction as generalizing t with
  | nil => rfl
  | cons a as ih =>
    rw [List.flatMap_cons, claims_append, h, ih, List.mapM_cons]
    rfl

/-- Where each step of a run draws one name, the run draws the names of all base names. -/
lemma claims_map {α β : Type} {f : α → StateM NameTable β} (asked : α → String)
    (made : β → List String)
    (h : ∀ a t, ([(t.claim (asked a)).1], (t.claim (asked a)).2) =
      (made ((f a).run t).1, ((f a).run t).2)) (as : List α) :
    (claims (as.map asked)).run t =
      (((as.mapM f).run t).1.flatMap made, ((as.mapM f).run t).2) := by
  rw [List.map_eq_flatMap]
  exact claims_flatMap t _ made h as

lemma length_claims : ((claims bases).run t).1.length = bases.length := by
  induction bases generalizing t with
  | nil => rfl
  | cons base bases ih => rw [claims_cons, List.length_cons, List.length_cons, ih]

variable {bases t}

/-- Every base name of a run is given out by it, unless it was taken before. -/
lemma mem_claims {base : String} (h : base ∈ bases) (free : t.isTaken base = false) :
    base ∈ ((claims bases).run t).1 := by
  induction bases generalizing t with
  | nil => cases h
  | cons first bases ih =>
    rw [claims_cons]
    rcases List.mem_cons.1 h with rfl | h
    · rw [(search_claim t base).eq_of_free free]
      exact List.mem_cons_self
    · by_cases given : base = (t.claim first).1
      · exact List.mem_cons.2 (.inl given)
      · refine List.mem_cons_of_mem _ (ih h ?_)
        rw [Bool.eq_false_iff, Ne, isTaken_snd_claim]
        rintro (taken | same)
        · rw [free] at taken
          cases taken
        · exact given same

/-- A run gives out base names and numbered ones. -/
lemma exists_base_of_mem_claims {name : String} (h : name ∈ ((claims bases).run t).1) :
    ∃ base ∈ bases, name = base ∨ ∃ i, name = numbered base i := by
  induction bases generalizing t with
  | nil => cases h
  | cons first bases ih =>
    rw [claims_cons] at h
    rcases List.mem_cons.1 h with rfl | h
    · exact ⟨first, List.mem_cons_self, (search_claim t first).eq_or_numbered⟩
    · obtain ⟨base, mem, form⟩ := ih h
      exact ⟨base, List.mem_cons_of_mem first mem, form⟩

end Runs

/-- The names given out for some base names by a table that was empty before. -/
def given (bases : List String) : List String := ((claims bases).run empty).1

/-- The table after some base names were asked for. -/
def tableAfter (bases : List String) : NameTable := ((claims bases).run empty).2

/-- The names taken are those given out. -/
lemma isTaken_tableAfter (bases : List String) (name : String) :
    (tableAfter bases).isTaken name = true ↔ name ∈ given bases := by
  rw [tableAfter, isTaken_claims]
  exact or_iff_right nofun

/-- A name is given out for the place of its base name, by the table after the base names before. -/
lemma given_eq {before after : List String} {base : String} :
    ∃ rest, given (before ++ base :: after) =
      given before ++ ((tableAfter before).claim base).1 :: rest := by
  refine ⟨((claims after).run ((tableAfter before).claim base).2).1, ?_⟩
  rw [given, claims_append, claims_cons]
  rfl

/-- The names given out for any base names differ from each other. Each is what an unbounded search for
its base name ends at, which is the base name or the base name with a number, and the base name itself
if that was not given out before. -/
theorem given_apart (bases : List String) : (given bases).Nodup ∧
    (given bases).length = bases.length ∧
    ∀ (i : Nat) (base : String), bases[i]? = some base → ∃ name, (given bases)[i]? = some name ∧
      Search (tableAfter (bases.take i)) base name ∧
      (name = base ∨ ∃ n, name = numbered base n) ∧
      (base ∉ (given bases).take i → name = base) := by
  refine ⟨(drawn_claims bases empty).nodup, length_claims bases empty, fun i base here => ?_⟩
  obtain ⟨lt, rfl⟩ := List.getElem?_eq_some_iff.1 here
  have parts : bases = bases.take i ++ bases[i] :: bases.drop (i + 1) := by
    rw [← List.drop_eq_getElem_cons lt, List.take_append_drop]
  have front : (given (bases.take i)).length = i := by
    rw [given, length_claims, List.length_take, min_eq_left lt.le]
  obtain ⟨rest, whole⟩ := @given_eq (bases.take i) (bases.drop (i + 1)) bases[i]
  rw [← parts] at whole
  have search := search_claim (tableAfter (bases.take i)) bases[i]
  refine ⟨_, ?_, search, search.eq_or_numbered, fun new => search.eq_of_free ?_⟩
  · rw [whole, List.getElem?_append_right front.le, front, Nat.sub_self, List.getElem?_cons_zero]
  · rw [Bool.eq_false_iff, Ne, isTaken_tableAfter]
    rwa [whole, List.take_left' front] at new

/-- Base names one of which is a numbered form of the others. -/
def twins : List String := ["fk_a_b_c", "fk_a_b_c", "fk_a_b_c_2", "fk_a_b_c"]

/-- The name that the second base name got is not given out for the third, whose own name it is. -/
theorem given_apart_of_twins : given twins = ["fk_a_b_c", "fk_a_b_c_2", "fk_a_b_c_2_2", "fk_a_b_c_3"] ∧
    (given twins).Nodup ∧ twins[2]? = some "fk_a_b_c_2" ∧ ∃ name, (given twins)[2]? = some name ∧
      Search (tableAfter (twins.take 2)) "fk_a_b_c_2" name ∧
      (name = "fk_a_b_c_2" ∨ ∃ n, name = numbered "fk_a_b_c_2" n) := by
  obtain ⟨nodup, -, each⟩ := given_apart twins
  obtain ⟨name, here, search, form, -⟩ := each 2 "fk_a_b_c_2" rfl
  exact ⟨by decide +kernel, nodup, rfl, name, here, search, form⟩

end NameTable

end ErdSql.Ddl
