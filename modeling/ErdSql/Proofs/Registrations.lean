import ErdSql.Proofs.Handlers

/-!
# Registering handlers

A registry is filled by calls, each with a keyword and a handler. A call that is in order offers its
keyword, trimmed and in upper case, and it succeeds unless an earlier one has offered the same.

* `Plugin.Registry.Call.offer?`: what a call offers.
* `Plugin.Registry.register_cases`: what a call does.
* `Plugin.Registry.lookup_ofCalls`: the first offer of a keyword is the one that counts.
* `Plugin.Registry.exists_error_register_iff`: when a call fails.
* `Plugin.Registry.filledBy_ofCalls`: what calls make of the registry without handlers.
-/

namespace ErdSql.Plugin.Registry

/-- A call for a keyword, with the handler if there is one. -/
structure Call where
  keyword : String
  handler : Option Handler

namespace Call

/-- The keyword that is registered: without white space around it, and in upper case. -/
def key (c : Call) : String :=
  Text.upper (Text.trim c.keyword)

/-- What a call offers if its keyword is a name that is not reserved and there is a handler. -/
def offer? (c : Call) : Option (String × Handler) :=
  if isValidKeyword c.key ∧ Keyword.ofText? c.key = none then c.handler.map (c.key, ·) else none

lemma offer?_eq_some_iff {c : Call} {key : String} {handler : Handler} :
    c.offer? = some (key, handler) ↔ key = c.key ∧ isValidKeyword c.key = true ∧
      Keyword.ofText? c.key = none ∧ c.handler = some handler := by
  rw [offer?, Option.ite_none_right_eq_some, Option.map_eq_some_iff]
  constructor
  · rintro ⟨⟨valid, free⟩, h, given, pair⟩
    obtain ⟨rfl, rfl⟩ := Prod.mk.inj pair
    exact ⟨rfl, valid, free, given⟩
  · rintro ⟨rfl, valid, free, given⟩
    exact ⟨⟨valid, free⟩, handler, given, rfl⟩

end Call

/-- The registry behind a call. -/
def after (r : Registry) (c : Call) : Registry :=
  (r.register c.keyword c.handler).toOption.getD r

/-- The registry that calls make of the one without handlers. -/
def ofCalls (calls : List Call) : Registry :=
  calls.foldl after empty

/-! ### One call -/

/-- A call fails if it offers nothing or its keyword is taken. Otherwise the registry has what it offers. -/
lemma register_cases (r : Registry) (c : Call) :
    (∃ handler, c.offer? = some (c.key, handler) ∧ r.handlers.lookup c.key = none ∧
      r.register c.keyword c.handler = .ok ⟨r.handlers ++ [(c.key, handler)]⟩) ∨
    (∀ handler, c.offer? = some (c.key, handler) → (r.handlers.lookup c.key).isSome) ∧
      ∃ e, r.register c.keyword c.handler = .error e := by
  have key : Text.upper (Text.trim c.keyword) = c.key := rfl
  unfold register
  dsimp only
  rw [key]
  by_cases valid : isValidKeyword c.key = true
  · rw [valid, if_neg (by decide)]
    cases free : Keyword.ofText? c.key with
    | some k =>
      refine .inr ⟨fun handler offered => ?_, .reservedKeyword c.key, by rfl⟩
      rw [Call.offer?_eq_some_iff, free] at offered
      cases offered.2.2.1
    | none =>
      rw [if_neg (by simp)]
      cases given : c.handler with
      | none =>
        refine .inr ⟨fun handler offered => ?_, .missingHandler c.key, rfl⟩
        rw [Call.offer?_eq_some_iff, given] at offered
        cases offered.2.2.2
      | some handler =>
        dsimp only
        cases taken : r.handlers.lookup c.key with
        | some other => exact .inr ⟨fun _ _ => rfl, .duplicateKeyword c.key, by rfl⟩
        | none =>
          exact .inl ⟨handler, Call.offer?_eq_some_iff.2 ⟨rfl, valid, free, given⟩, rfl, by rfl⟩
  · rw [Bool.not_eq_true] at valid
    rw [valid, if_pos (by decide)]
    refine .inr ⟨fun handler offered => ?_, .invalidKeyword c.keyword, rfl⟩
    rw [Call.offer?_eq_some_iff, valid] at offered
    cases offered.2.1

/-- Behind a call a keyword has the handler that it had, or else the one that the call offers. -/
lemma lookup_after (r : Registry) (c : Call) (key : String) :
    (r.after c).handlers.lookup key = (r.handlers.lookup key).or (c.offer?.toList.lookup key) := by
  rw [after]
  obtain ⟨handler, offered, -, ok⟩ | ⟨taken, e, error⟩ := r.register_cases c
  · rw [ok, offered, Except.toOption, Option.getD_some, List.lookup_append]
    rfl
  · rw [error, Except.toOption, Option.getD_none]
    cases offered : c.offer? with
    | none => exact (Option.or_none ..).symm
    | some offer =>
      obtain ⟨offeredKey, handler⟩ := offer
      obtain ⟨rfl, -⟩ := Call.offer?_eq_some_iff.1 offered
      obtain ⟨first, found⟩ := Option.isSome_iff_exists.1 (taken handler offered)
      rw [Option.toList_some, List.lookup_cons]
      by_cases same : key = c.key
      · rw [same, found, Option.some_or]
      · rw [beq_eq_false_iff_ne.2 same, List.lookup_nil, Option.or_none]

/-- A call leaves no keyword registered twice. -/
lemma nodup_after {r : Registry} (h : (r.handlers.map (·.1)).Nodup) (c : Call) :
    ((r.after c).handlers.map (·.1)).Nodup := by
  rw [after]
  obtain ⟨handler, -, free, ok⟩ | ⟨-, e, error⟩ := r.register_cases c
  · rw [ok, Except.toOption, Option.getD_some, List.map_append, List.nodup_append]
    refine ⟨h, List.nodup_singleton _, fun key mem other mem' same => ?_⟩
    obtain rfl := List.mem_singleton.1 mem'
    obtain ⟨entry, inside, rfl⟩ := List.mem_map.1 mem
    have other := List.lookup_eq_none_iff.1 free entry inside
    rw [same] at other
    simp at other
  · rw [error]
    exact h

/-! ### Sequences of calls -/

/-- What calls add to a registry: for each keyword that has no handler yet, the first one offered. -/
lemma lookup_foldl_after (r : Registry) (calls : List Call) (key : String) :
    (calls.foldl after r).handlers.lookup key =
      (r.handlers.lookup key).or ((calls.filterMap Call.offer?).lookup key) := by
  induction calls generalizing r with
  | nil => exact (Option.or_none ..).symm
  | cons c calls ih =>
    have offers : (c :: calls).filterMap Call.offer? = c.offer?.toList ++ calls.filterMap Call.offer? := by
      cases offered : c.offer? with
      | none => rw [List.filterMap_cons_none offered, Option.toList_none, List.nil_append]
      | some offer => rw [List.filterMap_cons_some offered, Option.toList_some, List.singleton_append]
    rw [List.foldl_cons, ih, lookup_after, offers, List.lookup_append, Option.or_assoc]

/-- The first offer of a keyword is the one that counts. -/
lemma lookup_ofCalls (calls : List Call) (key : String) :
    (ofCalls calls).handlers.lookup key = (calls.filterMap Call.offer?).lookup key := by
  rw [ofCalls, lookup_foldl_after]
  rfl

lemma nodup_foldl_after {r : Registry} (h : (r.handlers.map (·.1)).Nodup) (calls : List Call) :
    ((calls.foldl after r).handlers.map (·.1)).Nodup := by
  induction calls generalizing r with
  | nil => exact h
  | cons c calls ih =>
    rw [List.foldl_cons]
    exact ih (nodup_after h c)

lemma mem_keywords_iff {r : Registry} {key : String} :
    key ∈ r.keywords ↔ (r.handlers.lookup key).isSome := by
  rw [keywords, Text.sortTexts, List.mem_mergeSort, List.mem_map, List.lookup_isSome_iff]
  simp only [beq_iff_eq, eq_comm (a := key)]

/-- The registered keywords are the offered ones. -/
lemma mem_keywords_ofCalls {calls : List Call} {key : String} :
    key ∈ (ofCalls calls).keywords ↔ ∃ c ∈ calls, ∃ handler, c.offer? = some (key, handler) := by
  rw [mem_keywords_iff, lookup_ofCalls, List.lookup_isSome_iff]
  simp only [List.mem_filterMap, beq_iff_eq]
  constructor
  · rintro ⟨⟨key, handler⟩, ⟨c, mem, offered⟩, rfl⟩
    exact ⟨c, mem, handler, offered⟩
  · rintro ⟨c, mem, handler, offered⟩
    exact ⟨(key, handler), ⟨c, mem, offered⟩, rfl⟩

/-- A call behind others fails if it offers nothing, or what one of them has offered. -/
lemma exists_error_register_iff {before : List Call} {c : Call} :
    (∃ e, (ofCalls before).register c.keyword c.handler = .error e) ↔
      ∀ handler, c.offer? = some (c.key, handler) →
        ∃ earlier ∈ before, ∃ other, earlier.offer? = some (c.key, other) := by
  rw [← mem_keywords_ofCalls, mem_keywords_iff]
  obtain ⟨handler, offered, free, ok⟩ | ⟨taken, failed⟩ := (ofCalls before).register_cases c
  · refine iff_of_false ?_ fun all => ?_
    · rintro ⟨e, error⟩
      rw [ok] at error
      cases error
    · have taken := all handler offered
      rw [free] at taken
      cases taken
  · exact iff_of_true failed taken

/-- What calls make of the registry without handlers: the keywords that are offered, each with the handler
that is offered first. A call that fails changes nothing, and it fails exactly if it offers nothing or what
an earlier one has offered. -/
structure FilledBy (r : Registry) (calls : List Call) : Prop where
  keywords : ∀ key : String, key ∈ r.keywords ↔ ∃ c ∈ calls, key = Text.upper (Text.trim c.keyword) ∧
    isValidKeyword key = true ∧ Keyword.ofText? key = none ∧ c.handler.isSome
  nodup : r.keywords.Nodup
  first : ∀ key : String, r.handlers.lookup key = (calls.filterMap Call.offer?).lookup key
  failed : ∀ (before : List Call) (c : Call) (behind : List Call), calls = before ++ c :: behind →
    ∀ e, (ofCalls before).register c.keyword c.handler = .error e → ofCalls (before ++ [c]) = ofCalls before
  fails : ∀ (before : List Call) (c : Call) (behind : List Call), calls = before ++ c :: behind →
    ((∃ e, (ofCalls before).register c.keyword c.handler = .error e) ↔ ∀ handler,
      c.offer? = some (c.key, handler) → ∃ earlier ∈ before, ∃ other, earlier.offer? = some (c.key, other))

lemma filledBy_ofCalls (calls : List Call) : (ofCalls calls).FilledBy calls where
  keywords key := by
    rw [mem_keywords_ofCalls]
    simp only [Call.offer?_eq_some_iff, Option.isSome_iff_exists]
    constructor
    · rintro ⟨c, mem, handler, rfl, valid, free, given⟩
      exact ⟨c, mem, rfl, valid, free, handler, given⟩
    · rintro ⟨c, mem, rfl, valid, free, handler, given⟩
      exact ⟨c, mem, handler, rfl, valid, free, given⟩
  nodup := by
    rw [Registry.keywords, Text.sortTexts, (List.mergeSort_perm _ _).nodup_iff]
    exact nodup_foldl_after (r := empty) List.nodup_nil calls
  first := lookup_ofCalls calls
  failed before c _ _ e error := by
    rw [ofCalls, List.foldl_append, List.foldl_cons, List.foldl_nil, ← ofCalls, after, error, Except.toOption,
      Option.getD_none]
  fails _ _ _ _ := exists_error_register_iff

end ErdSql.Plugin.Registry
