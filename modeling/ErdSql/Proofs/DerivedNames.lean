import ErdSql.Proofs.Clauses
import ErdSql.Proofs.StatementKeys
import ErdSql.Proofs.TableKeys

/-!
# Derived names in scripts

A derived name is made of the letters and digits of its parts and stands in a script without quotes. It
is a plain word, so the only harm would be that it spells a reserved word. The generator puts a word of
its own into every name, and a number behind a name that is taken, and no reserved word has any of
these inside, with one exception: the trigger of a set is named by the word `distinct`, which is
reserved, and nothing else stands in that name if neither the entity nor the field has a letter or digit
of ASCII.

* `Ddl.infix_derivedName`: a part that is a word stands in the derived name.
* `Ddl.isPlainName_of_mem_ownWords`: one of the generator's own words makes a derived name plain.
* `Ddl.isPlainName_distinct_iff`: when the name of the trigger of a set needs no quotes.
* `Ddl.mem_given_iff`: the names that a script has without quotes are those given out for its schema.
* `Compilation.bare_names_plain_iff`: when all of them are plain.
-/

namespace ErdSql

/-! ### Reserved words -/

namespace Sql

/-- A plain word is plain as a name if something stands in it that stands in no reserved word. -/
lemma isPlainName_of_infix {name : String} (word : isPlainWord name = true) {inner : List Char}
    (h : inner <:+: name.toList)
    (free : ∀ w ∈ reservedWords, ¬ inner.map Text.upperChar <:+: w.toList) : isPlainName name = true := by
  rw [isPlainName, word, Bool.true_and, Bool.not_eq_true', ← Bool.not_eq_true, List.contains_iff_mem]
  intro mem
  refine free _ mem ?_
  rw [Text.upper, String.toList_ofList]
  exact h.map _

/-- A plain word with a digit is plain as a name. -/
lemma isPlainName_of_digit {name : String} (word : isPlainWord name = true) {c : Char}
    (hc : c ∈ name.toList) (digit : c.isDigit = true) : isPlainName name = true := by
  have upper : ∀ c : Char, c.toNat < 0x80 → c.isDigit = true → (Text.upperChar c).isDigit = true :=
    Text.forall_ascii (by decide)
  have letters : ∀ w ∈ reservedWords, w.toList.all (fun d => !d.isDigit) = true := by
    decide +kernel
  refine isPlainName_of_infix word ((List.singleton_infix_iff _ _).2 hc) fun w hw inside => ?_
  have standing := List.all_eq_true.1 (letters w hw) _ ((List.singleton_infix_iff _ _).1 inside)
  rw [upper c (toNat_lt_of_isPlainPart (isPlainPart_of_mem word hc)) digit] at standing
  cases standing

end Sql

namespace Ddl

/-! ### Letters and digits of a derived name -/

/-- The letters and digits of some characters. -/
def letters (cs : List Char) : List Char := cs.filter isNameChar

@[simp]
lemma letters_append (cs ds : List Char) : letters (cs ++ ds) = letters cs ++ letters ds :=
  List.filter_append ..

lemma letters_of_all {cs : List Char} (h : ∀ c ∈ cs, isNameChar c = true) : letters cs = cs :=
  List.filter_eq_self.2 h

lemma ne_underscore {c : Char} (h : isNameChar c = true) : c ≠ '_' := by
  rintro rfl
  revert h
  decide

/-- Adding a part adds its letters and digits. -/
lemma letters_addPart (state : List Char × Bool) (part : List Char) :
    letters (addPart state part).1 = letters state.1 ++ letters part := by
  induction part generalizing state with
  | nil => exact (List.append_nil _).symm
  | cons c part ih =>
    rw [addPart, List.foldl_cons, ← addPart, ih]
    dsimp only
    split
    · next name => simp [letters, name]
    · next other =>
      have none : letters (c :: part) = letters part := by simp [letters, other]
      have underscore : letters ['_'] = [] := by decide
      split
      · rw [none]
      · rw [none, letters_append, underscore, List.append_nil]

lemma letters_addUnderscore (out : List Char) (after : Bool) :
    letters (addUnderscore out after) = letters out := by
  have underscore : letters ['_'] = [] := by decide
  unfold addUnderscore
  split
  · rfl
  · rw [letters_append, underscore, List.append_nil]

/-- How a part is joined to those before it. -/
def joinStep (state : List Char × Bool) (part : String) : List Char × Bool :=
  addPart (addUnderscore state.1 state.2, true) part.toList

lemma joinParts_cons (first : String) (rest : List String) :
    joinParts (first :: rest) = (rest.foldl joinStep (addPart ([], false) first.toList)).1 :=
  rfl

lemma letters_foldl_joinStep (state : List Char × Bool) (parts : List String) :
    letters (parts.foldl joinStep state).1 = letters state.1 ++ letters (parts.flatMap (·.toList)) := by
  induction parts generalizing state with
  | nil => exact (List.append_nil _).symm
  | cons part parts ih =>
    rw [List.foldl_cons, ih, joinStep, letters_addPart, letters_addUnderscore, List.flatMap_cons,
      letters_append, List.append_assoc]

/-- Joined parts have the letters and digits of the parts, in order. -/
lemma letters_joinParts (parts : List String) :
    letters (joinParts parts) = letters (parts.flatMap (·.toList)) := by
  cases parts with
  | nil => rfl
  | cons first rest =>
    rw [joinParts_cons, letters_foldl_joinStep, letters_addPart, List.flatMap_cons, letters_append]
    rfl

/-- Plain characters without letters and digits are underscores. -/
lemma eq_underscore_of_letters_eq_nil {cs : List Char} (plain : ∀ c ∈ cs, Sql.isPlainPart c = true)
    (none : letters cs = []) : ∀ c ∈ cs, c = '_' := by
  intro c hc
  have part := plain c hc
  have other := List.filter_eq_nil_iff.1 none c hc
  rw [isNameChar] at other
  rw [Sql.isPlainPart, Bool.or_eq_true, beq_iff_eq] at part
  exact part.resolve_left other

/-! ### Words within a derived name -/

/-- Adding a part goes on behind what is there. -/
lemma prefix_addPart (state : List Char × Bool) (part : List Char) : state.1 <+: (addPart state part).1 := by
  induction part generalizing state with
  | nil => exact List.prefix_refl _
  | cons c part ih =>
    rw [addPart, List.foldl_cons, ← addPart]
    refine List.IsPrefix.trans ?_ (ih _)
    dsimp only
    split
    · exact List.prefix_append _ _
    · split
      · exact List.prefix_refl _
      · exact List.prefix_append _ _

/-- A word is added as it is. -/
lemma addPart_of_all {part : List Char} (h : ∀ c ∈ part, isNameChar c = true)
    (state : List Char × Bool) : (addPart state part).1 = state.1 ++ part := by
  induction part generalizing state with
  | nil => exact (List.append_nil _).symm
  | cons c part ih =>
    rw [addPart, List.foldl_cons, ← addPart, ih fun d hd => h d (List.mem_cons_of_mem c hd)]
    simp [h c List.mem_cons_self]

lemma prefix_joinStep (state : List Char × Bool) (part : String) :
    state.1 <+: (joinStep state part).1 := by
  refine List.IsPrefix.trans ?_ (prefix_addPart (_, true) _)
  unfold addUnderscore
  split
  · exact List.prefix_refl _
  · exact List.prefix_append _ _

lemma prefix_foldl_joinStep (state : List Char × Bool) (parts : List String) :
    state.1 <+: (parts.foldl joinStep state).1 := by
  induction parts generalizing state with
  | nil => exact List.prefix_refl _
  | cons part parts ih => exact (prefix_joinStep state part).trans (ih _)

section Words
variable {word : String} (h : ∀ c ∈ word.toList, isNameChar c = true)
include h

lemma infix_foldl_joinStep {parts : List String} (mem : word ∈ parts) (state : List Char × Bool) :
    word.toList <:+: (parts.foldl joinStep state).1 := by
  induction parts generalizing state with
  | nil => cases mem
  | cons part parts ih =>
    rw [List.foldl_cons]
    rcases List.mem_cons.1 mem with rfl | mem
    · refine List.IsInfix.trans ?_ (prefix_foldl_joinStep _ parts).isInfix
      rw [joinStep, addPart_of_all h]
      exact (List.suffix_append _ _).isInfix
    · exact ih mem _

/-- A part that is a word stands in the joined parts. -/
lemma infix_joinParts {parts : List String} (mem : word ∈ parts) :
    word.toList <:+: joinParts parts := by
  cases parts with
  | nil => cases mem
  | cons first rest =>
    rw [joinParts_cons]
    rcases List.mem_cons.1 mem with rfl | mem
    · refine List.IsInfix.trans ?_ (prefix_foldl_joinStep _ rest).isInfix
      rw [addPart_of_all h]
      exact (List.suffix_append _ _).isInfix
    · exact infix_foldl_joinStep h mem _

end Words

section Trimming

lemma letters_dropWhile (cs : List Char) : letters (cs.dropWhile (· == '_')) = letters cs := by
  induction cs with
  | nil => rfl
  | cons c cs ih =>
    by_cases underscore : c = '_'
    · subst underscore
      rw [List.dropWhile_cons_of_pos rfl, ih]
      rfl
    · rw [List.dropWhile_cons_of_neg (by simpa using underscore)]

/-- Taking underscores off takes no letters and digits. -/
lemma letters_trimUnderscores (cs : List Char) : letters (trimUnderscores cs) = letters cs := by
  have reverse (ds : List Char) : letters ds.reverse = (letters ds).reverse := List.filter_reverse ..
  rw [trimUnderscores, Text.dropWhileEnd, reverse, letters_dropWhile, reverse, List.reverse_reverse,
    letters_dropWhile]

variable {word : List Char} (h : ∀ c ∈ word, isNameChar c = true)
include h

lemma infix_dropWhile {cs : List Char} (inside : word <:+: cs) :
    word <:+: cs.dropWhile (· == '_') := by
  induction cs with
  | nil => exact inside
  | cons c cs ih =>
    by_cases underscore : c = '_'
    · rw [List.dropWhile_cons_of_pos (by simpa using underscore)]
      rcases List.infix_cons_iff.1 inside with front | later
      · cases word with
        | nil => exact List.nil_infix
        | cons d word =>
          obtain ⟨rfl, -⟩ := List.cons_prefix_cons.1 front
          exact absurd underscore (ne_underscore (h d List.mem_cons_self))
      · exact ih later
    · rwa [List.dropWhile_cons_of_neg (by simpa using underscore)]

lemma dropWhile_underscores (ne : word ≠ []) {xs : List Char} (hx : ∀ c ∈ xs, c = '_')
    (ys : List Char) : (xs ++ (word ++ ys)).dropWhile (· == '_') = word ++ ys := by
  rw [List.dropWhile_append_of_pos fun c hc => beq_iff_eq.2 (hx c hc)]
  cases word with
  | nil => exact absurd rfl ne
  | cons c word =>
    have other := ne_underscore (h c List.mem_cons_self)
    rw [List.cons_append, List.dropWhile_cons_of_neg (by simpa using other)]

/-- Taking underscores off leaves words as they are. -/
lemma infix_trimUnderscores {cs : List Char} (inside : word <:+: cs) : word <:+: trimUnderscores cs := by
  have reversed : ∀ c ∈ word.reverse, isNameChar c = true := fun c hc => h c (List.mem_reverse.1 hc)
  rw [trimUnderscores, Text.dropWhileEnd, ← List.reverse_infix, List.reverse_reverse]
  exact infix_dropWhile reversed (List.reverse_infix.2 (infix_dropWhile h inside))

/-- A word is all that is left without the underscores around it. -/
lemma trimUnderscores_eq (ne : word ≠ []) {xs ys : List Char} (hx : ∀ c ∈ xs, c = '_')
    (hy : ∀ c ∈ ys, c = '_') : trimUnderscores (xs ++ word ++ ys) = word := by
  have reversed : ∀ c ∈ word.reverse, isNameChar c = true := fun c hc => h c (List.mem_reverse.1 hc)
  have back := dropWhile_underscores reversed (by simpa using ne)
    (fun c hc => hy c (List.mem_reverse.1 hc)) []
  rw [List.append_nil, ← List.reverse_append] at back
  rw [trimUnderscores, Text.dropWhileEnd, List.append_assoc, dropWhile_underscores h ne hx, back,
    List.reverse_reverse]

end Trimming

/-- The characters of a derived name, where its parts have any letter or digit: the joined parts without
underscores around them, possibly behind two characters that keep a digit from the start. -/
lemma toList_derivedName {parts : List String} (ne : letters (parts.flatMap (·.toList)) ≠ []) :
    (derivedName parts).toList = trimUnderscores (joinParts parts) ∨
      (derivedName parts).toList = 'n' :: '_' :: trimUnderscores (joinParts parts) := by
  have some : trimUnderscores (joinParts parts) ≠ [] := by
    intro none
    rw [← letters_joinParts, ← letters_trimUnderscores, none] at ne
    exact ne rfl
  unfold derivedName
  split
  · next none => exact absurd none some
  · next c cs e =>
    rw [e]
    split
    · exact .inr (by simp)
    · exact .inl String.toList_ofList

/-- A derived name has room for the letters and digits of its parts. -/
lemma length_letters_le_derivedName (parts : List String) :
    (letters (parts.flatMap (·.toList))).length ≤ (derivedName parts).toList.length := by
  by_cases none : letters (parts.flatMap (·.toList)) = []
  · rw [none]
    exact Nat.zero_le _
  · have le := List.length_filter_le isNameChar (trimUnderscores (joinParts parts))
    rw [← letters, letters_trimUnderscores, letters_joinParts] at le
    rcases toList_derivedName none with chars | chars
    · rwa [chars]
    · rw [chars, List.length_cons, List.length_cons]
      omega

/-- A part that is a word stands in the derived name. -/
lemma infix_derivedName {parts : List String} {word : String} (mem : word ∈ parts) (ne : word ≠ "")
    (h : ∀ c ∈ word.toList, isNameChar c = true) : word.toList <:+: (derivedName parts).toList := by
  have inside := infix_trimUnderscores h (infix_joinParts h mem)
  have some : letters (parts.flatMap (·.toList)) ≠ [] := by
    intro none
    obtain ⟨c, cs, chars⟩ := List.exists_cons_of_ne_nil fun e => ne (String.toList_eq_nil_iff.1 e)
    have hc : c ∈ word.toList := chars ▸ List.mem_cons_self
    exact List.filter_eq_nil_iff.1 none c (List.mem_flatMap.2 ⟨word, mem, hc⟩) (h c hc)
  rcases toList_derivedName some with chars | chars
  · rwa [chars]
  · rw [chars]
    exact inside.trans (List.suffix_append ['n', '_'] _).isInfix

/-- The generator's own words in derived names, except that of the trigger of a set. -/
def ownWords : List String := ["fk", "fts", "created", "updated", "active"]

/-- No reserved word has one of the generator's own words inside. -/
lemma not_infix_of_mem_ownWords {word : String} (own : word ∈ ownWords) :
    ∀ w ∈ Sql.reservedWords, ¬ word.toList.map Text.upperChar <:+: w.toList := by
  have free : ∀ w ∈ Sql.reservedWords, ∀ word ∈ ownWords,
      ¬ word.toList.map Text.upperChar <:+: w.toList := by decide +kernel
  exact fun w hw => free w hw word own

/-- A derived name needs no quotes if one of the generator's own words is a part of it. -/
lemma isPlainName_of_mem_ownWords {word : String} (own : word ∈ ownWords) {parts : List String}
    (mem : word ∈ parts) : Sql.isPlainName (derivedName parts) = true := by
  have chars : ∀ word ∈ ownWords, word.toList.all isNameChar = true ∧ word ≠ "" := by decide
  obtain ⟨all, ne⟩ := chars word own
  exact Sql.isPlainName_of_infix (isPlainWord_derivedName parts)
    (infix_derivedName mem ne (List.all_eq_true.1 all)) (not_infix_of_mem_ownWords own)

/-- A name with a number behind it needs no quotes. -/
lemma isPlainName_numbered {base : String} (h : Sql.isPlainWord base = true) (i : Nat) :
    Sql.isPlainName (NameTable.numbered base i) = true := by
  obtain ⟨c, hc⟩ := List.exists_mem_of_ne_nil _ (Nat.toDigits_ne_nil (b := 10) (n := i))
  refine Sql.isPlainName_of_digit (isPlainWord_numbered h i) (c := c) ?_
    (Nat.isDigit_of_mem_toDigits (by decide) (by decide) hc)
  rw [NameTable.numbered, String.toList_append, Nat.toString_eq_repr, Nat.toList_repr]
  exact List.mem_append_right _ hc

/-! ### The trigger of a set -/

/-- The word in the name of the trigger of a set. -/
def distinctWord : List Char := ['d', 'i', 's', 't', 'i', 'n', 'c', 't']

lemma toList_distinct : "distinct".toList = distinctWord := by decide

lemma isNameChar_distinctWord : ∀ c ∈ distinctWord, isNameChar c = true :=
  List.all_eq_true.1 (by decide)

lemma flatMap_distinct (e f : String) :
    [e, f, "distinct"].flatMap (·.toList) = e.toList ++ f.toList ++ distinctWord := by
  rw [List.flatMap_cons, List.flatMap_cons, List.flatMap_singleton, List.append_assoc, toList_distinct]

/-- Without letters and digits in the names of the entity and the field, the trigger of a set has a
reserved word for its name. -/
lemma derivedName_distinct {e f : String} (none : letters (e.toList ++ f.toList) = []) :
    derivedName [e, f, "distinct"] = "distinct" := by
  have mem : "distinct" ∈ [e, f, "distinct"] := by simp
  obtain ⟨xs, ys, cut⟩ : distinctWord <:+: joinParts [e, f, "distinct"] := by
    rw [← toList_distinct]
    exact infix_joinParts (toList_distinct ▸ isNameChar_distinctWord) mem
  have all := letters_joinParts [e, f, "distinct"]
  rw [flatMap_distinct, letters_append, none, List.nil_append, ← cut, letters_append, letters_append] at all
  have around : letters xs = [] ∧ letters ys = [] := by
    have lengths := congrArg List.length all
    simp only [List.length_append] at lengths
    exact ⟨List.length_eq_zero_iff.1 (by omega), List.length_eq_zero_iff.1 (by omega)⟩
  have plain := isPlainPart_joinParts [e, f, "distinct"]
  rw [← cut] at plain
  have trimmed := trimUnderscores_eq isNameChar_distinctWord (by decide)
    (eq_underscore_of_letters_eq_nil (fun c hc => plain c (by simp [hc])) around.1)
    (eq_underscore_of_letters_eq_nil (fun c hc => plain c (by simp [hc])) around.2)
  rw [derivedName, ← cut, trimmed]
  decide

/-- The name of the trigger of a set needs no quotes exactly if the name of the entity or the field has
a letter or digit. -/
lemma isPlainName_distinct_iff {e f : String} : Sql.isPlainName (derivedName [e, f, "distinct"]) = true ↔
    ∃ c ∈ e.toList ++ f.toList, isNameChar c = true := by
  constructor
  · intro plain
    by_contra none
    have nil : letters (e.toList ++ f.toList) = [] :=
      List.filter_eq_nil_iff.2 fun c hc name => none ⟨c, hc, name⟩
    rw [derivedName_distinct nil] at plain
    revert plain
    decide
  · rintro ⟨c, hc, name⟩
    by_contra reserved
    have mem : "distinct" ∈ [e, f, "distinct"] := by simp
    have inside : distinctWord <:+: (derivedName [e, f, "distinct"]).toList := by
      rw [← toList_distinct]
      exact infix_derivedName mem (by decide) (toList_distinct ▸ isNameChar_distinctWord)
    rw [Sql.isPlainName, isPlainWord_derivedName, Bool.true_and, Bool.not_eq_true', Bool.not_eq_false,
      List.contains_iff_mem] at reserved
    -- the one reserved word that has the word inside is the word itself, so the name has eight characters
    have only : ∀ w ∈ Sql.reservedWords,
        distinctWord.map Text.upperChar <:+: w.toList → w.toList.length = 8 := by decide +kernel
    have eight := only _ reserved (by rw [Text.upper, String.toList_ofList]; exact inside.map _)
    rw [Text.upper, String.toList_ofList, List.length_map] at eight
    have room := length_letters_le_derivedName [e, f, "distinct"]
    rw [flatMap_distinct, letters_append, letters_of_all isNameChar_distinctWord, List.length_append,
      eight] at room
    have here : c ∈ letters (e.toList ++ f.toList) := List.mem_filter.2 ⟨hc, name⟩
    have some := List.length_pos_of_mem here
    have word : distinctWord.length = 8 := by decide
    omega

/-! ### The names of a schema -/

section Names
variable {s : Schema}

/-- A base name needs no quotes, or it is that of the trigger of a set with unique elements. -/
lemma base_cases {base : String} (h : base ∈ schemaBases s) : Sql.isPlainName base = true ∨
    ∃ e ∈ s.entities, ∃ f ∈ e.fields, f.cardinality = .set ∧ f.carries .unique = true ∧
      base = derivedName [e.name, f.name, "distinct"] := by
  rcases List.mem_append.1 h with h | h
  · obtain ⟨e, -, h⟩ := List.mem_flatMap.1 h
    obtain ⟨reference, -, rfl⟩ := List.mem_map.1 h
    exact .inl (isPlainName_of_mem_ownWords (by decide : "fk" ∈ ownWords) (by simp))
  obtain ⟨e, he, h⟩ := List.mem_flatMap.1 h
  simp only [entityBases, List.mem_append] at h
  rcases h with ((set | search) | audit) | soft
  · obtain ⟨f, hf, rfl⟩ := List.mem_map.1 set
    rw [List.mem_filter, Bool.and_eq_true, beq_iff_eq] at hf
    exact .inr ⟨e, he, f, hf.1, hf.2.1, hf.2.2, rfl⟩
  · obtain ⟨p, -, rfl⟩ := List.mem_map.1 search
    exact .inl (isPlainName_of_mem_ownWords (by decide : "fts" ∈ ownWords) (by simp))
  · obtain ⟨event, -, rfl⟩ := List.mem_map.1 audit
    have own : event.word ∈ ownWords := by cases event <;> decide
    exact .inl (isPlainName_of_mem_ownWords own (by simp))
  · obtain ⟨_, -, rfl⟩ := List.mem_map.1 soft
    exact .inl (isPlainName_of_mem_ownWords (by decide : "active" ∈ ownWords) (by simp))

lemma distinct_mem_schemaBases {e : Schema.Entity} (he : e ∈ s.entities) {f : Schema.Field}
    (hf : f ∈ e.fields) (set : f.cardinality = .set) (unique : f.carries .unique = true) :
    derivedName [e.name, f.name, "distinct"] ∈ schemaBases s := by
  refine List.mem_append_right _ (List.mem_flatMap.2 ⟨e, he, ?_⟩)
  simp only [entityBases, List.mem_append]
  refine .inl (.inl (.inl (List.mem_map.2 ⟨f, List.mem_filter.2 ⟨hf, ?_⟩, rfl⟩)))
  rw [set, unique]
  rfl

/-- A name given out for a schema needs no quotes, unless it is the word `distinct`. -/
lemma given_cases {name : String} (h : name ∈ NameTable.given (schemaBases s)) :
    Sql.isPlainName name = true ∨ name = "distinct" ∧ name ∈ schemaBases s := by
  obtain ⟨base, mem, form⟩ := NameTable.exists_base_of_mem_claims h
  rcases base_cases mem with plain | ⟨e, -, f, -, -, -, eq⟩
  · rcases form with rfl | ⟨i, rfl⟩
    · exact .inl plain
    · rw [Sql.isPlainName, Bool.and_eq_true] at plain
      exact .inl (isPlainName_numbered plain.1 i)
  · rcases form with rfl | ⟨i, rfl⟩
    · by_cases named : ∃ c ∈ e.name.toList ++ f.name.toList, isNameChar c = true
      · exact .inl (eq ▸ isPlainName_distinct_iff.2 named)
      · refine .inr ⟨?_, mem⟩
        rw [eq]
        exact derivedName_distinct (List.filter_eq_nil_iff.2 fun c hc name => named ⟨c, hc, name⟩)
    · exact .inl (isPlainName_numbered (eq ▸ isPlainWord_derivedName _) i)

/-- No name given out for a schema needs quotes exactly if every set with unique elements, or its
entity, has a name with a letter or digit. -/
lemma plain_given_iff : (∀ name ∈ NameTable.given (schemaBases s), Sql.isPlainName name = true) ↔
    ∀ e ∈ s.entities, ∀ f ∈ e.fields, f.cardinality = .set → f.carries .unique = true →
      ∃ c ∈ e.name.toList ++ f.name.toList, isNameChar c = true := by
  constructor
  · intro plain e he f hf set unique
    have given := NameTable.mem_claims (t := NameTable.empty)
      (distinct_mem_schemaBases he hf set unique) rfl
    exact isPlainName_distinct_iff.1 (plain _ given)
  · intro named name h
    rcases given_cases h with plain | ⟨rfl, mem⟩
    · exact plain
    · rcases base_cases mem with plain | ⟨e, he, f, hf, set, unique, eq⟩
      · exact plain
      · rw [eq]
        exact isPlainName_distinct_iff.2 (named e he f hf set unique)

end Names

/-! ### The names of a script -/

namespace Statement

/-- The names that the generator makes up for a statement and writes without quotes. -/
def bareNames : Statement → List String
  | search _ name _ _ _ => [name]
  | audit name _ _ => [name]
  | distinctElements name _ _ => [name]
  | softDelete name _ _ => [name]
  | foreignKey k => [k.name]
  | table t => t.foreignKeys.map (·.name)
  | _ => []

lemma mem_bareNames_iff {st : Statement} {name : String} :
    name ∈ st.bareNames ↔ name ∈ st.made ∨ name ∈ st.foreignKeys.map (·.name) := by
  cases st <;> simp [bareNames, made, kind, Kind.isMade, label, foreignKeys]

end Statement

/-- A text stands in another one as it is. -/
def StandsIn (name s : String) : Prop := ∃ lead tail, s = lead ++ name ++ tail

namespace StandsIn
variable {name s : String}

lemma refl (name : String) : StandsIn name name :=
  ⟨"", "", by simp⟩

lemma behind (lead : String) (h : StandsIn name s) : StandsIn name (lead ++ s) := by
  obtain ⟨front, tail, rfl⟩ := h
  exact ⟨lead ++ front, tail, by simp only [String.append_assoc]⟩

lemma before (h : StandsIn name s) (tail : String) : StandsIn name (s ++ tail) := by
  obtain ⟨lead, back, rfl⟩ := h
  exact ⟨lead, back ++ tail, by simp only [String.append_assoc]⟩

lemma join {separator : String} {ss : List String} (h : StandsIn name s) (mem : s ∈ ss) :
    StandsIn name (Text.join separator ss) := by
  induction ss with
  | nil => cases mem
  | cons t ss ih =>
    cases ss with
    | nil =>
      obtain rfl := List.mem_singleton.1 mem
      exact h
    | cons u ss =>
      rw [Text.join]
      rcases List.mem_cons.1 mem with rfl | mem
      · exact (h.before _).before _
      · exact (ih mem).behind _

end StandsIn

/-- A foreign key has its name in front. -/
lemma standsIn_foreignKey (k : ForeignKey) : StandsIn k.name k.sql := by
  iterate 7 apply StandsIn.before
  exact .refl _

/-- A bare name stands in the SQL of its statement as it is. -/
lemma Statement.standsIn_sql (d : Dialect) {st : Statement} {name : String} (h : name ∈ st.bareNames) :
    StandsIn name (st.sql d) := by
  cases st with
  | search ifNotExists name owner method columns =>
    obtain rfl := List.mem_singleton.1 h
    iterate 7 apply StandsIn.before
    exact (StandsIn.refl _).behind _
  | audit name owner event =>
    obtain rfl := List.mem_singleton.1 h
    iterate 7 apply StandsIn.before
    exact (StandsIn.refl _).behind _
  | distinctElements name owner column =>
    obtain rfl := List.mem_singleton.1 h
    iterate 5 apply StandsIn.before
    exact (StandsIn.refl _).behind _
  | softDelete name owner column =>
    obtain rfl := List.mem_singleton.1 h
    iterate 5 apply StandsIn.before
    exact (StandsIn.refl _).behind _
  | foreignKey k =>
    obtain rfl := List.mem_singleton.1 h
    exact (standsIn_foreignKey k).behind _
  | table t =>
    obtain ⟨k, hk, rfl⟩ := List.mem_map.1 h
    obtain ⟨element, mem, found⟩ := List.mem_filterMap.1 hk
    have key : StandsIn k.name (element.sql d) := by
      cases element <;> cases found
      exact (standsIn_foreignKey k).behind _
    exact (((key.join (List.mem_map_of_mem mem)).behind _).before _).before _
  | _ => cases h

/-- The names that stand in a script without quotes are those given out for its schema. -/
lemma mem_given_iff {opts : Options} {s : Schema} {out : Output} (h : generate opts s = .ok out)
    {name : String} : (∃ st ∈ out.statements, name ∈ st.bareNames) ↔
      name ∈ NameTable.given (schemaBases s) := by
  have made := flatMap_made_of_generate h
  rw [given_schemaBases opts, ← foreignKeys_eq_of_generate h, List.mem_append]
  rw [← foreignKeys_eq_of_generate h] at made
  constructor
  · rintro ⟨st, hst, mem⟩
    rcases Statement.mem_bareNames_iff.1 mem with mem | mem
    · have all := List.mem_flatMap.2 ⟨st, hst, mem⟩
      rw [made, List.mem_append] at all
      rcases all with entity | alone
      · exact .inr entity
      · split at alone
        · exact .inl alone
        · cases alone
    · obtain ⟨k, hk, rfl⟩ := List.mem_map.1 mem
      exact .inl (List.mem_map_of_mem (List.mem_flatMap.2 ⟨st, hst, hk⟩))
  · rintro (key | entity)
    · obtain ⟨k, hk, rfl⟩ := List.mem_map.1 key
      obtain ⟨st, hst, hk⟩ := List.mem_flatMap.1 hk
      exact ⟨st, hst, Statement.mem_bareNames_iff.2 (.inr (List.mem_map_of_mem hk))⟩
    · obtain ⟨st, hst, mem⟩ : ∃ st ∈ out.statements, name ∈ st.made := by
        rw [← List.mem_flatMap, made]
        exact List.mem_append_left _ entity
      exact ⟨st, hst, Statement.mem_bareNames_iff.2 (.inl mem)⟩

end Ddl

namespace Compilation

/-- The names that a script has without quotes are plain, except that one may be the reserved word
`distinct`. That one occurs exactly if some set with unique elements and its entity have no letter or
digit of ASCII in their names. -/
theorem bare_names_plain_iff {path : String} {src : List UInt8} {o : CompileOptions} {out : Ddl.Output}
    (h : (run path src o).output = some out) :
    (∀ st ∈ out.statements, ∀ name ∈ st.bareNames, Ddl.StandsIn name (st.sql out.dialect) ∧
      (Sql.isPlainName name = true ∨ name = "distinct")) ∧
    ((∀ st ∈ out.statements, ∀ name ∈ st.bareNames, Sql.isPlainName name = true) ↔
      ∀ e ∈ (run path src o).schema.entities, ∀ f ∈ e.fields,
        f.cardinality = .set → f.carries .unique = true →
          ∃ c ∈ e.name.toList ++ f.name.toList, Ddl.isNameChar c = true) := by
  have generated := generate_of_output h
  refine ⟨fun st hst name mem => ⟨Ddl.Statement.standsIn_sql _ mem, ?_⟩, ?_⟩
  · exact (Ddl.given_cases ((Ddl.mem_given_iff generated).1 ⟨st, hst, mem⟩)).imp_right (·.1)
  · rw [run_schema, ← Ddl.plain_given_iff]
    constructor
    · intro plain name given
      obtain ⟨st, hst, mem⟩ := (Ddl.mem_given_iff generated).2 given
      exact plain st hst name mem
    · intro plain st hst name mem
      exact plain name ((Ddl.mem_given_iff generated).1 ⟨st, hst, mem⟩)

/-- Two entities with a digit or none in their names. -/
def digits : List UInt8 :=
  Text.bytes (":_7\n  INT $.id PK\n  TEXT %._ UNIQUE\n  AUDITABLE\n" ++
    ":_\n  INT $.id PK\n  INT $._7 FK(_7)\n  FTS(_7)\n")

/-- The names that are made from those of the entities are plain. -/
theorem bare_names_plain_iff_of_digits : ∃ out, (run "digits.erd" digits {}).output = some out ∧
    out.statements.flatMap (·.bareNames) =
      ["n_7_distinct", "n_7_set_created_at", "n_7_set_updated_at", "fts_1", "fk_7"] ∧
    ∀ st ∈ out.statements, ∀ name ∈ st.bareNames, Sql.isPlainName name = true := by
  have facts : (run "digits.erd" digits {}).output.map (·.statements.flatMap (·.bareNames)) =
        some ["n_7_distinct", "n_7_set_created_at", "n_7_set_updated_at", "fts_1", "fk_7"] ∧
      (run "digits.erd" digits {}).schema.entities.all (fun e => e.fields.all fun f =>
        f.cardinality != .set || (e.name.toList ++ f.name.toList).any Ddl.isNameChar) = true := by
    rw [run, analyse, digits, read_bytes, String.toList_append]
    decide +kernel
  obtain ⟨out, output, names⟩ := Option.map_eq_some_iff.1 facts.1
  refine ⟨out, output, names, (bare_names_plain_iff output).2.2 fun e he f hf set _ => ?_⟩
  have named := List.all_eq_true.1 (List.all_eq_true.1 facts.2 e he) f hf
  rw [set] at named
  exact List.any_eq_true.1 named

/-- An entity and a set with underscores for names. -/
def underscores : List UInt8 :=
  Text.bytes ":_\n  INT $.id PK\n  TEXT %._ UNIQUE\n"

/-- The document is accepted, and the trigger of its set has a reserved word for its name. -/
theorem bare_name_reserved : (run "underscores.erd" underscores {}).valid = true ∧
    ∃ out, (run "underscores.erd" underscores {}).output = some out ∧
      ∃ st ∈ out.statements, ∃ name ∈ st.bareNames, Sql.isPlainName name = false := by
  have facts : (run "underscores.erd" underscores {}).valid = true ∧
      (run "underscores.erd" underscores {}).output.map (fun out => decide (∃ st ∈ out.statements,
        ∃ name ∈ st.bareNames, Sql.isPlainName name = false)) = some true := by
    rw [run, analyse, underscores, read_bytes]
    decide +kernel
  obtain ⟨out, output, reserved⟩ := Option.map_eq_some_iff.1 facts.2
  exact ⟨facts.1, out, output, of_decide_eq_true reserved⟩

end Compilation

end ErdSql
