import ErdSql.Proofs.Phrase

/-!
# Reading phrases

How the head of a statement is read from the words of a phrase.

* `Script.Head.inside_of_phrase`: reading an item passes over a phrase in brackets.
* `Script.Head.name?_append`: a written name is read back part by part.
* `Script.Head.columns?_of_items`: a list of items is read item by item.
* `Script.Head.ofWords?_table`: a table is read back with the columns that its items open.
* `Script.Head.ofStatement?_create`: what creates something else is read as no table.

An item that opens with a word for a table constraint has no column, whatever else it says. Every such
word but `EXCLUDE` is reserved, so that a name of that spelling is quoted.
-/

namespace ErdSql.Script

open Text (ascii doubleByte)

namespace Head

/-! ### Skipping -/

/-- Words that reading an item passes over inside brackets. -/
def Inside (ws : List Word) : Prop :=
  ∀ o os rest, skipItem (o :: os) (ws ++ rest) = skipItem (o :: os) rest

/-- Words that reading an item passes over outside brackets. -/
def Outside (ws : List Word) : Prop :=
  ∀ rest, skipItem [] (ws ++ rest) = skipItem [] rest

/-- Words that are passed over one part after the other. -/
lemma Inside.append {ws vs : List Word} (h : Inside ws) (h' : Inside vs) : Inside (ws ++ vs) := by
  intro o os rest
  rw [List.append_assoc, h, h']

/-- Words that are passed over one part after the other. -/
lemma Outside.append {ws vs : List Word} (h : Outside ws) (h' : Outside vs) : Outside (ws ++ vs) := by
  intro rest
  rw [List.append_assoc, h, h']

/-- No words are passed over. -/
lemma outside_nil : Outside [] := fun _ => rfl

/-- A word is no bracket and no dot. -/
lemma isMark_of_atom {bs : List UInt8} {w : Word} (a : Atom bs w) {c : Char}
    (hc : c = '(' ∨ c = '[' ∨ c = '.') : w.isMark c = false := by
  have table : ∀ b : UInt8, isWordByte b = true ∨ b = ascii '"' ∨ b = ascii '\'' →
      b ≠ ascii '(' ∧ b ≠ ascii '[' ∧ b ≠ ascii '.' := forall_byte (by decide)
  have first {b : UInt8} {bs : List UInt8} (h : isWordByte b = true ∨ b = ascii '"' ∨ b = ascii '\'') :
      ((b :: bs) == [ascii c]) = false := by
    rw [beq_eq_false_iff_ne]
    intro e
    obtain ⟨e, -⟩ := List.cons.inj e
    obtain ⟨noParen, noBracket, noDot⟩ := table b h
    rcases hc with rfl | rfl | rfl
    · exact noParen e
    · exact noBracket e
    · exact noDot e
  cases a with
  | name start _ => exact first (.inl (isWordByte_of_isNameStart start))
  | whole start _ => exact first (.inl (isWordByte_of_isDigitByte start))
  | decimal start _ _ _ => exact first (.inl (isWordByte_of_isDigitByte start))
  | quotedName _ => exact first (.inr (.inl rfl))
  | string _ => exact first (.inr (.inr rfl))
  | escape _ => exact first (.inl (by decide))

/-- A word opens no bracket and belongs to an item by itself. -/
lemma plain_of_atom {bs : List UInt8} {w : Word} (a : Atom bs w) :
    closing? w = none ∧ isPlain w = true := by
  constructor
  · rw [closing?, isMark_of_atom a (.inl rfl), isMark_of_atom a (.inr (.inl rfl))]
    rfl
  · cases a <;> rfl

/-- The first word of a phrase is no dot. -/
lemma undotted_of_phrase {bs : List UInt8} {ws : List Word} (h : Phrase bs ws) :
    ∃ w, ws.head? = some w ∧ w.isMark '.' = false := by
  have left {ws vs : List Word} (h : ∃ w, ws.head? = some w ∧ w.isMark '.' = false) :
      ∃ w, (ws ++ vs).head? = some w ∧ w.isMark '.' = false := by
    obtain ⟨w, hw, undotted⟩ := h
    exact ⟨w, by rw [List.head?_append, hw]; rfl, undotted⟩
  induction h with
  | atom a => exact ⟨_, rfl, isMark_of_atom a (.inr (.inr rfl))⟩
  | dotted a _ _ _ => exact ⟨_, rfl, isMark_of_atom a (.inr (.inr rfl))⟩
  | spaced _ _ ih _ => exact left ih
  | listed _ _ ih _ => exact left ih
  | parens _ _ => exact ⟨_, rfl, by decide⟩
  | unit => exact ⟨_, rfl, by decide⟩
  | behind _ _ ih _ => exact left ih
  | brackets _ ih => exact left ih
  | star _ _ => exact ⟨_, rfl, by decide⟩

/-- A plain word is passed over inside brackets. -/
lemma inside_plain {w : Word} (h : closing? w = none) (plain : isPlain w = true) : Inside [w] := by
  intro o os rest
  rw [List.singleton_append, skipItem, h]
  simp [plain]

/-- A plain word is passed over outside brackets. -/
lemma outside_plain {w : Word} (h : closing? w = none) (plain : isPlain w = true) : Outside [w] := by
  intro rest
  rw [List.singleton_append, skipItem, h]
  simp [plain]

/-- A comma is passed over inside brackets. -/
lemma inside_comma : Inside [mark ','] := by
  intro o os rest
  rw [List.singleton_append, skipItem]
  rfl

/-- A bracket group is passed over. -/
lemma skipItem_group {ws : List Word} (h : Inside ws) {a b : Char}
    (hab : (a = '(' ∧ b = ')') ∨ (a = '[' ∧ b = ']')) (opened : List Opening) (rest : List Word) :
    skipItem opened (mark a :: ws ++ mark b :: rest) = skipItem opened rest := by
  have step : skipItem opened (mark a :: (ws ++ mark b :: rest)) =
      skipItem (⟨b, mark a :: (ws ++ mark b :: rest)⟩ :: opened) (ws ++ mark b :: rest) := by
    rcases hab with ⟨rfl, rfl⟩ | ⟨rfl, rfl⟩ <;> cases opened <;> rfl
  rw [List.cons_append, step, h]
  rcases hab with ⟨rfl, rfl⟩ | ⟨rfl, rfl⟩ <;> rfl

/-- A group in parentheses is passed over outside brackets. -/
lemma outside_parens {ws : List Word} (h : Inside ws) : Outside (mark '(' :: ws ++ [mark ')']) := by
  intro rest
  rw [List.append_assoc]
  exact skipItem_group h (.inl ⟨rfl, rfl⟩) [] rest

/-- Empty square brackets are passed over outside brackets. -/
lemma outside_brackets : Outside [mark '[', mark ']'] :=
  fun rest => @skipItem_group [] (fun _ _ _ => rfl) _ _ (.inr ⟨rfl, rfl⟩) [] rest

/-- The words of a phrase are passed over inside brackets. -/
lemma inside_of_phrase {bs : List UInt8} {ws : List Word} (h : Phrase bs ws) : Inside ws := by
  induction h with
  | atom a => exact inside_plain (plain_of_atom a).1 (plain_of_atom a).2
  | dotted a kind rest ih =>
    exact (inside_plain (plain_of_atom a).1 (plain_of_atom a).2).append
      ((inside_plain (w := mark '.') (by decide) (by decide)).append ih)
  | spaced left right ihl ihr => exact ihl.append ihr
  | listed left right ihl ihr => exact ihl.append (inside_comma.append ihr)
  | parens inner ih =>
    intro o os rest
    rw [List.append_assoc]
    exact skipItem_group ih (.inl ⟨rfl, rfl⟩) (o :: os) rest
  | unit => exact fun o os rest => @skipItem_group [] (fun _ _ _ => rfl) _ _ (.inl ⟨rfl, rfl⟩) (o :: os) rest
  | behind left right ihl ihr => exact ihl.append ihr
  | brackets left ih =>
    exact ih.append fun o os rest =>
      @skipItem_group [] (fun _ _ _ => rfl) _ _ (.inr ⟨rfl, rfl⟩) (o :: os) rest
  | star rest ih => exact (inside_plain (w := star) (by decide) (by decide)).append ih

/-! ### Names -/

/-- The words of a name with dots between its parts. -/
def nameWords : List Word → List Word
  | [] => []
  | w :: ws => w :: ws.flatMap fun v => [mark '.', v]

/-- The parts behind the first are read until no dot follows. -/
lemma moreParts_append {ws : List Word} {parts : Name}
    (h : List.Forall₂ (fun w part => namePart? w = some part) ws parts) {rest : List Word}
    (stop : ∀ w ∈ rest.head?, w.isMark '.' = false) :
    moreParts ((ws.flatMap fun v => [mark '.', v]) ++ rest) = (parts, rest) := by
  induction h with
  | nil =>
    match rest with
    | [] => rfl
    | [_] => rfl
    | w :: v :: rest =>
      have := stop w rfl
      simp [moreParts, this]
  | @cons w part ws parts first _ ih =>
    have dot : (mark '.').isMark '.' = true := by decide
    rw [List.flatMap_cons, List.append_assoc, List.cons_append, List.singleton_append, moreParts,
      if_pos dot, first, ih]

/-- A name is read part by part. -/
lemma name?_append {ws : List Word} {parts : Name}
    (h : List.Forall₂ (fun w part => namePart? w = some part) ws parts) (ne : ws ≠ []) {rest : List Word}
    (stop : ∀ w ∈ rest.head?, w.isMark '.' = false) :
    name? (nameWords ws ++ rest) = some (parts, rest) := by
  cases h with
  | nil => exact absurd rfl ne
  | cons first more =>
    rw [nameWords, List.cons_append, name?, first, Option.map_some, moreParts_append more stop]

/-! ### Items -/

/-- What follows an item: a comma, or the end of the list. -/
def Closes (tail : List Word) : Prop :=
  ∃ w rest, tail = w :: rest ∧ (w = mark ',' ∨ w = mark ')')

/-- Words that are read as an item with the given column. -/
def Item (ws : List Word) (column : Option Name) : Prop :=
  ws ≠ [] ∧ ∀ tail, Closes tail → item (ws ++ tail) = .read column tail

/-- An item ends at a comma and at the end of the list. -/
lemma skipItem_of_closes {tail : List Word} (h : Closes tail) : skipItem [] tail = some tail := by
  obtain ⟨w, rest, rfl, rfl | rfl⟩ := h <;> rfl

/-- An item that opens with a name has a column. -/
lemma item_column {w : Word} {ws cs : List Word} {parts : Name}
    (free : constraintWords.any w.spells = false)
    (names : List.Forall₂ (fun w part => namePart? w = some part) (w :: ws) parts)
    (outside : Outside cs) (undotted : ∀ w ∈ cs.head?, w.isMark '.' = false) :
    Item (nameWords (w :: ws) ++ cs) (some parts) := by
  refine ⟨by simp [nameWords], fun tail closes => ?_⟩
  have stop : ∀ w ∈ (cs ++ tail).head?, w.isMark '.' = false := by
    intro v hv
    cases cs with
    | nil =>
      obtain ⟨u, rest, rfl, rfl | rfl⟩ := closes <;> (cases hv; decide)
    | cons c cs => exact undotted v hv
  have read : name? (w :: ((ws.flatMap fun v => [mark '.', v]) ++ (cs ++ tail))) =
      some (parts, cs ++ tail) := name?_append names (by simp) stop
  have skip : skipItem [] (cs ++ tail) = some tail := by
    rw [outside, skipItem_of_closes closes]
  rw [nameWords, List.cons_append, List.cons_append, item, free]
  simp [read, skip]

/-- An item that opens with a word for a table constraint has no column. -/
lemma item_constraint {w : Word} {cs : List Word} (taken : constraintWords.any w.spells = true)
    (outside : Outside cs) : Item (w :: cs) none := by
  refine ⟨by simp, fun tail closes => ?_⟩
  have skip : skipItem [] (cs ++ tail) = some tail := by
    rw [outside, skipItem_of_closes closes]
  rw [List.cons_append, item, taken]
  simp [skip]

/-- The words of items with commas between them. -/
def listWords : List (List Word × Option Name) → List Word
  | [] => []
  | i :: is => i.1 ++ is.flatMap fun j => mark ',' :: j.1

/-- The items behind the first are read until no comma follows. -/
lemma moreItems_append {is : List (List Word × Option Name)} (h : ∀ i ∈ is, Item i.1 i.2)
    (rest : List Word) :
    moreItems ((is.flatMap fun j => mark ',' :: j.1) ++ mark ')' :: rest) =
      some (is.map Prod.snd, mark ')' :: rest) := by
  induction is with
  | nil =>
    have noComma : (mark ')').isMark ',' = false := by decide
    rw [List.flatMap_nil, List.nil_append, moreItems, noComma]
    rfl
  | cons i is ih =>
    obtain ⟨ne, read⟩ := h i List.mem_cons_self
    have comma : (mark ',').isMark ',' = true := by decide
    have closes : Closes ((is.flatMap fun j => mark ',' :: j.1) ++ mark ')' :: rest) := by
      cases is with
      | nil => exact ⟨_, _, rfl, .inr rfl⟩
      | cons j is => exact ⟨_, _, rfl, .inl rfl⟩
    have shorter : ((is.flatMap fun j => mark ',' :: j.1) ++ mark ')' :: rest).length <
        (mark ',' :: (i.1 ++ ((is.flatMap fun j => mark ',' :: j.1) ++ mark ')' :: rest))).length := by
      simp
    rw [List.flatMap_cons, List.append_assoc, List.cons_append, moreItems, if_pos comma, read _ closes]
    dsimp only
    rw [if_pos shorter, ih fun j hj => h j (List.mem_cons_of_mem i hj)]
    rfl

/-- A list in parentheses is read item by item. -/
lemma columns?_of_items {is : List (List Word × Option Name)} (h : ∀ i ∈ is, Item i.1 i.2)
    (rest : List Word) :
    columns? (mark '(' :: listWords is ++ mark ')' :: rest) = some (is.filterMap Prod.snd) := by
  have opening : (!(mark '(').isMark '(') = false := by decide
  have closing : (mark ')').isMark ')' = true := by decide
  rw [List.cons_append, columns?, opening]
  cases is with
  | nil =>
    have absent : item (mark ')' :: rest) = .absent := rfl
    rw [listWords, List.nil_append, absent]
    rfl
  | cons i is =>
    obtain ⟨ne, read⟩ := h i List.mem_cons_self
    have closes : Closes ((is.flatMap fun j => mark ',' :: j.1) ++ mark ')' :: rest) := by
      cases is with
      | nil => exact ⟨_, _, rfl, .inr rfl⟩
      | cons j is => exact ⟨_, _, rfl, .inl rfl⟩
    rw [listWords, List.append_assoc, read _ closes]
    dsimp only
    rw [moreItems_append fun j hj => h j (List.mem_cons_of_mem i hj)]
    dsimp only
    rw [if_neg (by decide), if_pos closing, ← List.map_cons, List.filterMap_map]
    rfl

/-! ### Statements -/

/-- A bare word of the language. -/
def keyword (s : String) : Word := ⟨.name, Text.bytes s⟩

/-- The guard of a created table is skipped, and a name that starts like a guard is not. -/
lemma skipWords_guard (guarded : Bool) {ws : List Word} {parts : Name}
    (h : List.Forall₂ (fun w part => namePart? w = some part) ws parts) (ne : ws ≠ [])
    (rest : List Word) :
    skipWords ["IF", "NOT", "EXISTS"]
      ((if guarded then [keyword "IF", keyword "NOT", keyword "EXISTS"] else []) ++
        (nameWords ws ++ mark '(' :: rest)) = nameWords ws ++ mark '(' :: rest := by
  cases guarded with
  | true => rfl
  | false =>
    have dot : (mark '.').spells "NOT" = false := by decide
    have opening : (mark '(').spells "NOT" = false := by decide
    cases ws with
    | nil => exact absurd rfl ne
    | cons w ws =>
      -- the second word is a dot or the parenthesis
      have none : dropWords? ["IF", "NOT", "EXISTS"] (nameWords (w :: ws) ++ mark '(' :: rest) = none := by
        rw [nameWords, List.cons_append, dropWords?]
        split
        · cases ws with
          | nil =>
            rw [List.flatMap_nil, List.nil_append, dropWords?, opening]
            rfl
          | cons v ws =>
            rw [List.flatMap_cons, List.append_assoc, List.cons_append, dropWords?, dot]
            rfl
        · rfl
      rw [if_neg (by decide), List.nil_append, skipWords, none]
      rfl

/-- A created table is read with its name and the columns of its items. -/
lemma ofWords?_table (guarded : Bool) {ws : List Word} {parts : Name}
    (names : List.Forall₂ (fun w part => namePart? w = some part) ws parts) (ne : ws ≠ [])
    {is : List (List Word × Option Name)} (items : ∀ i ∈ is, Item i.1 i.2) :
    ofWords? (keyword "CREATE" :: keyword "TABLE" ::
      ((if guarded then [keyword "IF", keyword "NOT", keyword "EXISTS"] else []) ++
        (nameWords ws ++ mark '(' :: (listWords is ++ [mark ')'])))) =
      some (.create .table parts none (is.filterMap Prod.snd)) := by
  have stop : ∀ w ∈ (mark '(' :: (listWords is ++ [mark ')'])).head?, w.isMark '.' = false := by
    rintro _ ⟨⟩
    decide
  have columns := columns?_of_items items []
  rw [List.cons_append] at columns
  have behind : nameBehind ["ON"] (mark '(' :: (listWords is ++ [mark ')'])) =
      (none, mark '(' :: (listWords is ++ [mark ')'])) := rfl
  change create? (keyword "TABLE" :: _) = _
  unfold create?
  change (Option.some Object.table).bind _ = _
  rw [Option.bind_some, skipWords_guard guarded names ne, name?_append names ne stop]
  change (columns? (nameBehind ["ON"] (mark '(' :: (listWords is ++ [mark ')']))).2).bind _ = _
  rw [behind, columns]
  rfl

/-- What is created is read from the word behind `CREATE`. -/
lemma object_of_create? {w : Word} {ws : List Word} {o : Object} (ho : Object.ofWord? w = some o)
    (skip : skipWords ["MATERIALIZED"] (skipWords ["UNIQUE"] (skipWords ["OR", "REPLACE"] (w :: ws))) =
      w :: ws) {h : Head} (read : create? (w :: ws) = some h) :
    ∃ name on columns, h = .create o name on columns := by
  unfold create? at read
  rw [skip] at read
  change (Object.ofWord? w).bind _ = some h at read
  rw [ho, Option.bind_some] at read
  obtain ⟨⟨name, rest⟩, -, read⟩ := Option.bind_eq_some_iff.1 read
  obtain ⟨columns, -, read⟩ := Option.bind_eq_some_iff.1 read
  exact ⟨name, _, columns, (Option.some.inj read).symm⟩

/-- A statement that creates something else than a table is read as no table. -/
lemma ofStatement?_create {bs : List UInt8} {object : String} {ws : List Word}
    (phrase : Phrase bs (keyword "CREATE" :: keyword object :: ws))
    (other : object = "TYPE" ∨ object = "TRIGGER" ∨ object = "VIEW") :
    Table.ofStatement? bs = none := by
  obtain ⟨o, ne, ho, skip⟩ : ∃ o : Object, o ≠ .table ∧ Object.ofWord? (keyword object) = some o ∧
      skipWords ["MATERIALIZED"] (skipWords ["UNIQUE"]
        (skipWords ["OR", "REPLACE"] (keyword object :: ws))) = keyword object :: ws := by
    rcases other with rfl | rfl | rfl
    · exact ⟨.type, nofun, rfl, rfl⟩
    · exact ⟨.trigger, nofun, rfl, rfl⟩
    · exact ⟨.view, nofun, rfl, rfl⟩
  rw [Table.ofStatement?, ofStatement?, phrase.words?_eq, Option.bind_some]
  have created : ofWords? (keyword "CREATE" :: keyword object :: ws) = create? (keyword object :: ws) := rfl
  rw [created]
  cases e : create? (keyword object :: ws) with
  | none => rfl
  | some h =>
    obtain ⟨name, on, columns, rfl⟩ := object_of_create? ho skip e
    cases o with
    | table => exact absurd rfl ne
    | _ => rfl

/-- A statement that alters a table creates none. -/
lemma ofStatement?_alter {bs : List UInt8} {ws : List Word}
    (phrase : Phrase bs (keyword "ALTER" :: keyword "TABLE" :: ws)) :
    Table.ofStatement? bs = none := by
  rw [Table.ofStatement?, ofStatement?, phrase.words?_eq, Option.bind_some]
  have altered : ofWords? (keyword "ALTER" :: keyword "TABLE" :: ws) = alterTable? ws := rfl
  rw [altered]
  cases e : alterTable? ws with
  | none => rfl
  | some h =>
    obtain ⟨⟨table, rest⟩, -, read⟩ := Option.bind_eq_some_iff.1 e
    rw [← Option.some.inj read]
end Head

end ErdSql.Script
