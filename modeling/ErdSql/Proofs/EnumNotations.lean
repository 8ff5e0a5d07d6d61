import ErdSql.Proofs.Faultless

/-!
# The two notations of enumerations

The labels of an enumeration stand in braces, where each of them is a token, or in brackets, where all
of them are the text of one list token that is cut at its commas. Whatever labels are written, as names
or as strings, both notations are read without an error and give the same labels.

* `Scan.listEnd_label`, `Document.go_label`: the end of a list and the end of an item are found by
  automata of their own, and neither stops inside a label.
* `Document.reads_enumLabels`: labels in braces are read one by one.
* `Document.listItems_labels`: a list of labels is cut into these labels.
-/

namespace ErdSql

lemma Text.doubleChar_cons_self (q : Char) (cs : List Char) :
    doubleChar q (q :: cs) = q :: q :: doubleChar q cs := by
  simp [doubleChar]

lemma Text.doubleChar_cons_of_ne {q c : Char} (other : c ≠ q) (cs : List Char) :
    doubleChar q (c :: cs) = c :: doubleChar q cs := by
  simp [doubleChar, other]

namespace Document

open Scan Document.Parser

/-! ### Labels -/

/-- A label of an enumeration as it is written. -/
inductive Label where
  /-- An identifier or a keyword. -/
  | name (text : String)
  | quoted (quote : Char) (content : String)

namespace Label

/-- The quotes of a string are single or double, and its content stays on its line. -/
def WellFormed : Label → Prop
  | name text => isName text = true
  | quoted quote content => (quote = '\'' ∨ quote = '"') ∧ '\n' ∉ content.toList

instance : (l : Label) → Decidable l.WellFormed
  | name text => inferInstanceAs (Decidable (isName text = true))
  | quoted quote content =>
    inferInstanceAs (Decidable ((quote = '\'' ∨ quote = '"') ∧ '\n' ∉ content.toList))

/-- The characters of a label; a quote within its quotes is doubled. -/
def chars : Label → List Char
  | name text => text.toList
  | quoted quote content => quote :: (Text.doubleChar quote content.toList ++ [quote])

/-- The text of a label. -/
def text (l : Label) : String := String.ofList l.chars

/-- What a label stands for. -/
def value : Label → String
  | name text => text
  | quoted _ content => content

/-- The token of a label. -/
def piece : Label → Piece
  | name text => .name text
  | quoted quote content => .lexeme .string (quoted quote content).text

/-- An enumeration with labels in braces. -/
def inBraces (name : String) (labels : List Label) : String :=
  "enum " ++ name ++ " \x7b " ++ Text.join ", " (labels.map text) ++ " \x7d"

/-- An enumeration with labels in brackets. -/
def inBrackets (name : String) (labels : List Label) : String :=
  "enum " ++ name ++ " [" ++ Text.join ", " (labels.map text) ++ "]"

end Label

/-! ### The characters of a label -/

/-- Whether a character neither quotes nor encloses, divides items or ends a line. -/
def isPlain (c : Char) : Bool :=
  c != '\'' && c != '"' && c != '[' && c != ']' && c != ',' && c != '\n'

/-- A name has no character that ends it within a list. -/
lemma isPlain_of_mem {s : String} (h : isName s = true) : ∀ c ∈ s.toList, isPlain c = true := by
  intro c hc
  have part := chars_of_isName h hc
  by_contra other
  simp only [isPlain, Bool.and_eq_true, bne_iff_ne, not_and_or, not_not] at other
  rcases other with ((((rfl | rfl) | rfl) | rfl) | rfl) | rfl <;> exact absurd part (by decide)

/-- The characters of a label neither start nor end with white space. -/
lemma Label.solid {l : Label} (h : l.WellFormed) : Solid l.chars := by
  cases l with
  | name s =>
    have space : ∀ c ∈ s.toList, Text.isSpace c = false := by
      intro c hc
      rcases chars_of_isName h hc with part | rfl | rfl
      · exact isSpace_of_isNamePart part
      · decide
      · decide
    obtain ⟨c, cs, e, -⟩ := name_of_isName h
    refine ⟨?_, fun c hc => space c (List.mem_of_mem_head? hc), fun c hc =>
      space c (List.mem_of_mem_getLast? hc)⟩
    show s.toList ≠ []
    rw [e]
    exact List.cons_ne_nil c cs
  | quoted q content =>
    have space : Text.isSpace q = false := by
      rcases h.1 with rfl | rfl <;> decide
    exact solid_enclosed space space _

/-- A label without its quotes is what it stands for. -/
lemma Label.unquoteChars_chars {l : Label} (h : l.WellFormed) :
    Token.unquoteChars l.chars = l.value.toList := by
  cases l with
  | name s =>
    show Token.unquoteChars s.toList = s.toList
    match e : s.toList with
    | [] => rfl
    | [c] => rfl
    | c :: d :: rest =>
      have plain := isPlain_of_mem h c (by simp [e])
      simp only [isPlain, Bool.and_eq_true, bne_iff_ne] at plain
      simp [Token.unquoteChars, plain]
  | quoted q content => exact Token.unquoteChars_enclosed h.1 content.toList

end Document

/-! ### Finding the end of a label -/

namespace Scan

/-- A list goes on behind the string in which it stands; no quote may follow the closing one. -/
lemma listEnd_doubleChar {q : Char} {body : List Char} (feed : '\n' ∉ body) (other : q ≠ '\n')
    {c : Char} (stop : c ≠ q) (n depth before : Nat) (cs : List Char) :
    listEnd n depth (some (q, before)) (Text.doubleChar q body ++ q :: c :: cs) =
      listEnd (n + (Text.doubleChar q body).length + 1) depth none (c :: cs) := by
  induction body generalizing n with
  | nil =>
    show listEnd n depth (some (q, before)) (q :: c :: cs) = listEnd (n + 1) depth none (c :: cs)
    simp [listEnd, other, stop]
  | cons b body ih =>
    rw [List.mem_cons, not_or] at feed
    by_cases same : b = q
    · -- a doubled quote is passed in one step
      subst same
      have next := ih feed.2 (n + 2)
      rw [Text.doubleChar_cons_self, List.length_cons, List.length_cons, List.cons_append, List.cons_append,
        listEnd, show n + ((Text.doubleChar b body).length + 1 + 1) + 1 =
          n + 2 + (Text.doubleChar b body).length + 1 by omega, ← next]
      simp [other]
    · have next := ih feed.2 (n + 1)
      rw [Text.doubleChar_cons_of_ne same, List.length_cons, List.cons_append, listEnd.eq_def,
        show n + ((Text.doubleChar q body).length + 1) + 1 = n + 1 + (Text.doubleChar q body).length + 1 by
          omega, ← next]
      simp [Ne.symm feed.1, same]

open Document

/-- A list goes on behind plain characters. -/
lemma listEnd_plain {xs : List Char} (plain : ∀ c ∈ xs, isPlain c = true) (n depth : Nat) (cs : List Char) :
    listEnd n depth none (xs ++ cs) = listEnd (n + xs.length) depth none cs := by
  induction xs generalizing n with
  | nil => rfl
  | cons x xs ih =>
    obtain ⟨here, others⟩ := List.forall_mem_cons.1 plain
    simp only [isPlain, Bool.and_eq_true, bne_iff_ne] at here
    rw [List.cons_append, listEnd.eq_def]
    simp only [here, beq_iff_eq, Bool.or_eq_true, or_self, if_false]
    rw [ih others, List.length_cons, Nat.add_assoc, Nat.add_comm 1]

/-- A list goes on behind a label. -/
lemma listEnd_label {l : Label} (h : l.WellFormed) {c : Char} (stop : c ≠ '\'' ∧ c ≠ '"') (n depth : Nat)
    (cs : List Char) :
    listEnd n depth none (l.chars ++ c :: cs) = listEnd (n + l.chars.length) depth none (c :: cs) := by
  cases l with
  | name s => exact listEnd_plain (isPlain_of_mem h) n depth _
  | quoted q content =>
    obtain ⟨quote, feed⟩ := h
    have other : q ≠ '\n' := by rcases quote with rfl | rfl <;> decide
    have apart : c ≠ q := by
      rcases quote with rfl | rfl
      · exact stop.1
      · exact stop.2
    have opened : listEnd n depth none ((Label.quoted q content).chars ++ c :: cs) =
        listEnd (n + 1) depth (some (q, n)) (Text.doubleChar q content.toList ++ q :: c :: cs) := by
      rw [Label.chars, List.cons_append, List.append_assoc, listEnd.eq_def]
      rcases quote with rfl | rfl <;> simp
    rw [opened, listEnd_doubleChar feed other apart]
    congr 1
    simp [Label.chars]
    omega

end Scan

namespace Document

open Scan Document.Parser

section Items
variable {q : Char} {body xs cs collected : List Char} {depth : Int}

/-- An item goes on behind a string: a doubled quote closes it and opens it again. -/
lemma go_doubleChar (quote : q = '\'' ∨ q = '"') :
    listItems.go collected (some q) depth (Text.doubleChar q body ++ q :: cs) =
      listItems.go ((Text.doubleChar q body ++ [q]).reverse ++ collected) none depth cs := by
  induction body generalizing collected with
  | nil =>
    show listItems.go collected (some q) depth (q :: cs) = listItems.go (q :: collected) none depth cs
    simp [listItems.go]
  | cons b body ih =>
    by_cases same : b = q
    · subst same
      have again : (b == '\'' || b == '"') = true := by
        rcases quote with rfl | rfl <;> decide
      rw [Text.doubleChar_cons_self, List.cons_append, List.cons_append, listItems.go, beq_self_eq_true,
        if_pos rfl, listItems.go, again, if_pos rfl, ih]
      simp
    · rw [Text.doubleChar_cons_of_ne same, List.cons_append, listItems.go, if_neg (by simpa using same), ih]
      simp

/-- An item goes on behind plain characters. -/
lemma go_plain (plain : ∀ c ∈ xs, isPlain c = true) :
    listItems.go collected none depth (xs ++ cs) = listItems.go (xs.reverse ++ collected) none depth cs := by
  induction xs generalizing collected with
  | nil => rfl
  | cons x xs ih =>
    obtain ⟨here, others⟩ := List.forall_mem_cons.1 plain
    simp only [isPlain, Bool.and_eq_true, bne_iff_ne] at here
    rw [List.cons_append, listItems.go]
    simp only [here, beq_iff_eq, Bool.or_eq_true, Bool.and_eq_true, or_self, false_and, if_false]
    rw [ih others, List.reverse_cons, List.append_assoc]
    rfl

/-- An item goes on behind a label. -/
lemma go_label {l : Label} (h : l.WellFormed) :
    listItems.go collected none depth (l.chars ++ cs) =
      listItems.go (l.chars.reverse ++ collected) none depth cs := by
  cases l with
  | name s => exact go_plain (isPlain_of_mem h)
  | quoted q content =>
    have opened : listItems.go collected none depth ((Label.quoted q content).chars ++ cs) =
        listItems.go (q :: collected) (some q) depth (Text.doubleChar q content.toList ++ q :: cs) := by
      rw [Label.chars, List.cons_append, List.append_assoc, listItems.go]
      rcases h.1 with rfl | rfl <;> simp
    rw [opened, go_doubleChar h.1]
    simp [Label.chars]

/-- What has been collected up to the end of a label is that label. -/
lemma item_label {l : Label} (h : l.WellFormed) {blank : List Char}
    (space : ∀ c ∈ blank, Text.isSpace c = true) :
    listItems.item (l.chars.reverse ++ blank) = [l.value] := by
  have front : (blank.reverse ++ l.chars).dropWhile Text.isSpace = l.chars := by
    rw [List.dropWhile_append_of_pos fun c hc => space c (List.mem_reverse.1 hc)]
    obtain ⟨c, cs, e⟩ := List.exists_cons_of_ne_nil (Label.solid h).ne_nil
    have first := (Label.solid h).first c (by rw [e]; rfl)
    rw [e, List.dropWhile_cons_of_neg (by simp [first])]
  have last := List.getLast?_eq_some_getLast (Label.solid h).ne_nil
  have trimmed : Text.trimChars (l.chars.reverse ++ blank).reverse = l.chars := by
    rw [List.reverse_append, List.reverse_reverse, Text.trimChars, front]
    exact Text.dropWhileEnd_of_getLast last ((Label.solid h).last _ last)
  rw [listItems.item, trimmed, if_neg (by simpa using (Label.solid h).ne_nil), Label.unquoteChars_chars h,
    String.ofList_toList]

end Items

/-! ### Labels in brackets -/

/-- The characters of some labels with a comma and a blank between neighbours. -/
def labelChars (labels : List Label) : List Char :=
  (Text.join ", " (labels.map Label.text)).toList

lemma labelChars_singleton (l : Label) : labelChars [l] = l.chars := by
  simp [labelChars, Text.join, Label.text]

lemma labelChars_cons (l m : Label) (ls : List Label) :
    labelChars (l :: m :: ls) = l.chars ++ ',' :: ' ' :: labelChars (m :: ls) := by
  simp [labelChars, Text.join, Label.text]

/-- The items of a list of labels are the labels. -/
lemma go_labels {l : Label} {ls : List Label} (h : ∀ m ∈ l :: ls, m.WellFormed) {blank : List Char}
    (space : ∀ c ∈ blank, Text.isSpace c = true) :
    listItems.go blank none 0 (labelChars (l :: ls)) = (l :: ls).map Label.value := by
  induction ls generalizing l blank with
  | nil =>
    have first := h l List.mem_cons_self
    have whole := @go_label [] blank 0 l first
    rw [List.append_nil] at whole
    rw [labelChars_singleton, whole, listItems.go, item_label first space]
    rfl
  | cons m ls ih =>
    obtain ⟨first, others⟩ := List.forall_mem_cons.1 h
    have blank' : ∀ c ∈ [' '], Text.isSpace c = true := List.forall_mem_singleton.2 (by decide)
    have rest := ih others blank'
    rw [labelChars_cons, go_label first, List.map_cons, ← rest]
    show listItems.item _ ++ listItems.go [' '] none 0 (labelChars (m :: ls)) = _
    rw [item_label first space]
    rfl

lemma listItems_labels {labels : List Label} (h : ∀ l ∈ labels, l.WellFormed) :
    listItems ('[' :: (labelChars labels ++ [']'])) = labels.map Label.value := by
  have trimmed : Text.trimChars ('[' :: (labelChars labels ++ [']'])) =
      '[' :: (labelChars labels ++ [']']) := by
    apply Text.trimChars_of_solid
    exact solid_enclosed (by decide) (by decide) _
  rw [listItems, trimmed]
  simp only [List.getLast?_concat, List.dropLast_concat]
  cases labels with
  | nil => rfl
  | cons l ls => exact go_labels h nofun

/-- A list of labels ends at its bracket. -/
lemma listEnd_labels {l : Label} {ls : List Label} (h : ∀ m ∈ l :: ls, m.WellFormed) (n : Nat) :
    listEnd n 0 none (labelChars (l :: ls) ++ [']']) = .closed (n + (labelChars (l :: ls)).length + 1) := by
  induction ls generalizing l n with
  | nil =>
    rw [labelChars_singleton, listEnd_label (h l List.mem_cons_self) (by decide)]
    simp [listEnd]
  | cons m ls ih =>
    obtain ⟨first, others⟩ := List.forall_mem_cons.1 h
    have between (n : Nat) (cs : List Char) :
        listEnd n 0 none (',' :: ' ' :: cs) = listEnd (n + 2) 0 none cs := by
      simp [listEnd]
    rw [labelChars_cons, List.append_assoc, List.cons_append, listEnd_label first (by decide),
      List.cons_append, between, ih others]
    simp only [List.length_append, List.length_cons, Enclosed.closed.injEq]
    omega

lemma isList_labels {labels : List Label} (h : ∀ l ∈ labels, l.WellFormed) :
    isList (String.ofList ('[' :: (labelChars labels ++ [']']))) = true := by
  rw [isList, String.toList_ofList]
  dsimp only
  cases labels with
  | nil => rfl
  | cons l ls => simp [listEnd_labels h]

/-! ### Labels in braces -/

/-- The pieces of labels behind an opening brace and a blank. -/
def bracePieces : List Label → List Piece
  | [] => [.gap ' ', .symbol '\x7d']
  | [l] => [l.piece, .gap ' ', .symbol '\x7d']
  | l :: m :: ls => l.piece :: .symbol ',' :: .gap ' ' :: bracePieces (m :: ls)

lemma chars_piece (l : Label) : l.piece.chars = l.chars := by
  cases l with
  | name s => rfl
  | quoted q content => exact String.toList_ofList

lemma chars_bracePieces (labels : List Label) :
    chars (bracePieces labels) = labelChars labels ++ [' ', '\x7d'] := by
  induction labels with
  | nil => rfl
  | cons l ls ih =>
    cases ls with
    | nil =>
      rw [bracePieces, chars_cons, chars_piece, labelChars_singleton]
      rfl
    | cons m ls =>
      rw [bracePieces, chars_cons, chars_cons, chars_cons, ih, chars_piece, labelChars_cons,
        List.append_assoc]
      rfl

/-- A character that divides labels or encloses them is a token, whatever is expected. -/
lemma step_divider {c : Char} (h : c ∈ [',', '\x7b', '\x7d']) (opens : Bool) (after : List Char) :
    step opens c after = .token .symbol (String.singleton c) 0 := by
  have space : Text.isSpace ',' = false ∧ Text.isSpace '\x7b' = false ∧ Text.isSpace '\x7d' = false := by
    decide
  have name : isNameStart ',' = false ∧ isNameStart '\x7b' = false ∧ isNameStart '\x7d' = false := by
    decide
  simp only [List.mem_cons, List.not_mem_nil, or_false] at h
  rcases h with rfl | rfl | rfl <;> simp [step, space, name, Cardinality.ofSigil?]

lemma cuts_divider {c : Char} (h : c ∈ [',', '\x7b', '\x7d']) {opens opens' : Bool} {ps : List Piece}
    {after : List Char} (rest : Cuts false ps opens' after) : Cuts opens (.symbol c :: ps) opens' after := by
  rw [Piece.symbol, Piece.lexeme, String.toList_singleton]
  exact .token (step_divider h _ _) (by simp) (by simp) rest

/-- A string ends at its closing quote. -/
lemma stringLength?_doubleChar {q : Char} {body : List Char} (feed : '\n' ∉ body) (other : q ≠ '\n') :
    stringLength? q (Text.doubleChar q body ++ [q]) = some (Text.doubleChar q body ++ [q]).length := by
  induction body with
  | nil =>
    show stringLength? q [q] = some 1
    simp [stringLength?, other]
  | cons b body ih =>
    rw [List.mem_cons, not_or] at feed
    have rest := ih feed.2
    by_cases same : b = q
    · subst same
      rw [Text.doubleChar_cons_self, List.cons_append, List.cons_append, stringLength?]
      simp [other, rest]
    · rw [Text.doubleChar_cons_of_ne same, List.cons_append, stringLength?.eq_def]
      simp [Ne.symm feed.1, same, rest]

/-- The text of a string label is one string. -/
lemma isString_text {q : Char} {content : String} (h : (Label.quoted q content).WellFormed) :
    isString (Label.quoted q content).text = true := by
  obtain ⟨quote, feed⟩ := h
  rw [isString, Label.text, String.toList_ofList, Label.chars]
  rcases quote with rfl | rfl
  · simpa using stringLength?_doubleChar (q := '\'') feed (by decide)
  · simpa using stringLength?_doubleChar (q := '"') feed (by decide)

/-- A label is one token, behind which an expression may or may not be expected. -/
lemma cuts_label {l : Label} (h : l.WellFormed) {opens opens' : Bool} {ps : List Piece}
    {after : List Char} (end_ : ends (chars ps ++ after) = true)
    (rest : ∀ opens, Cuts opens ps opens' after) : Cuts opens (l.piece :: ps) opens' after := by
  cases l with
  | name s => exact .name h end_ (rest _)
  | quoted q content => exact .string (isString_text h) end_ (rest _)

lemma cuts_bracePieces {labels : List Label} (h : ∀ l ∈ labels, l.WellFormed) (opens : Bool) :
    Cuts opens (bracePieces labels) false [] := by
  induction labels generalizing opens with
  | nil => exact .blank (cuts_divider (by simp) .nil)
  | cons l ls ih =>
    obtain ⟨first, others⟩ := List.forall_mem_cons.1 h
    cases ls with
    | nil => exact cuts_label first rfl fun _ => .blank (cuts_divider (by simp) .nil)
    | cons m ls => exact cuts_label first rfl fun _ => cuts_divider (by simp) (.blank (ih others false))

/-- The token of a label spells it and is no symbol. -/
lemma exists_labelToken {l : Label} (h : l.WellFormed) (p : Position) (ps : List Piece) : ∃ t : Token,
    tokensAt p (l.piece :: ps) = t :: tokensAt (p.advanceBy l.chars) ps ∧ label? t = some l.value ∧
      ∀ c, t.isSymbol c = false := by
  cases l with
  | name s =>
    refine ⟨tokenAt p (nameToken s.toList) s s.toList, rfl, ?_, fun c => isSymbol_of_kind ?_ c⟩
    · rw [label?, kind_tokenAt, nameToken]
      cases Keyword.ofText? (String.ofList s.toList) <;> rfl
    · rw [kind_tokenAt]
      exact nameToken_ne_symbol _
  | quoted q content =>
    refine ⟨tokenAt p .string (Label.quoted q content).text (Label.quoted q content).text.toList, ?_, ?_, ?_⟩
    · rw [Label.piece, Piece.lexeme, tokensAt, Label.text, String.toList_ofList]
    · show some (Token.unquote (Label.quoted q content).text) = some content
      rw [Token.unquote, Label.text, String.toList_ofList, Label.unquoteChars_chars h, String.ofList_toList]
      rfl
    · exact fun c => isSymbol_of_kind (by simp [tokenAt]) c

section Labels
variable {t u : Token} {label : String} {rest : List Token}

lemma reads_closingBrace (close : t.isSymbol '\x7d' = true) : Reads enumLabels (t :: rest) rest (· = []) := by
  intro previous atEnd
  refine ⟨[], t, ?_, rfl⟩
  rw [enumLabels]
  exact if_pos close

/-- One label: behind a comma the others follow. -/
lemma reads_moreLabels {P : List Variant → Prop} {final : List Token} (start : label? t = some label)
    (symbol : t.isSymbol '\x7d' = false) (comma : u.isSymbol ',' = true)
    (others : Reads enumLabels rest final P) :
    Reads enumLabels (t :: u :: rest) final fun vs => ∃ vs', vs = ⟨label, t.span⟩ :: vs' ∧ P vs' := by
  intro previous atEnd
  obtain ⟨vs, previous', eq, hvs⟩ := others u atEnd
  refine ⟨⟨label, t.span⟩ :: vs, previous', ?_, vs, rfl, hvs⟩
  rw [enumLabels]
  simp only [Cursor.current, Cursor.skip, symbol, comma, eq, Bool.true_or, Bool.false_eq_true, if_true,
    if_false]
  split
  · next none => exact absurd (none.symm.trans start) (by simp)
  · next found =>
    cases found.symm.trans start
    rfl

/-- The last label stands in front of the closing brace. -/
lemma reads_lastLabel (start : label? t = some label) (symbol : t.isSymbol '\x7d' = false)
    (comma : u.isSymbol ',' = false) (close : u.isSymbol '\x7d' = true) :
    Reads enumLabels (t :: u :: rest) rest (· = [⟨label, t.span⟩]) := by
  intro previous atEnd
  have final : Reads enumLabels (u :: rest) rest (· = []) := reads_closingBrace close
  obtain ⟨vs, previous', eq, rfl⟩ := final t atEnd
  refine ⟨_, previous', ?_, rfl⟩
  rw [enumLabels]
  simp only [Cursor.current, Cursor.skip, symbol, comma, close, eq, Bool.false_or, Bool.false_eq_true,
    if_true, if_false]
  split
  · next none => exact absurd (none.symm.trans start) (by simp)
  · next found =>
    cases found.symm.trans start
    rfl

end Labels

/-- Labels in braces are read one by one. -/
lemma reads_enumLabels {labels : List Label} (h : ∀ l ∈ labels, l.WellFormed) (p : Position) :
    Reads enumLabels (tokensAt p (bracePieces labels)) []
      fun vs => vs.map (·.name) = labels.map Label.value := by
  induction labels generalizing p with
  | nil => exact (reads_closingBrace rfl).mono fun vs e => by rw [e]; rfl
  | cons l ls ih =>
    obtain ⟨first, others⟩ := List.forall_mem_cons.1 h
    cases ls with
    | nil =>
      obtain ⟨t, eq, label, symbol⟩ := exists_labelToken first p [.gap ' ', .symbol '\x7d']
      rw [bracePieces, eq]
      exact (reads_lastLabel label (symbol _) rfl rfl).mono fun vs e => by rw [e]; rfl
    | cons m ls =>
      obtain ⟨t, eq, label, symbol⟩ :=
        exists_labelToken first p (.symbol ',' :: .gap ' ' :: bracePieces (m :: ls))
      rw [bracePieces, eq]
      refine (reads_moreLabels label (symbol _) rfl (ih others _)).mono ?_
      rintro vs ⟨vs', rfl, same⟩
      rw [List.map_cons, same]
      rfl

/-! ### Documents of one enumeration -/

/-- A text that is one line is cut into its tokens and the end of the document. -/
lemma exists_scan {opens : Bool} {ps : List Piece} (cuts : Cuts false ps opens []) : ∃ final : Token,
    final.kind = .eof ∧ Scan.ofChars (chars ps) = ⟨tokensAt .start ps ++ [final], []⟩ := by
  have scan := cuts.scanFrom_eq .start
  rw [List.append_nil, scanFrom] at scan
  exact ⟨_, rfl, scan⟩

/-- A line that starts with the keyword is read as one enumeration, if the reader of enumerations takes
what follows. -/
lemma exists_enum {s : String} {ps : List Piece} (spelled : s.toList = chars (.name "enum" :: ps))
    (ends_ : ends (chars ps) = true) (cuts : Cuts false ps false []) {P : Enum → Prop}
    (reads : ∀ head p, Reads (enumStatement head) (tokensAt p ps) [] P) (path : String)
    (plugins : Plugin.Registry) :
    ∃ e, Compilation.read path (Text.bytes s) plugins = (⟨path, [.enum e]⟩, [], []) ∧ P e := by
  have keyword : Keyword.ofText? "enum" = some .enum := by decide
  have whole : Cuts false (.name "enum" :: ps) false [] :=
    cuts_keyword (by decide) keyword (by rwa [List.append_nil]) cuts
  obtain ⟨final, last, scan⟩ := exists_scan whole
  let head := tokenAt .start (nameToken "enum".toList) "enum" "enum".toList
  let tokens := tokensAt (Position.start.advanceBy "enum".toList) ps
  have kind : head.kind = .keyword .enum := (kind_tokenAt _ _ _ _).trans (nameToken_of_keyword keyword)
  -- the end of the document is the only token that is left out
  have kept : (tokensAt .start (.name "enum" :: ps) ++ [final]).takeWhile (fun t => t.kind != .eof) =
      head :: tokens := by
    rw [List.takeWhile_append_of_pos fun t ht => by simpa using (whole.kind_of_mem ht).2,
      List.takeWhile_cons_of_neg (by simp [last]), List.append_nil]
    rfl
  have group : statementGroups (head :: tokens) = [(head, tokens)] := by
    have inside : head.endLine = (Position.start.advanceBy "enum".toList).line ∨
      1 < (Position.start.advanceBy "enum".toList).column := .inl rfl
    obtain ⟨previous, all⟩ := statementGroups_tokensAt cuts head inside [] []
    rw [List.append_nil, List.append_nil] at all
    rw [statementGroups]
    refine all.trans ?_
    rw [statementGroups.go, List.reverse_reverse]
  obtain ⟨e, previous, read, good⟩ := reads head (Position.start.advanceBy "enum".toList) head true
  have statement : readStatement (Text.slice s.toList) plugins false head tokens true =
      ⟨some (.enum e), []⟩ := by
    rw [readStatement, kind]
    dsimp only
    rw [read]
    rfl
  refine ⟨e, ?_, good⟩
  rw [Compilation.read_bytes]
  dsimp only
  rw [spelled, scan, ← spelled, ofTokens, kept, group, readStatements, List.isEmpty_nil, statement]
  rfl

/-- An identifier and its labels make an enumeration. -/
lemma reads_enumStatement {name : String} (free : Keyword.ofText? name = none) {ps : List Piece}
    {values : List String}
    (labels : ∀ p, Reads variants (tokensAt p ps) [] fun vs => vs.map (·.name) = values) (head : Token)
    (p : Position) :
    Reads (enumStatement head) (tokensAt p (.gap ' ' :: .name name :: .gap ' ' :: ps)) []
      fun e => e.name = name ∧ e.variants.map (·.name) = values := by
  have identifier : nameToken name.toList = .identifier := by
    rw [nameToken, String.ofList_toList, free]
  refine .step (.satisfy _ ?_) (.bind (labels _) fun vs same => .bind (.finish _) fun _ _ => .bind .previous
    fun last _ => .pure ⟨rfl, same⟩)
  rw [kind_tokenAt, identifier]
  rfl

lemma reads_braces {labels : List Label} (h : ∀ l ∈ labels, l.WellFormed) (p : Position) :
    Reads variants (tokensAt p (.symbol '\x7b' :: .gap ' ' :: bracePieces labels)) []
      fun vs => vs.map (·.name) = labels.map Label.value :=
  .step .peek (.bind .next fun _ _ => reads_enumLabels h _)

lemma reads_brackets {labels : List Label} (h : ∀ l ∈ labels, l.WellFormed) (p : Position) :
    Reads variants (tokensAt p [.lexeme .list (String.ofList ('[' :: (labelChars labels ++ [']'])))]) []
      fun vs => vs.map (·.name) = labels.map Label.value := by
  refine .step .peek (.step .next (.pure ?_))
  have items := listItems_labels h
  rw [← String.toList_ofList (l := '[' :: (labelChars labels ++ [']']))] at items
  rw [List.map_map, ← items]
  exact List.map_id _

lemma toList_inBraces (name : String) (labels : List Label) : (Label.inBraces name labels).toList =
    chars (.name "enum" :: .gap ' ' :: .name name :: .gap ' ' :: .symbol '\x7b' :: .gap ' ' ::
      bracePieces labels) := by
  simp [Label.inBraces, chars_bracePieces, labelChars, Piece.name, Piece.symbol, Piece.lexeme, Piece.chars]

lemma toList_inBrackets (name : String) (labels : List Label) : (Label.inBrackets name labels).toList =
    chars [.name "enum", .gap ' ', .name name, .gap ' ',
      .lexeme .list (String.ofList ('[' :: (labelChars labels ++ [']'])))] := by
  simp [Label.inBrackets, labelChars, Piece.name, Piece.lexeme, Piece.chars]

/-- The two notations of an enumeration agree. Whatever labels are written, as identifiers, keywords or
strings, labels in braces and labels in brackets are read without an error, as enumerations with the same
labels: the names as written and the contents of the strings, in their order and with repetitions. -/
theorem enum_notations_agree (name : String) (named : isName name = true)
    (free : Keyword.ofText? name = none) (labels : List Label) (well : ∀ l ∈ labels, l.WellFormed)
    (path : String) (plugins : Plugin.Registry) : ∃ braces brackets : Enum,
      Compilation.read path (Text.bytes (Label.inBraces name labels)) plugins =
          (⟨path, [.enum braces]⟩, [], []) ∧
        Compilation.read path (Text.bytes (Label.inBrackets name labels)) plugins =
          (⟨path, [.enum brackets]⟩, [], []) ∧
        braces.name = name ∧ brackets.name = name ∧
        braces.variants.map (·.name) = labels.map Label.value ∧
        brackets.variants.map (·.name) = labels.map Label.value := by
  obtain ⟨braces, read, named₁, values₁⟩ := exists_enum (toList_inBraces name labels) rfl
    (.blank (.name named rfl (.blank (cuts_divider (by simp) (.blank (cuts_bracePieces well false))))))
    (fun head p => reads_enumStatement free (fun p => reads_braces well p) head p) path plugins
  obtain ⟨brackets, read', named₂, values₂⟩ := exists_enum (toList_inBrackets name labels) rfl
    (.blank (.name named rfl (.blank (.list (isList_labels well) .nil))))
    (fun head p => reads_enumStatement free (fun p => reads_brackets well p) head p) path plugins
  exact ⟨braces, brackets, read, read', named₁, named₂, values₁, values₂⟩

/-- Labels with what divides labels inside of them, an empty one, a keyword and a repetition. -/
def moods : List Label :=
  [.name "open", .name "CHECK", .quoted '\'' "it's, [odd]", .quoted '"' "", .quoted '"' "a \"b\" ",
    .name "open"]

/-- Both notations of these labels are read as these labels. -/
theorem enum_notations_agree_moods :
    Label.inBrackets "mood" moods = "enum mood [open, CHECK, 'it''s, [odd]', \"\", \"a \"\"b\"\" \", open]" ∧
      ∃ braces brackets : Enum,
        Compilation.read "mood.erd" (Text.bytes (Label.inBraces "mood" moods)) .empty =
            (⟨"mood.erd", [.enum braces]⟩, [], []) ∧
          Compilation.read "mood.erd" (Text.bytes (Label.inBrackets "mood" moods)) .empty =
            (⟨"mood.erd", [.enum brackets]⟩, [], []) ∧
          braces.variants.map (·.name) = ["open", "CHECK", "it's, [odd]", "", "a \"b\" ", "open"] ∧
          brackets.variants.map (·.name) = ["open", "CHECK", "it's, [odd]", "", "a \"b\" ", "open"] := by
  have well : ∀ l ∈ moods, l.WellFormed := by decide +kernel
  obtain ⟨braces, brackets, read, read', -, -, values, values'⟩ :=
    enum_notations_agree "mood" (by decide) (by decide) moods well "mood.erd" .empty
  exact ⟨by decide +kernel, braces, brackets, read, read', values, values'⟩

end Document

end ErdSql
