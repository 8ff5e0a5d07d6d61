import ErdSql.Proofs.Faultless
import ErdSql.Proofs.StringLiterals

/-!
# Defaults of sets

The default of a set is a list whose items are strings. The document and PostgreSQL write lists alike,
but for their brackets, the blanks that they know and the strings that they know: the script has the
items as the document writes them (`Ddl.lists_listDefault`), and an item in single quotes is a literal
that stands for the same text.

The items in double quotes are the exception. A string in double quotes that is a default of its own is
written anew as a literal; as an item of a list it stays a quoted name.
-/

namespace ErdSql

/-! ### Lists of values -/

/-- A text lists some values: items that stand for them are divided by commas and have blanks around. -/
inductive Lists (blank : Char → Bool) (Item : String → String → Prop) : List String → String → Prop where
  | last {before item after value} :
    before.toList.all blank = true →
    Item item value →
    after.toList.all blank = true →
    Lists blank Item [value] (before ++ item ++ after)
  | more {before item after rest value values} :
    before.toList.all blank = true →
    Item item value →
    after.toList.all blank = true →
    Lists blank Item values rest →
    Lists blank Item (value :: values) (before ++ item ++ after ++ "," ++ rest)

namespace Lists
variable {blank blank' : Char → Bool} {Item Item' : String → String → Prop} {values : List String}
  {s : String}

/-- A list is one of every language that knows its blanks and its items. -/
lemma mono (blanks : ∀ c, blank c = true → blank' c = true) (items : ∀ s v, Item s v → Item' s v)
    (h : Lists blank Item values s) : Lists blank' Item' values s := by
  have all {t : String} (ht : t.toList.all blank = true) : t.toList.all blank' = true :=
    List.all_eq_true.2 fun c hc => blanks c (List.all_eq_true.1 ht c hc)
  induction h with
  | last before item after => exact .last (all before) (items _ _ item) (all after)
  | more before item after _ ih => exact .more (all before) (items _ _ item) (all after) ih

section Trimming
variable (space : ∀ c, blank c = true → Text.isSpace c = true)
  (solid : ∀ s v, Item s v → Scan.Solid s.toList)
include space solid

/-- What blanks leave in front of an item is the item. -/
lemma dropWhile_item {before item value : String} (blanks : before.toList.all blank = true)
    (stands : Item item value) (behind : String) :
    (before ++ item ++ behind).toList.dropWhile Text.isSpace = ("" ++ item ++ behind).toList := by
  obtain ⟨c, cs, e⟩ := List.exists_cons_of_ne_nil (solid _ _ stands).ne_nil
  have first := (solid _ _ stands).first c (by rw [e]; rfl)
  rw [String.toList_append, String.toList_append, List.append_assoc,
    List.dropWhile_append_of_pos fun c hc => space c (List.all_eq_true.1 blanks c hc), e, List.cons_append,
    List.dropWhile_cons_of_neg (by simp [first])]
  simp [e]

/-- A list without the blanks in front of it. -/
lemma dropWhile (h : Lists blank Item values s) :
    ∃ t, t.toList = s.toList.dropWhile Text.isSpace ∧ Lists blank Item values t := by
  cases h with
  | @last before item after value blanks stands behind =>
    refine ⟨"" ++ item ++ after, ?_, .last rfl stands behind⟩
    exact (dropWhile_item space solid blanks stands after).symm
  | @more before item after rest value values blanks stands behind others =>
    refine ⟨"" ++ item ++ after ++ "," ++ rest, ?_, .more rfl stands behind others⟩
    have front := dropWhile_item space solid blanks stands (after ++ "," ++ rest)
    simpa only [String.append_assoc] using front.symm

/-- A list without the blanks behind it. -/
lemma dropWhileEnd (h : Lists blank Item values s) :
    ∃ t, t.toList = Text.dropWhileEnd Text.isSpace s.toList ∧ Lists blank Item values t := by
  induction h with
  | @last before item after value blanks stands behind =>
    refine ⟨before ++ item ++ "", ?_, .last blanks stands rfl⟩
    obtain ⟨front, c, e⟩ : ∃ front c, item.toList = front ++ [c] :=
      ⟨_, _, (List.dropLast_concat_getLast (solid _ _ stands).ne_nil).symm⟩
    have last : Text.isSpace c = false := (solid _ _ stands).last c (by rw [e, List.getLast?_concat]; rfl)
    have none : Text.dropWhileEnd Text.isSpace after.toList = [] := by
      rw [Text.dropWhileEnd, List.dropWhile_eq_nil_iff.2, List.reverse_nil]
      intro d hd
      exact space d (List.all_eq_true.1 behind d (List.mem_reverse.1 hd))
    have cut := Text.dropWhileEnd_append_cons last (before.toList ++ front) after.toList
    rw [none] at cut
    simpa [e] using cut.symm
  | @more before item after rest value values blanks stands behind _ ih =>
    obtain ⟨t, text, lists⟩ := ih
    refine ⟨before ++ item ++ after ++ "," ++ t, ?_, .more blanks stands behind lists⟩
    have comma : Text.isSpace ',' = false := by decide
    have cut := Text.dropWhileEnd_append_cons comma (before ++ item ++ after).toList rest.toList
    rw [← text] at cut
    simpa using cut.symm

/-- A list without the blanks around it is the same list, and not empty. -/
lemma trim (h : Lists blank Item values s) : Lists blank Item values (Text.trim s) := by
  obtain ⟨t, text, lists⟩ := h.dropWhile space solid
  obtain ⟨u, text', lists'⟩ := lists.dropWhileEnd space solid
  have same : u = Text.trim s := by
    rw [← String.toList_inj, text', text, Text.trim, Text.trimChars, String.toList_ofList]
  rwa [← same]

end Trimming

/-- A list is not empty, since its items are not. -/
lemma toList_ne_nil (solid : ∀ s v, Item s v → Scan.Solid s.toList) (h : Lists blank Item values s) :
    s.toList ≠ [] := by
  cases h with
  | @last before item after value _ stands _ =>
    intro none
    apply (solid _ _ stands).ne_nil
    rw [String.toList_append, String.toList_append, List.append_assoc, List.append_eq_nil_iff,
      List.append_eq_nil_iff] at none
    exact none.2.1
  | more => simp

end Lists

/-! ### Items -/

/-- Whether a character is a blank on a line of a document. -/
def Scan.isGapChar (c : Char) : Bool := Text.isSpace c && c != '\n'

/-- Whether a character is a blank of SQL. -/
def Sql.isBlank (c : Char) : Bool := c == ' ' || c == '\t' || c == '\n' || c == '\r' || c == '\x0c'

/-- A string of a document stands for what is between its quotes. -/
def Scan.IsItem (s value : String) : Prop := isString s = true ∧ Token.unquote s = value

/-- A string of a document in single quotes. -/
def Scan.IsSingleQuoted (s value : String) : Prop := IsItem s value ∧ s.toList.head? = some '\''

/-- A literal of SQL. -/
def Sql.IsLiteral (s value : String) : Prop := decode? s = some value

lemma Scan.solid_of_isString {s : String} (h : isString s = true) : Solid s.toList := by
  obtain ⟨q, body, quote, e⟩ := body_of_isString h
  have space : Text.isSpace q = false := by rcases quote with rfl | rfl <;> decide
  rw [e]
  exact solid_enclosed space space _

/-- A string of a document is a literal of SQL for the same text exactly if its quotes are single. -/
lemma Sql.isLiteral_iff {s value : String} (h : Scan.IsItem s value) :
    IsLiteral s value ↔ s.toList.head? = some '\'' := by
  obtain ⟨string, rfl⟩ := h
  obtain ⟨q, body, quote, e⟩ := Scan.body_of_isString string
  constructor
  · intro literal
    rcases quote with rfl | rfl
    · rw [e]
      rfl
    · -- no literal starts with a double quote
      rw [IsLiteral, decode?, e] at literal
      cases literal
  · intro single
    obtain ⟨body, rfl⟩ := exists_standardLiteral_of_isString string (by rw [single]; decide)
    rw [Token.unquote_standardLiteral]
    exact decode?_standardLiteral body

/-- A text that starts with a double quote is no list of literals. -/
lemma Sql.not_lists_of_head? {values : List String} {s : String} (double : s.toList.head? = some '"') :
    ¬ Lists isBlank IsLiteral values s := by
  -- the first character belongs to the blanks in front of the first item, or to that item
  have front {before item value behind : String} (blanks : before.toList.all isBlank = true)
      (literal : IsLiteral item value) : (before ++ item ++ behind).toList.head? ≠ some '"' := by
    intro head
    cases hb : before.toList with
    | cons c cs =>
      have blank : isBlank c = true := List.all_eq_true.1 blanks c (by simp [hb])
      simp only [String.toList_append, hb, List.cons_append, List.head?_cons, Option.some.injEq] at head
      rw [head] at blank
      cases blank
    | nil =>
      cases hi : item.toList with
      | nil =>
        rw [IsLiteral, decode?, hi] at literal
        cases literal
      | cons c cs =>
        simp only [String.toList_append, hb, hi, List.nil_append, List.cons_append, List.head?_cons,
          Option.some.injEq] at head
        rw [IsLiteral, decode?, hi, head] at literal
        cases literal
  intro lists
  cases lists with
  | last blanks literal _ => exact front blanks literal double
  | more blanks literal _ _ =>
    rw [String.append_assoc, String.append_assoc] at double
    exact front blanks literal (by simpa only [String.append_assoc] using double)

/-! ### The expression of a list -/

namespace Ddl
variable {d : Dialect}

lemma listDefault_eq (arrays : d.supports .arrays = true) (inner : String) :
    listDefault d ("[" ++ inner ++ "]") =
      if (Text.trim inner).toList = [] then "'\x7b\x7d'" else "ARRAY[" ++ Text.trim inner ++ "]" := by
  have text : ("[" ++ inner ++ "]").toList = '[' :: (inner.toList ++ [']']) := by simp
  rw [listDefault, arrays, text, Text.trim, String.toList_ofList]
  simp only [Bool.not_true, Bool.false_eq_true, if_false, List.getLast?_concat, List.dropLast_concat,
    List.isEmpty_iff]

/-- A list without items is an empty array. -/
lemma listDefault_gap (arrays : d.supports .arrays = true) {gap : String} (h : IsGap gap) :
    listDefault d ("[" ++ gap ++ "]") = "'\x7b\x7d'" := by
  have none : (Text.trim gap).toList = [] := by
    rw [Text.trim, String.toList_ofList, Text.trimChars, List.dropWhile_eq_nil_iff.2 fun c hc => (h c hc).1]
    rfl
  rw [listDefault_eq arrays, if_pos none]

/-- A list with items is an array of the same items. -/
lemma lists_listDefault (arrays : d.supports .arrays = true) {blank : Char → Bool}
    {Item : String → String → Prop} (space : ∀ c, blank c = true → Text.isSpace c = true)
    (string : ∀ s v, Item s v → Scan.isString s = true) {values : List String} {inner : String}
    (h : Lists blank Item values inner) :
    ∃ body, listDefault d ("[" ++ inner ++ "]") = "ARRAY[" ++ body ++ "]" ∧ Lists blank Item values body := by
  have solid (s v : String) (hs : Item s v) : Scan.Solid s.toList := Scan.solid_of_isString (string s v hs)
  have trimmed := h.trim space solid
  exact ⟨Text.trim inner, by rw [listDefault_eq arrays, if_neg (trimmed.toList_ne_nil solid)], trimmed⟩

end Ddl

namespace Compilation

open Schema

/-- The defaults of sets keep their values in PostgreSQL where the document writes strings in single
quotes. A list without items is an empty array; a list of strings is an array of the same strings as they
are written; and if their quotes are single, with blanks between them that SQL knows, the array lists
literals that stand for the same texts. -/
theorem list_defaults_kept {path : String} {src : List UInt8} {o : CompileOptions} {out : Ddl.Output}
    (output : (run path src o).output = some out) (dialect : o.dialect = .postgresql) {e : Entity}
    (he : e ∈ (run path src o).schema.entities) {f : Field} (hf : f ∈ e.fields) (set : f.cardinality = .set)
    {v : Literal} (stated : f.default? = some v) (list : v.kind = .list) :
    (∀ gap, IsGap gap → v.text = "[" ++ gap ++ "]" →
        (out.column? e.name f.name).bind (·.default) = some "'\x7b\x7d'") ∧
      (∀ values inner, Lists Scan.isGapChar Scan.IsItem values inner → v.text = "[" ++ inner ++ "]" →
        ∃ body, (out.column? e.name f.name).bind (·.default) = some ("ARRAY[" ++ body ++ "]") ∧
          Lists Scan.isGapChar Scan.IsItem values body) ∧
      ∀ values inner, Lists Sql.isBlank Scan.IsSingleQuoted values inner → v.text = "[" ++ inner ++ "]" →
        ∃ body, (out.column? e.name f.name).bind (·.default) = some ("ARRAY[" ++ body ++ "]") ∧
          Lists Sql.isBlank Sql.IsLiteral values body := by
  have column : f.isColumn = true := by rw [Field.isColumn, set]; rfl
  have arrays : o.dialect.supports .arrays = true := by rw [dialect]; rfl
  have written : (out.column? e.name f.name).bind (·.default) = some (Ddl.listDefault o.dialect v.text) := by
    rw [default_of_output output he hf column stated, Ddl.defaultExpr, list]
  rw [written]
  refine ⟨?_, ?_, ?_⟩
  · intro gap blank text
    rw [text, Ddl.listDefault_gap arrays blank]
  · intro values inner lists text
    have space (c : Char) (hc : Scan.isGapChar c = true) : Text.isSpace c = true :=
      (Bool.and_eq_true_iff.1 hc).1
    obtain ⟨body, eq, same⟩ := Ddl.lists_listDefault arrays space (fun _ _ item => item.1) lists
    exact ⟨body, by rw [text, eq], same⟩
  · intro values inner lists text
    have space (c : Char) (hc : Sql.isBlank c = true) : Text.isSpace c = true := by
      simp only [Sql.isBlank, Bool.or_eq_true, beq_iff_eq] at hc
      rcases hc with (((rfl | rfl) | rfl) | rfl) | rfl <;> decide
    obtain ⟨body, eq, same⟩ := Ddl.lists_listDefault arrays space (fun _ _ item => item.1.1) lists
    refine ⟨body, by rw [text, eq], same.mono (fun _ hc => hc) ?_⟩
    exact fun _ _ item => (Sql.isLiteral_iff item.1).2 item.2

/-- A block with a set whose default has a comma and a quote in its items. -/
def tagged : List UInt8 :=
  Text.bytes ":Post\n  INT $.id PK\n  TEXT %.tags DEFAULT [ 'a, b' , 'it''s' ]\n"

/-- The default of the set has both strings. -/
theorem list_defaults_kept_of_tagged :
    ∃ out, (run "post.erd" tagged {}).output = some out ∧
      (out.column? "Post" "tags").bind (·.default) = some "ARRAY['a, b' , 'it''s']" ∧
      ∃ body, (out.column? "Post" "tags").bind (·.default) = some ("ARRAY[" ++ body ++ "]") ∧
        Lists Sql.isBlank Sql.IsLiteral ["a, b", "it's"] body := by
  have facts : ∃ out ∈ (run "post.erd" tagged {}).output,
      (out.column? "Post" "tags").bind (·.default) = some "ARRAY['a, b' , 'it''s']" ∧
      ∃ e ∈ (run "post.erd" tagged {}).schema.entities, ∃ f ∈ e.fields, e.name = "Post" ∧ f.name = "tags" ∧
        f.cardinality = .set ∧ ∃ v ∈ f.default?, v.kind = .list ∧ v.text = "[ 'a, b' , 'it''s' ]" := by
    rw [run, analyse, tagged, read_bytes]
    decide +kernel
  obtain ⟨out, output, column, e, he, f, hf, owner, named, set, v, stated, list, text⟩ := facts
  have lists : Lists Sql.isBlank Scan.IsSingleQuoted ["a, b", "it's"]
      (" " ++ "'a, b'" ++ " " ++ "," ++ (" " ++ "'it''s'" ++ " ")) := by
    refine .more (by decide) ⟨⟨?_, ?_⟩, ?_⟩ (by decide) (.last (by decide) ⟨⟨?_, ?_⟩, ?_⟩ (by decide)) <;>
      decide +kernel
  have kept := (list_defaults_kept output rfl he hf set stated list).2.2 _ _ lists
    (text.trans (by decide +kernel))
  rw [owner, named] at kept
  exact ⟨out, output, column, kept⟩

/-- A block with a set whose default has an item in double quotes. -/
def labelled : List UInt8 :=
  Text.bytes ":Post\n  INT $.id PK\n  TEXT %.tags DEFAULT [\"a\"]\n"

/-- The item in double quotes stays as it is, and no array of literals is written so. -/
theorem list_default_of_labelled :
    ∃ out, (run "post.erd" labelled {}).output = some out ∧
      (∃ e ∈ (run "post.erd" labelled {}).schema.entities, ∃ f ∈ e.fields, e.name = "Post" ∧ f.name = "tags" ∧
        f.cardinality = .set ∧ ∃ v, f.default? = some v ∧ v.kind = .list ∧ v.text = "[" ++ "\"a\"" ++ "]") ∧
      Lists Scan.isGapChar Scan.IsItem ["a"] "\"a\"" ∧
      (out.column? "Post" "tags").bind (·.default) = some "ARRAY[\"a\"]" ∧
      ∀ body, "ARRAY[" ++ body ++ "]" = "ARRAY[\"a\"]" → ¬ Lists Sql.isBlank Sql.IsLiteral ["a"] body := by
  have facts : ∃ out ∈ (run "post.erd" labelled {}).output,
      (∃ e ∈ (run "post.erd" labelled {}).schema.entities, ∃ f ∈ e.fields, e.name = "Post" ∧ f.name = "tags" ∧
        f.cardinality = .set ∧ ∃ v ∈ f.default?, v.kind = .list ∧ v.text = "[" ++ "\"a\"" ++ "]") ∧
      (out.column? "Post" "tags").bind (·.default) = some "ARRAY[\"a\"]" := by
    rw [run, analyse, labelled, read_bytes]
    decide +kernel
  obtain ⟨out, output, ⟨e, he, f, hf, owner, named, set, v, stated, list, text⟩, column⟩ := facts
  have item : Scan.IsItem "\"a\"" "a" := ⟨by decide +kernel, by decide +kernel⟩
  refine ⟨out, output, ⟨e, he, f, hf, owner, named, set, v, stated, list, text⟩, ?_, column, ?_⟩
  · show Lists _ _ _ ("" ++ "\"a\"" ++ "")
    exact .last rfl item rfl
  · intro body same lists
    refine Sql.not_lists_of_head? ?_ lists
    have chars := congrArg String.toList same
    rw [String.toList_append, String.toList_append] at chars
    have inner : body.toList ++ [']'] = ['"', 'a', '"'] ++ [']'] := by simpa using chars
    rw [List.append_cancel_right inner]
    rfl

end Compilation

end ErdSql
