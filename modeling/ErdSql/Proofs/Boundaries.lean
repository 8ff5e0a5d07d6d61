import ErdSql.Proofs.Pieces
import ErdSql.Proofs.TableText

/-!
# Boundaries of statements

A text is sealed if it leaves no comment and no quoted run open. Sealed texts are put together from
sealed parts, and a script whose statements are sealed is cut at the semicolons that end them
(`Ddl.normalize_sql`).
-/

namespace ErdSql

open Script (Phrase Closed Stops Breaks Piece Gaps statementsOf pieces normalize)
open Text (ascii)

namespace Script

/-! ### Statements between semicolons -/

lemma splitList_append_cons {α : Type} [BEq α] [LawfulBEq α] (separator : α) (xs ys : List α) :
    Text.splitList separator (xs ++ separator :: ys) =
      Text.splitList separator xs ++ Text.splitList separator ys := by
  induction xs with
  | nil => simp [Text.splitList]
  | cons x xs ih =>
    rw [List.cons_append, Text.splitList, Text.splitList, ih]
    split
    · rfl
    · cases e : Text.splitList separator xs with
      | nil => exact absurd e (Ddl.splitList_ne_nil separator xs)
      | cons part parts => rfl

lemma statementsOf_append (ps qs : List Piece) :
    statementsOf (ps ++ .semicolon :: qs) = statementsOf ps ++ statementsOf qs := by
  rw [statementsOf, splitList_append_cons, List.map_append, List.filter_append]
  rfl

lemma statementsOf_nil : statementsOf [] = [] :=
  statementsOf_gaps nofun

/-- Gaps before a statement do not matter. -/
lemma statementsOf_gaps_append {gs : List Piece} (h : Gaps gs) (ps : List Piece) :
    statementsOf (gs ++ ps) = statementsOf ps := by
  induction gs with
  | nil => rfl
  | cons g gs ih =>
    obtain ⟨silent, noSemicolon⟩ := h g List.mem_cons_self
    rw [← ih fun p hp => h p (List.mem_cons_of_mem g hp), List.cons_append, statementsOf, statementsOf,
      Text.splitList, if_neg (by simpa using noSemicolon)]
    cases e : Text.splitList .semicolon (gs ++ ps) with
    | nil => exact absurd e (Ddl.splitList_ne_nil _ _)
    | cons part parts =>
      dsimp only
      rw [List.map_cons, List.map_cons, layout, silent]
      dsimp only
      rw [layout_none]

/-! ### Closed texts -/

lemma closed_of_pieces {bs : List UInt8} {ps : List Piece}
    (h : pieces .nothing (bs ++ [ascii ';']) = ps ++ pieces .nothing [ascii ';']) : Closed bs := by
  rw [Closed, h, pieces_semicolon, pieces, List.getLast?_concat]

lemma closed_of_phrase {bs : List UInt8} {ws : List Word} (h : Phrase bs ws) : Closed bs := by
  obtain ⟨ps, -, cut⟩ := h.exists_pieces
  exact closed_of_pieces (cut _ (stops_cons (by decide) _))

lemma exists_pieces_of_own {bs rest : List UInt8} (own : ∀ b ∈ bs, isSafe b = true ∨ b = ascii ' ')
    (h : Ends rest) (before : Before) :
    ∃ ps, pieces before (bs ++ rest) = ps ++ pieces .nothing rest := by
  induction bs generalizing before with
  | nil => exact ⟨[], pieces_of_ends h before⟩
  | cons b bs ih =>
    have own' := fun c hc => own c (List.mem_cons_of_mem b hc)
    rw [List.cons_append]
    rcases own b List.mem_cons_self with safe | rfl
    · obtain ⟨ps, cut⟩ := ih own' (before.push b)
      refine ⟨.other b :: ps, ?_⟩
      rw [pieces, pieceAt_of_isSafe safe]
      exact congrArg (.other b :: ·) cut
    · obtain ⟨ps, cut⟩ := ih own' .nothing
      refine ⟨.blank (ascii ' ') :: ps, ?_⟩
      rw [pieces_space, cut]
      rfl

lemma Closed.append {bs cs : List UInt8} (h : Closed bs) (h' : Closed cs)
    (joint : Stops cs ∨ Breaks bs) : Closed (bs ++ cs) := by
  have joint' : Apart (cs ++ [ascii ';']) ∨ Breaks bs := by
    refine joint.imp_left fun stops => Stops.apart ?_
    cases cs with
    | nil => exact stops_cons (by decide) _
    | cons c cs => exact stops
  rw [Closed, List.append_assoc, h.pieces_append joint', List.getLast?_append, h']
  rfl

end Script

namespace Ddl

/-! ### Sealed texts -/

/-- A text that leaves no comment and no quoted run open. -/
def Sealed (s : String) : Prop := Closed (Text.bytes s)

instance (s : String) : Decidable (Sealed s) :=
  inferInstanceAs (Decidable (Closed _))

/-- A sealed text behind which any other can stand. -/
def Lead (s : String) : Prop := Sealed s ∧ Breaks (Text.bytes s)

/-- A sealed text that can stand behind any other. -/
def Trail (s : String) : Prop := Sealed s ∧ Stops (Text.bytes s)

/-- A sealed text that can stand between any two. -/
def Joint (s : String) : Prop := Lead s ∧ Stops (Text.bytes s)

/-- Whether a text is made of words, punctuation and spaces, like most texts of the generator's own. -/
def isOwn (s : String) : Bool :=
  (Text.bytes s).all fun b => Script.isSafe b || b == ascii ' '

lemma sealed_of_own {s : String} (h : isOwn s = true) : Sealed s := by
  rw [isOwn, List.all_eq_true] at h
  obtain ⟨ps, cut⟩ := Script.exists_pieces_of_own (fun b hb => by simpa using h b hb)
    (Script.stops_cons (b := ascii ';') (by decide) []).ends .nothing
  exact Script.closed_of_pieces cut

/-- Whether a text starts with a byte that ends what stands before it, if it has a byte. -/
def startsApart (s : String) : Bool :=
  ((Text.bytes s).head?.map (Text.bytes " ,()[];").contains).getD true

/-- Whether a text ends with a byte that nothing behind it goes on. -/
def endsApart (s : String) : Bool :=
  ((Text.bytes s).getLast?.map (Text.bytes " \n,()[]").contains).getD false

lemma stops_of_startsApart {s : String} (h : startsApart s = true) : Stops (Text.bytes s) := by
  intro b hb
  rw [startsApart, hb] at h
  simpa using h

lemma breaks_of_endsApart {s : String} (h : endsApart s = true) : Breaks (Text.bytes s) := by
  rw [endsApart] at h
  cases hb : (Text.bytes s).getLast? with
  | none =>
    rw [hb] at h
    cases h
  | some b =>
    rw [hb] at h
    exact ⟨b, hb, by simpa using h⟩

lemma Lead.of_own {s : String} (h : (isOwn s && endsApart s) = true) : Lead s := by
  rw [Bool.and_eq_true] at h
  exact ⟨sealed_of_own h.1, breaks_of_endsApart h.2⟩

lemma Trail.of_own {s : String} (h : (isOwn s && startsApart s) = true) : Trail s := by
  rw [Bool.and_eq_true] at h
  exact ⟨sealed_of_own h.1, stops_of_startsApart h.2⟩

lemma Joint.of_own {s : String} (h : (isOwn s && startsApart s && endsApart s) = true) : Joint s := by
  rw [Bool.and_eq_true, Bool.and_eq_true] at h
  exact ⟨⟨sealed_of_own h.1.1, breaks_of_endsApart h.2⟩, stops_of_startsApart h.1.2⟩

lemma sealed_of_phrase {s : String} {ws : List Script.Word} (h : Phrase (Text.bytes s) ws) : Sealed s :=
  Script.closed_of_phrase h

lemma sealed_of_clause {s : String} (h : Clause s) : Sealed s := by
  obtain ⟨ws, phrase, -⟩ := h
  exact sealed_of_phrase phrase

lemma sealed_lead (lead : String) (h : Lead lead) {s : String} (hs : Sealed s) : Sealed (lead ++ s) := by
  rw [Sealed, Text.bytes_append]
  exact h.1.append hs (.inr h.2)

lemma sealed_trail {s : String} (hs : Sealed s) (tail : String) (h : Trail tail) : Sealed (s ++ tail) := by
  rw [Sealed, Text.bytes_append]
  exact hs.append h.1 (.inl h.2)

lemma breaks_append {bs cs : List UInt8} (h : Breaks cs) : Breaks (bs ++ cs) := by
  obtain ⟨c, hc, mark⟩ := h
  refine ⟨c, ?_, mark⟩
  rw [List.getLast?_append, hc]
  rfl

lemma Lead.append {s t : String} (hs : Lead s) (ht : Lead t) : Lead (s ++ t) := by
  refine ⟨sealed_lead s hs ht.1, ?_⟩
  rw [Text.bytes_append]
  exact breaks_append ht.2

lemma sealed_between {s t : String} (hs : Sealed s) (middle : String) (h : Joint middle)
    (ht : Sealed t) : Sealed (s ++ middle ++ t) := by
  obtain ⟨⟨closed, breaks⟩, stops⟩ := h
  rw [Sealed, Text.bytes_append, Text.bytes_append]
  exact (hs.append closed (.inl stops)).append ht (.inr (breaks_append breaks))

lemma sealed_join {separator : String} (h : Joint separator) {ss : List String}
    (all : ∀ s ∈ ss, Sealed s) : Sealed (Text.join separator ss) := by
  induction ss with
  | nil => exact sealed_of_own (by decide : isOwn "" = true)
  | cons s ss ih =>
    cases ss with
    | nil => exact all s List.mem_cons_self
    | cons t ss =>
      exact sealed_between (all s List.mem_cons_self) separator h
        (ih fun t ht => all t (List.mem_cons_of_mem s ht))

lemma sealed_name (s : String) : Sealed (Sql.name s) :=
  sealed_of_clause (clause_name s)

lemma sealed_nameList (names : List String) : Sealed (Sql.nameList names) := by
  refine sealed_join (.of_own (by decide)) fun s hs => ?_
  obtain ⟨name, -, rfl⟩ := List.mem_map.1 hs
  exact sealed_name name

lemma sealed_quoteString (d : Dialect) (s : String) : Sealed (d.quoteString s) :=
  sealed_of_clause (clause_quoteString d s)

/-! ### The end of a statement -/

/-- The text of a statement without what is dropped around it. -/
def settled (s : String) : String :=
  Text.trimEndWhere isTrailing (Text.trim s)

/-- A text without what is dropped at the end of a statement. -/
def ended (s : String) : String :=
  Text.trimEndWhere isTrailing (Text.trimEndWhere Text.isSpace s)

/-- Whether a text starts with a character that stays at the start of a statement. -/
def startsFirm (s : String) : Bool :=
  (s.toList.head?.map fun c => !Text.isSpace c).getD false

/-- Whether a text ends with a character that stays at the end of a statement. -/
def endsFirm (s : String) : Bool :=
  (s.toList.getLast?.map fun c => !Text.isSpace c && !isTrailing c).getD false

/-- A text that loses nothing as a statement. -/
def Solid (s : String) : Prop :=
  startsFirm s = true ∧ endsFirm s = true

lemma startsFirm_append {s : String} (h : startsFirm s = true) (t : String) :
    startsFirm (s ++ t) = true := by
  rw [startsFirm] at h ⊢
  rw [String.toList_append, List.head?_append]
  cases hd : s.toList.head? with
  | none => rw [hd] at h; cases h
  | some b => rwa [hd] at h

lemma endsFirm_append (s : String) {t : String} (h : endsFirm t = true) :
    endsFirm (s ++ t) = true := by
  rw [endsFirm] at h ⊢
  rw [String.toList_append, List.getLast?_append]
  cases hd : t.toList.getLast? with
  | none => rw [hd] at h; cases h
  | some b => rwa [hd] at h

lemma solid_of_phrase {s : String} {ws : List Script.Word} (h : Phrase (Text.bytes s) ws) : Solid s := by
  obtain ⟨⟨c, hc, first⟩, e, he, space, trailing⟩ := firm_ends_of_phrase h
  refine ⟨?_, ?_⟩
  · simp [startsFirm, hc, first]
  · simp [endsFirm, he, space, trailing]

lemma dropWhile_of_startsFirm {s : String} (h : startsFirm s = true) :
    s.toList.dropWhile Text.isSpace = s.toList := by
  rw [startsFirm] at h
  cases e : s.toList with
  | nil => rfl
  | cons c cs =>
    rw [e] at h
    have firm : (!Text.isSpace c) = true := h
    rw [List.dropWhile_cons, if_neg (by simpa using firm)]

lemma exists_concat_of_endsFirm {s : String} (h : endsFirm s = true) :
    ∃ init c, s.toList = init ++ [c] ∧ Text.isSpace c = false ∧ isTrailing c = false := by
  rw [endsFirm] at h
  obtain e | ⟨init, c, e⟩ := List.eq_nil_or_concat s.toList
  · rw [e] at h
    cases h
  · rw [e, List.concat_eq_append] at h
    exact ⟨init, c, by rw [e, List.concat_eq_append], by simpa using h⟩

/-- Behind a solid text as much is dropped as at the end of a statement. -/
lemma settled_append {s : String} (solid : Solid s) (t : String) : settled (s ++ t) = s ++ ended t := by
  obtain ⟨init, c, e, noSpace, noTrail⟩ := exists_concat_of_endsFirm solid.2
  apply String.toList_injective
  rw [settled, Text.trim, Text.trimChars, Text.trimEndWhere,
    dropWhile_of_startsFirm (startsFirm_append solid.1 t), String.toList_append, e, List.append_assoc,
    List.singleton_append, String.toList_ofList, Text.dropWhileEnd_append_cons noSpace,
    String.toList_ofList, Text.dropWhileEnd_append_cons noTrail, String.toList_append, e, ended,
    Text.trimEndWhere, Text.trimEndWhere, String.toList_ofList, String.toList_ofList]
  simp

lemma settled_of_solid {s : String} (solid : Solid s) : settled s = s := by
  have := settled_append solid ""
  rwa [String.append_empty, (by decide : ended "" = ""), String.append_empty] at this

/-- A space stays before a text only if something of it stays. -/
lemma ended_space (t : String) : ended (" " ++ t) = if ended t = "" then "" else " " ++ ended t := by
  have drop (p : Char → Bool) (hp : p ' ' = true) (cs : List Char) : Text.dropWhileEnd p (' ' :: cs) =
      if Text.dropWhileEnd p cs = [] then [] else ' ' :: Text.dropWhileEnd p cs := by
    rw [Text.dropWhileEnd, Text.dropWhileEnd, List.reverse_cons, List.dropWhile_append]
    by_cases none : cs.reverse.dropWhile p = []
    · simp [none, hp]
    · simp [none]
  apply String.toList_injective
  have front : (" " ++ t).toList = ' ' :: t.toList := by
    rw [String.toList_append]
    rfl
  have empty : ended t = "" ↔ Text.dropWhileEnd isTrailing (Text.dropWhileEnd Text.isSpace t.toList) = [] := by
    rw [ended, Text.trimEndWhere, Text.trimEndWhere, String.toList_ofList, ← String.toList_inj,
      String.toList_ofList]
    rfl
  rw [ended, Text.trimEndWhere, Text.trimEndWhere, front, String.toList_ofList, String.toList_ofList,
    drop _ (by decide)]
  by_cases blank : Text.dropWhileEnd Text.isSpace t.toList = []
  · rw [if_pos blank, if_pos (empty.2 (by rw [blank]; rfl))]
    rfl
  · rw [if_neg blank, drop _ (by decide)]
    by_cases none : ended t = ""
    · rw [if_pos none, if_pos (empty.1 none)]
      rfl
    · have space : (" " : String).toList = [' '] := by decide
      rw [if_neg none, if_neg fun e => none (empty.2 e), String.toList_append, space, ended,
        Text.trimEndWhere, Text.trimEndWhere, String.toList_ofList, String.toList_ofList,
        List.singleton_append]

/-- A solid text with a copied text behind it is sealed if what stays of the copied text is. -/
lemma sealed_settled_append {s : String} (solid : Solid s) (hs : Sealed s) {t : String}
    (ht : Sealed (ended t)) : Sealed (settled (s ++ " " ++ t)) := by
  rw [String.append_assoc, settled_append solid, ended_space]
  by_cases none : ended t = ""
  · rw [if_pos none, String.append_empty]
    exact hs
  · rw [if_neg none, ← String.append_assoc]
    exact sealed_between hs " " (.of_own (by decide)) ht

/-! ### Scripts -/

/-- Comment lines hold no statement, also when the last line has no line feed. -/
lemma normalize_comments {lines : List (List UInt8)} (all : ∀ line ∈ lines, Script.IsComment line)
    {bs : List UInt8} (h : bs ++ [ascii '\n'] = lines.flatMap (· ++ [ascii '\n'])) :
    normalize bs = [] := by
  obtain rfl | ⟨lines, last, rfl⟩ := List.eq_nil_or_concat lines
  · simp at h
  rw [List.concat_eq_append] at h all
  rw [List.flatMap_append, List.flatMap_singleton, ← List.append_assoc] at h
  obtain ⟨rfl, -⟩ := List.append_inj' h rfl
  obtain ⟨gs, gaps, cut⟩ := Script.pieces_comments (fun l hl => all l (List.mem_append_left _ hl)) last
  -- the last line is a comment up to the end of the text
  obtain ⟨⟨body, rfl⟩, noFeed⟩ := all last (by simp)
  have run : ((ascii '-' :: body).takeWhile (· != ascii '\n')) = ascii '-' :: body := by
    rw [List.takeWhile_eq_self_iff]
    intro b hb
    rw [bne_iff_ne]
    rintro rfl
    exact noFeed (List.mem_cons_of_mem _ hb)
  have piece : Script.pieceAt .nothing (ascii '-') (ascii '-' :: body ++ []) =
      (.comment (ascii '-' :: ascii '-' :: body), (ascii '-' :: body).length) := by
    have found : Script.pieceAt .nothing (ascii '-') (ascii '-' :: body ++ []) =
        (.comment (ascii '-' :: (ascii '-' :: body ++ []).take
            ((ascii '-' :: body ++ []).takeWhile (· != ascii '\n')).length),
          ((ascii '-' :: body ++ []).takeWhile (· != ascii '\n')).length) := rfl
    rw [found, List.append_nil, run, List.take_length]
  have tail := Script.pieces_cons piece
  rw [List.append_nil, Script.pieces] at tail
  change statementsOf (pieces .nothing _) = []
  rw [cut, tail]
  exact Script.statementsOf_gaps (gaps.append (Script.gaps_comment _))

/-- The pieces of an enabled statement in a script, and of what follows it. -/
lemma statementsOf_terminated {sql : String} (h : Sealed (settled sql)) (rest : List UInt8) :
    statementsOf (pieces .nothing (Text.bytes (terminated sql false ++ "\n") ++ rest)) =
      normalize (Text.bytes (terminated sql false)) ++ statementsOf (pieces .nothing rest) := by
  have bytes : Text.bytes (terminated sql false) = Text.bytes (settled sql) ++ [ascii ';'] := by
    rw [terminated, if_neg (by decide), Text.bytes_append]
    rfl
  have alone : normalize (Text.bytes (terminated sql false)) =
      statementsOf (pieces .nothing (Text.bytes (settled sql) ++ [ascii ';'])) := by
    rw [bytes]
    rfl
  have follow (rest : List UInt8) : statementsOf
      (pieces .nothing (Text.bytes (settled sql) ++ ascii ';' :: rest)) = statementsOf
        (pieces .nothing (Text.bytes (settled sql) ++ [ascii ';'])).dropLast ++
          statementsOf (pieces .nothing rest) := by
    rw [Closed.pieces_append h (.inl (Script.apart_semicolon rest)), Script.pieces_semicolon,
      Script.statementsOf_append]
  have skip := Script.statementsOf_gaps_append (Script.gaps_blank (ascii '\n')) (pieces .nothing rest)
  rw [List.singleton_append] at skip
  have lineFeed : Text.bytes "\n" = [ascii '\n'] := by decide
  rw [alone, Text.bytes_append, bytes, lineFeed, List.append_assoc, List.append_assoc,
    List.singleton_append, List.singleton_append, follow, follow, Script.pieces_lineFeed, skip,
    Script.pieces, Script.statementsOf_nil, List.append_nil]

/-- A disabled statement is made of comment lines. -/
lemma exists_comments (sql : String) : ∃ lines : List (List UInt8),
    (∀ line ∈ lines, Script.IsComment line) ∧
      Text.bytes (terminated sql true) ++ [ascii '\n'] = lines.flatMap (· ++ [ascii '\n']) := by
  have ne : (Text.lines (settled sql ++ ";")).map commentLine ≠ [] := by
    rw [Text.lines, Text.splitAt, List.map_map, Ne, List.map_eq_nil_iff]
    exact splitList_ne_nil _ _
  refine ⟨((Text.lines (settled sql ++ ";")).map commentLine).map Text.bytes, ?_, ?_⟩
  · intro line hl
    obtain ⟨x, hx, rfl⟩ := List.mem_map.1 hl
    obtain ⟨y, hy, rfl⟩ := List.mem_map.1 hx
    exact isComment_commentLine (not_mem_of_mem_lines hy)
  · rw [← bytes_join_lineFeed ne, Text.bytes_append, terminated, if_pos rfl]
    rfl

/-- A disabled statement is none. -/
lemma normalize_disabled (sql : String) : normalize (Text.bytes (terminated sql true)) = [] := by
  obtain ⟨lines, comments, e⟩ := exists_comments sql
  exact normalize_comments comments e

/-- A banner holds no statement. -/
lemma statementsOf_banner (header : String) (rest : List UInt8) :
    statementsOf (pieces .nothing (Text.bytes (banner header) ++ rest)) =
      statementsOf (pieces .nothing rest) := by
  have front := chunk_banner header
  generalize Text.bytes (banner header) = bs at front ⊢
  cases front with
  | comments all =>
    obtain ⟨gs, gaps, cut⟩ := Script.pieces_comments all rest
    rw [cut, Script.statementsOf_gaps_append gaps]

/-- The statements of texts of which some are disabled, one after another. -/
def renderings (sts : List (String × Bool)) : List String :=
  sts.map fun st => terminated st.1 st.2

/-- A script of texts that are sealed or disabled is cut into what each of them is cut into. -/
lemma normalize_script (header : String) {sts : List (String × Bool)}
    (h : ∀ st ∈ sts, st.2 = false → Sealed (settled st.1)) :
    normalize (Text.bytes (script header (renderings sts))) =
      sts.flatMap fun st => normalize (Text.bytes (terminated st.1 st.2)) := by
  have statements : statementsOf (pieces .nothing
      ((renderings sts).map fun r => Text.bytes (r ++ "\n")).flatten) =
        sts.flatMap fun st => normalize (Text.bytes (terminated st.1 st.2)) := by
    induction sts with
    | nil =>
      rw [renderings, List.map_nil, List.map_nil, List.flatten_nil, Script.pieces]
      exact Script.statementsOf_nil
    | cons st sts ih =>
      have rest := ih fun st' hst => h st' (List.mem_cons_of_mem st hst)
      obtain ⟨sql, disabled⟩ := st
      rw [renderings] at rest ⊢
      rw [List.map_cons, List.map_cons, List.flatten_cons, List.flatMap_cons, ← rest]
      dsimp only
      cases disabled with
      | false => exact statementsOf_terminated (h _ List.mem_cons_self rfl) _
      | true =>
        obtain ⟨lines, comments, e⟩ := exists_comments sql
        obtain ⟨gs, gaps, cut⟩ := Script.pieces_comments comments
          ((sts.map fun st => terminated st.1 st.2).map fun r => Text.bytes (r ++ "\n")).flatten
        have lineFeed : Text.bytes "\n" = [ascii '\n'] := by decide
        rw [normalize_disabled, Text.bytes_append, lineFeed, e, cut,
          Script.statementsOf_gaps_append gaps, List.nil_append]
  change statementsOf (pieces .nothing _) = _
  rw [← statements, bytes_script, List.flatten_cons, statementsOf_banner]

/-- The statements of an output, each with the mark whether it is disabled. -/
def Output.texts (out : Output) : List (String × Bool) :=
  out.statements.map fun st => (st.sql out.dialect, st.disabled out.dialect)

lemma Output.sql_eq (out : Output) : out.sql = script out.header (renderings out.texts) := by
  rw [Output.sql, renderings, Output.texts, List.map_map]
  rfl

/-- A script whose enabled statements are sealed is cut into what each of its statements is cut
into. -/
theorem normalize_sql {out : Output}
    (h : ∀ st ∈ out.statements, st.disabled out.dialect = false → Sealed (settled (st.sql out.dialect))) :
    normalize (Text.bytes out.sql) =
      out.statements.flatMap fun st => normalize (Text.bytes (st.render out.dialect)) := by
  have texts : ∀ st ∈ out.texts, st.2 = false → Sealed (settled st.1) := by
    intro text mem enabled
    obtain ⟨st, hst, rfl⟩ := List.mem_map.1 mem
    exact h st hst enabled
  rw [Output.sql_eq, normalize_script _ texts, Output.texts, List.flatMap_map]
  rfl

end Ddl

end ErdSql
