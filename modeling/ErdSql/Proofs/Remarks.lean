import ErdSql.Proofs.NormalForms

/-!
# Remarks

What a script writes as comments is none of its statements: neither its banner nor its disabled
statements can be seen in its normal form.

* `Script.Closed.of_semicolon`: what leaves nothing open with a semicolon leaves nothing open without it.
* `Ddl.startsWith_of_disabled`: a disabled statement consists of comment lines.
* `Ddl.normalize_script_header`: the banner does not matter.
* `Ddl.normalize_script_enabled`: the disabled statements do not matter.
-/

namespace ErdSql

open Script (Closed Piece pieces normalize statementsOf)
open Text (ascii)

namespace Script

/-- The last piece in front of a semicolon that ends with a semicolon is one. -/
lemma Closed.of_semicolon {bs : List UInt8} (h : Closed (bs ++ [ascii ';'])) : Closed bs := by
  have cut := h.pieces_eq (apart_semicolon [])
  have ne : pieces .nothing (bs ++ [ascii ';']) ≠ [] := pieces_ne_nil (by simp) .nothing
  obtain ⟨ps, p, concat⟩ : ∃ ps p, pieces .nothing (bs ++ [ascii ';']) = ps ++ [p] :=
    ⟨_, _, (List.dropLast_append_getLast ne).symm⟩
  rw [concat, List.append_assoc ps, List.singleton_append] at cut
  obtain ⟨before, b, t, r, piece, bytes, behind⟩ := exists_pieceAt_of_append cut
  obtain rfl : r = [ascii ';'] := by
    rw [← flatMap_bytes_pieces (before.behind b p) r, behind, flatMap_bytes_pieces]
  have last : (b :: t).getLast? = some (ascii ';') := by
    have whole := flatMap_bytes_pieces .nothing (bs ++ [ascii ';'])
    rw [concat, List.flatMap_append, List.flatMap_singleton, bytes] at whole
    rw [← List.getLast?_append_of_ne_nil _ (List.cons_ne_nil b t), whole, List.getLast?_concat]
  rw [Closed, concat, List.getLast?_concat, eq_semicolon_of_pieceAt piece bytes last]

end Script

namespace Ddl

/-! ### Disabled statements -/

lemma startsWith_commentLine (line : String) : Text.startsWith "--" (commentLine line) = true := by
  unfold commentLine
  split
  · next start => exact start
  · rw [Text.startsWith, String.toList_append]
    rfl

lemma lineFeed_not_mem_commentLine {line : String} (h : '\n' ∉ line.toList) :
    '\n' ∉ (commentLine line).toList := by
  unfold commentLine
  split
  · exact h
  · rw [String.toList_append, List.mem_append]
    rintro (front | behind)
    · exact absurd front (by decide)
    · exact h behind

/-- The lines of a disabled statement are those of the statement, each as a comment. -/
lemma lines_disabled (sql : String) :
    Text.lines (terminated sql true) = (Text.lines (settled sql ++ ";")).map commentLine := by
  have lineFeed : "\n".toList = ['\n'] := rfl
  rw [terminated, if_pos rfl]
  refine Text.splitAt_join lineFeed ?_ fun written hw => ?_
  · rw [Text.lines, Text.splitAt, List.map_map, Ne, List.map_eq_nil_iff]
    exact splitList_ne_nil _ _
  · obtain ⟨line, hl, rfl⟩ := List.mem_map.1 hw
    exact lineFeed_not_mem_commentLine (not_mem_of_mem_lines hl)

/-- Every line of a disabled statement is a comment. -/
lemma startsWith_of_disabled {sql line : String} (h : line ∈ Text.lines (terminated sql true)) :
    Text.startsWith "--" line = true := by
  rw [lines_disabled] at h
  obtain ⟨line, -, rfl⟩ := List.mem_map.1 h
  exact startsWith_commentLine line

/-! ### Normal forms without remarks -/

/-- A script has the same statements under any banner. -/
lemma normalize_script_header (header : String) (rendered : List String) :
    normalize (Text.bytes (script header rendered)) = normalize (Text.bytes (script "" rendered)) := by
  change statementsOf (pieces .nothing _) = statementsOf (pieces .nothing _)
  rw [bytes_script, bytes_script, List.flatten_cons, List.flatten_cons, statementsOf_banner,
    statementsOf_banner]

lemma sealed_settled {sql : String} (h : Sealed (terminated sql false)) : Sealed (settled sql) := by
  have semicolon : Text.bytes ";" = [ascii ';'] := by decide
  rw [terminated, if_neg (by decide), Sealed, Text.bytes_append, semicolon] at h
  exact h.of_semicolon

/-- A script whose enabled statements are sealed has the same statements without the disabled ones. -/
lemma normalize_script_enabled (header : String) {sts : List (String × Bool)}
    (h : ∀ st ∈ sts, st.2 = false → Sealed (terminated st.1 st.2)) :
    normalize (Text.bytes (script header (renderings sts))) =
      normalize (Text.bytes (script header (renderings (sts.filter fun st => !st.2)))) := by
  have closed : ∀ st ∈ sts, st.2 = false → Sealed (settled st.1) := by
    intro st hst enabled
    have whole := h st hst enabled
    rw [enabled] at whole
    exact sealed_settled whole
  rw [normalize_script header closed,
    normalize_script header fun st hst => closed st (List.mem_of_mem_filter hst)]
  clear h closed
  -- a disabled statement adds nothing to what the others are cut into
  induction sts with
  | nil => rfl
  | cons st sts ih =>
    obtain ⟨sql, disabled⟩ := st
    cases disabled with
    | false => rw [List.filter_cons_of_pos rfl, List.flatMap_cons, List.flatMap_cons, ih]
    | true => rw [List.filter_cons_of_neg (by simp), List.flatMap_cons, ih, normalize_disabled, List.nil_append]

/-- An output without its disabled statements. -/
def Output.enabled (out : Output) : Output :=
  { out with statements := out.statements.filter fun st => !st.disabled out.dialect }

lemma Output.texts_enabled (out : Output) : out.enabled.texts = out.texts.filter fun st => !st.2 := by
  rw [texts, texts, List.filter_map]
  rfl

/-- A script has the same statements with and without its banner, each line of a disabled statement
starts with two dashes, and without the disabled statements the statements are the same if each of the
enabled ones leaves no quoted run and no comment open. -/
theorem normalize_remarks :
    (∀ (header : String) (rendered : List String),
      normalize (Text.bytes (script header rendered)) = normalize (Text.bytes (script "" rendered))) ∧
    (∀ sql : String, ∀ line ∈ Text.lines (terminated sql true), Text.startsWith "--" line = true) ∧
    (∀ (header : String) (sts : List (String × Bool)),
      (∀ st ∈ sts, st.2 = false → Sealed (terminated st.1 st.2)) →
        normalize (Text.bytes (script header (renderings sts))) =
          normalize (Text.bytes (script header (renderings (sts.filter fun st => !st.2))))) ∧
    ∀ out : Output,
      normalize (Text.bytes out.sql) = normalize (Text.bytes { out with header := "" }.sql) ∧
      (∀ st ∈ out.statements, st.disabled out.dialect = true →
        ∀ line ∈ Text.lines (st.render out.dialect), Text.startsWith "--" line = true) ∧
      ((∀ st ∈ out.statements, st.disabled out.dialect = false → Sealed (st.render out.dialect)) →
        normalize (Text.bytes out.sql) = normalize (Text.bytes out.enabled.sql)) := by
  refine ⟨normalize_script_header, fun _ _ => startsWith_of_disabled,
    fun header _ => normalize_script_enabled header, fun out => ⟨?_, ?_, ?_⟩⟩
  · exact normalize_script_header out.header _
  · intro st _ disabled line hl
    rw [Statement.render, disabled] at hl
    exact startsWith_of_disabled hl
  · intro h
    rw [out.sql_eq, out.enabled.sql_eq, out.texts_enabled]
    refine normalize_script_enabled out.header fun text mem enabled => ?_
    obtain ⟨st, hst, rfl⟩ := List.mem_map.1 mem
    exact h st hst enabled

/-- A disabled text of several lines between enabled ones with semicolons of their own. -/
theorem normalize_remarks_of_disabled :
    (∀ st ∈ [("SELECT ';' ", false), ("-- x\nLOCK 'it''s\n;'", true), ("VACUUM/* ; */", false)],
      st.2 = false → Sealed (terminated st.1 st.2)) ∧
    script "by\nhand" (renderings
        [("SELECT ';' ", false), ("-- x\nLOCK 'it''s\n;'", true), ("VACUUM/* ; */", false)]) =
      "-- by\n-- hand\nSELECT ';';\n-- x\n-- LOCK 'it''s\n-- ;';\nVACUUM/* ; */;\n" ∧
    script "by\nhand" (renderings [("SELECT ';' ", false), ("VACUUM/* ; */", false)]) =
      "-- by\n-- hand\nSELECT ';';\nVACUUM/* ; */;\n" ∧
    normalize (Text.bytes (script "by\nhand" (renderings
        [("SELECT ';' ", false), ("-- x\nLOCK 'it''s\n;'", true), ("VACUUM/* ; */", false)]))) =
      normalize (Text.bytes (script "by\nhand" (renderings [("SELECT ';' ", false), ("VACUUM/* ; */", false)]))) ∧
    normalize (Text.bytes (Output.mk .sqlite "by\nhand" [.extension "citext", .migration "t" "VACUUM"]).sql) =
      normalize (Text.bytes (Output.mk .sqlite "by\nhand" [.migration "t" "VACUUM"]).sql) := by
  have closed : ∀ st ∈ [("SELECT ';' ", false), ("-- x\nLOCK 'it''s\n;'", true), ("VACUUM/* ; */", false)],
      st.2 = false → Sealed (terminated st.1 st.2) := by
    decide +kernel
  have closed' : ∀ st ∈ [Statement.extension "citext", .migration "t" "VACUUM"],
      st.disabled .sqlite = false → Sealed (st.render .sqlite) := by
    decide +kernel
  exact ⟨closed, by decide +kernel, by decide +kernel, normalize_remarks.2.2.1 "by\nhand" _ closed,
    (normalize_remarks.2.2.2 ⟨.sqlite, "by\nhand", _⟩).2.2 closed'⟩

end Ddl

end ErdSql
