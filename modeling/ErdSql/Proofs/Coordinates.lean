import ErdSql.Proofs.Locality
import ErdSql.Proofs.TokenRanges

/-!
# Texts cut into tokens

The tokens of a document say where they stand: their offsets count the bytes in front of them, their
lines and columns the line feeds and characters. Between tokens there is only what the scanner skips.

* `Token.At`: a token stands for some characters, behind some others.
* `Scan.Laid`: tokens follow each other through a text, up to the one that marks its end.
* `Scan.laid_scanFrom`: the tokens of a text do, with nothing but white space and comments between them
  unless there are faults.
* `Scan.ofBytes_coordinates`, `Scan.ofBytes_gaps`: the same of documents.
-/

namespace ErdSql

/-! ### Places -/

namespace Position

/-- Columns count from the last line feed on. -/
lemma column_start_advanceBy (cs : List Char) :
    (start.advanceBy cs).column = 1 + (cs.reverse.takeWhile (· != '\n')).length := by
  induction cs using List.reverseRecOn with
  | nil => rfl
  | append_singleton cs c ih =>
    rw [advanceBy_append, List.reverse_append, List.reverse_singleton, List.singleton_append,
      List.takeWhile_cons]
    change ((start.advanceBy cs).advance c).column = _
    unfold advance
    by_cases feed : c = '\n'
    · simp [feed]
    · simp [feed, ih, Nat.add_assoc]

lemma offset_start_advanceBy (cs : List Char) : (start.advanceBy cs).offset = (Text.encode cs).length := by
  rw [Document.offset_advanceBy, Scan.length_encode]
  exact Nat.zero_add _

end Position

namespace Text

/-- What stands between two places, and behind the second one. -/
lemma slice_between (front gap after : List Char) :
    slice (front ++ gap ++ after) (encode front).length (encode (front ++ gap)).length = gap ∧
      dropBytes (encode (front ++ gap)).length (front ++ gap ++ after) = after := by
  constructor
  · rw [encode_append, List.length_append, slice, Nat.add_sub_cancel_left, Scan.length_encode,
      Scan.length_encode, List.append_assoc, Document.dropBytes_append, Document.takeBytes_append]
  · rw [Scan.length_encode, Document.dropBytes_append]

end Text

/-- A token stands for the characters of a range, behind the ones in front. -/
structure Token.At (front range : List Char) (t : Token) : Prop where
  offset : t.offset = (Text.encode front).length
  stop : t.stop = (Text.encode (front ++ range)).length
  line : t.line = 1 + front.count '\n'
  column : t.column = 1 + (front.reverse.takeWhile (· != '\n')).length
  reads : t.Reads range

namespace Token.At

variable {front range : List Char} {t : Token}

lemma of_advanceBy (offset : t.offset = (Position.start.advanceBy front).offset)
    (stop : t.stop = ((Position.start.advanceBy front).advanceBy range).offset)
    (line : t.line = (Position.start.advanceBy front).line)
    (column : t.column = (Position.start.advanceBy front).column) (reads : t.Reads range) :
    t.At front range where
  offset := offset.trans (Position.offset_start_advanceBy front)
  stop := by rw [stop, ← Position.advanceBy_append, Position.offset_start_advanceBy]
  line := line.trans (Position.line_advanceBy _ front)
  column := column.trans (Position.column_start_advanceBy front)
  reads := reads

lemma length_le_offset {gap : List Char} (h : t.At (front ++ gap) range) :
    (Text.encode front).length ≤ t.offset := by
  rw [h.offset, Text.encode_append, List.length_append]
  exact Nat.le_add_right _ _

lemma stop_eq (h : t.At front range) : t.stop = t.offset + (Text.encode range).length := by
  rw [h.stop, h.offset, Text.encode_append, List.length_append]

/-- A token that stands for something has a length. -/
lemma offset_lt (h : t.At front range) (ne : range ≠ []) : t.offset < t.stop := by
  obtain ⟨c, cs, rfl⟩ := List.exists_cons_of_ne_nil ne
  have first := c.utf8Size_pos
  rw [h.stop_eq, Scan.length_encode, Document.byteSize_cons]
  omega

end Token.At

namespace Scan

/-! ### Texts cut into tokens -/

/-- Behind some characters stands a text with tokens, one behind the other, of which the last marks the
end of the text. If the text is clean, there is nothing but white space and comments between them. -/
inductive Laid (clean : Prop) : List Char → List Char → List Token → Prop where
  | last {front gap t} :
    (clean → Gap gap []) →
    t.At (front ++ gap) [] →
    t.kind = .eof →
    Laid clean front gap [t]
  | cons {front gap range rest t ts} :
    (clean → Gap gap (range ++ rest)) →
    t.At (front ++ gap) range →
    t.kind ≠ .eof →
    range ≠ [] →
    Laid clean (front ++ gap ++ range) rest ts →
    Laid clean front (gap ++ range ++ rest) (t :: ts)

namespace Laid

variable {clean clean' : Prop} {front xs cs : List Char} {ts : List Token}

lemma mono (h : Laid clean front cs ts) (weaker : clean' → clean) : Laid clean' front cs ts := by
  induction h with
  | last gap place eof => exact .last (fun c => gap (weaker c)) place eof
  | cons gap place kind ne _ ih => exact .cons (fun c => gap (weaker c)) place kind ne ih

/-- What is skipped in front of a text belongs to its first gap. -/
lemma skip (h : Laid clean (front ++ xs) cs ts)
    (skips : clean → ∀ gap after, cs = gap ++ after → Gap gap after → Gap (xs ++ gap) after) :
    Laid clean front (xs ++ cs) ts := by
  cases h with
  | last gap place eof =>
    refine .last (fun c => skips c _ _ (List.append_nil _).symm (gap c)) ?_ eof
    rwa [← List.append_assoc]
  | @cons _ gap range rest t ts between place kind ne behind =>
    rw [List.append_assoc front xs] at place behind
    rw [← List.append_assoc, ← List.append_assoc]
    exact .cons (fun c => skips c _ _ (List.append_assoc ..) (between c)) place kind ne behind

end Laid

/-- The tokens of a text are laid out one behind the other, and a text without faults is clean. -/
lemma laid_scanFrom (opens : Bool) (front cs : List Char) :
    Laid ((scanFrom opens (Position.start.advanceBy front) cs).errors = []) front cs
      (scanFrom opens (Position.start.advanceBy front) cs).tokens := by
  generalize place : Position.start.advanceBy front = p
  -- what a step takes goes to the front, so the place of the scanner stays the end of the front
  fun_induction scanFrom opens p cs generalizing front with
  | case1 opens p =>
    subst place
    refine .last (fun _ => .nil) ?_ rfl
    rw [List.append_nil]
    exact .of_advanceBy rfl rfl rfl rfl rfl
  | case2 opens p c cs more found ih =>
    have rest := ih (front ++ c :: cs.take more) (by rw [Position.advanceBy_append, place])
    have all := rest.skip fun _ gap after behind gap' => gap_of_step found behind gap'
    rwa [List.cons_append, List.take_append_drop] at all
  | case3 opens p c cs kind spelling more found next token rest ih =>
    subst place
    have behind := ih (front ++ c :: cs.take more) (by rw [Position.advanceBy_append])
    have here : token.At front (c :: cs.take more) :=
      Token.At.of_advanceBy rfl rfl rfl rfl (reads_of_step found)
    have all : Laid (rest.errors = []) front ([] ++ (c :: cs.take more) ++ cs.drop more)
        (token :: rest.tokens) := by
      refine .cons (fun _ => .nil) ?_ (kind_of_step found) (List.cons_ne_nil c _) ?_
      · rwa [List.append_nil]
      · rwa [List.append_nil]
    rwa [List.nil_append, List.cons_append, List.take_append_drop] at all
  | case4 opens p c cs fault before more found place' rest ih =>
    have behind := ih (front ++ c :: cs.take more) (by rw [Position.advanceBy_append, place])
    -- a text with a fault is not clean, so nothing has to be shown of what is skipped
    have faulty : Laid False front (c :: cs.take more ++ cs.drop more) rest.tokens :=
      (behind.mono False.elim).skip False.elim
    rw [List.cons_append, List.take_append_drop] at faulty
    exact faulty.mono (List.cons_ne_nil _ _)

/-! ### Coordinates -/

namespace Laid

variable {clean : Prop} {front cs : List Char} {ts : List Token}

/-- The tokens in front of the last one stand for something, and each one for a part of the text. -/
lemma exists_last (h : Laid clean front cs ts) : ∃ us final, ts = us ++ [final] ∧ final.kind = .eof ∧
    final.At (front ++ cs) [] ∧ ∀ t ∈ us, t.kind ≠ .eof ∧
      ∃ before range after, front ++ cs = before ++ range ++ after ∧ range ≠ [] ∧ t.At before range := by
  induction h with
  | @last front gap t _ place eof => exact ⟨[], t, rfl, eof, place, List.forall_mem_nil _⟩
  | @cons front gap range rest t ts _ place kind ne _ ih =>
    obtain ⟨us, final, rfl, eof, ends, inner⟩ := ih
    have whole : front ++ gap ++ range ++ rest = front ++ (gap ++ range ++ rest) := by
      simp only [List.append_assoc]
    rw [whole] at ends inner
    refine ⟨t :: us, final, rfl, eof, ends, fun u hu => ?_⟩
    rcases List.mem_cons.1 hu with rfl | later
    · exact ⟨kind, front ++ gap, range, rest, whole.symm, ne, place⟩
    · exact inner u later

/-- Tokens start behind what is in front of them, and each one behind those before it. -/
lemma pairwise (h : Laid clean front cs ts) : (∀ t ∈ ts, (Text.encode front).length ≤ t.offset) ∧
    ts.Pairwise fun t u => t.offset < u.offset ∧ t.stop ≤ u.offset := by
  induction h with
  | last _ place _ =>
    refine ⟨fun u hu => ?_, List.pairwise_singleton _ _⟩
    rw [List.mem_singleton.1 hu]
    exact place.length_le_offset
  | @cons front gap range rest t ts _ place kind ne _ ih =>
    obtain ⟨below, order⟩ := ih
    have start : (Text.encode front).length ≤ t.offset := place.length_le_offset
    have length := place.offset_lt ne
    have later : ∀ u ∈ ts, t.stop ≤ u.offset := fun u hu => place.stop.trans_le (below u hu)
    refine ⟨fun u hu => ?_, List.pairwise_cons.2 ⟨fun u hu => ?_, order⟩⟩
    · rcases List.mem_cons.1 hu with rfl | hu
      · exact start
      · exact start.trans (length.le.trans (later u hu))
    · exact ⟨length.trans_le (later u hu), later u hu⟩

/-- Between the end of a token and the start of the next one there is only a gap. -/
lemma gaps (h : Laid clean front cs ts) (isClean : clean) :
    ∀ x ∈ List.zip ((Text.encode front).length :: ts.map (·.stop)) ts,
      Gap (Text.slice (front ++ cs) x.1 x.2.offset) (Text.dropBytes x.2.offset (front ++ cs)) := by
  induction h with
  | @last front gap t skipped place _ =>
    intro x hx
    obtain rfl := List.mem_singleton.1 hx
    obtain ⟨slice, rest⟩ := Text.slice_between front gap []
    rw [List.append_nil] at slice rest
    dsimp only
    rw [place.offset, slice, rest]
    exact skipped isClean
  | @cons front gap range rest t ts skipped place _ _ _ ih =>
    intro x hx
    rcases List.mem_cons.1 hx with rfl | later
    · obtain ⟨slice, behind⟩ := Text.slice_between front gap (range ++ rest)
      dsimp only
      rw [place.offset, List.append_assoc gap, ← List.append_assoc front, slice, behind]
      exact skipped isClean
    · have whole : front ++ gap ++ range ++ rest = front ++ (gap ++ range ++ rest) := by
        simp only [List.append_assoc]
      rw [whole, ← place.stop] at ih
      exact ih x later

end Laid

/-- **Token coordinates are exact.** The tokens of a document in UTF-8 end with the only one that marks the
end, behind the last byte. Every other one has a length, and all stand one behind the other, each for a
range of characters that its offsets, its line and its column lead to and that gives its text. -/
theorem ofBytes_coordinates {src : List UInt8} {cs : List Char} (valid : Text.decode? src = some cs) :
    Text.encode cs = src ∧ ∃ ts final, (ofBytes src).tokens = ts ++ [final] ∧
      final.kind = .eof ∧ final.offset = src.length ∧ final.stop = src.length ∧
      (∀ t ∈ ts, t.kind ≠ .eof ∧ t.offset < t.stop) ∧
      (ts ++ [final]).Pairwise (fun t u => t.offset < u.offset ∧ t.stop ≤ u.offset) ∧
      ∀ t ∈ ts ++ [final], t.stop ≤ src.length ∧
        ∃ front range back, cs = front ++ range ++ back ∧ t.At front range := by
  have encoded := Text.encode_of_decode? valid
  have laid := laid_scanFrom false [] cs
  have scan : ofBytes src = scanFrom false (Position.start.advanceBy []) cs := by
    rw [ofBytes, valid]
    rfl
  rw [← scan] at laid
  obtain ⟨ts, final, split, eof, ends, inner⟩ := laid.exists_last
  rw [List.nil_append] at ends inner
  have size : final.offset = src.length := by rw [ends.offset, encoded]
  refine ⟨encoded, ts, final, split, eof, size, ?_, fun t ht => ?_, split ▸ laid.pairwise.2,
    fun t ht => ?_⟩
  · rw [ends.stop, List.append_nil, encoded]
  · obtain ⟨kind, front, range, back, -, ne, place⟩ := inner t ht
    exact ⟨kind, place.offset_lt ne⟩
  · have part : ∃ front range back, cs = front ++ range ++ back ∧ t.At front range := by
      rcases List.mem_append.1 ht with early | last
      · obtain ⟨-, front, range, back, whole, -, place⟩ := inner t early
        exact ⟨front, range, back, whole, place⟩
      · rw [List.mem_singleton.1 last]
        exact ⟨cs, [], [], by rw [List.append_nil, List.append_nil], ends⟩
    refine ⟨?_, part⟩
    obtain ⟨front, range, back, whole, place⟩ := part
    rw [place.stop, ← encoded, whole, Text.encode_append (front ++ range), List.length_append]
    exact Nat.le_add_right _ _

/-- A document with an expression on two lines, a character of two bytes and a string that is not closed. -/
theorem ofBytes_coordinates_of_openString :
    Text.decode? (Text.bytes ":a CHECK (é\n) 'b") = some ":a CHECK (é\n) 'b".toList ∧
      (ofBytes (Text.bytes ":a CHECK (é\n) 'b")).tokens =
        [⟨.entity, "a", 1, 1, 0, 2, 1⟩, ⟨.keyword .check, "CHECK", 1, 4, 3, 8, 1⟩,
          ⟨.expr, "é", 1, 10, 9, 14, 2⟩, ⟨.eof, "", 2, 5, 17, 17, 2⟩] ∧
      ∀ t ∈ (ofBytes (Text.bytes ":a CHECK (é\n) 'b")).tokens,
        ∃ front range back, ":a CHECK (é\n) 'b".toList = front ++ range ++ back ∧ t.At front range := by
  have valid := Text.decode?_bytes ":a CHECK (é\n) 'b"
  have tokens : (ofBytes (Text.bytes ":a CHECK (é\n) 'b")).tokens =
      [⟨.entity, "a", 1, 1, 0, 2, 1⟩, ⟨.keyword .check, "CHECK", 1, 4, 3, 8, 1⟩,
        ⟨.expr, "é", 1, 10, 9, 14, 2⟩, ⟨.eof, "", 2, 5, 17, 17, 2⟩] := by
    rw [ofBytes_bytes]
    decide +kernel
  obtain ⟨-, ts, final, split, -, -, -, -, -, places⟩ := ofBytes_coordinates valid
  refine ⟨valid, tokens, fun t ht => ?_⟩
  rw [split] at ht
  exact (places t ht).2

/-- **Nothing is skipped silently.** If a document in UTF-8 has no faults, then what stands in front of the
first token, between one token and the next and in front of the end is white space and comments. -/
theorem ofBytes_gaps {src : List UInt8} {cs : List Char} (valid : Text.decode? src = some cs)
    (faultless : (ofBytes src).errors = []) :
    ∀ x ∈ List.zip (0 :: (ofBytes src).tokens.map (·.stop)) (ofBytes src).tokens,
      Gap (Text.slice cs x.1 x.2.offset) (Text.dropBytes x.2.offset cs) := by
  have scan : ofBytes src = scanFrom false (Position.start.advanceBy []) cs := by
    rw [ofBytes, valid]
    rfl
  rw [scan] at faultless ⊢
  exact (laid_scanFrom false [] cs).gaps faultless

/-- A document with a comment of each kind. -/
theorem ofBytes_gaps_of_comments :
    Text.decode? (Text.bytes "# a\n:X ;; b\n\t;") = some "# a\n:X ;; b\n\t;".toList ∧
      (ofBytes (Text.bytes "# a\n:X ;; b\n\t;")).errors = [] ∧
      Gap "# a\n".toList ":X ;; b\n\t;".toList ∧ Gap " ;; b\n\t".toList ";".toList := by
  have valid := Text.decode?_bytes "# a\n:X ;; b\n\t;"
  have scan : ofBytes (Text.bytes "# a\n:X ;; b\n\t;") =
      ⟨[⟨.entity, "X", 2, 1, 4, 6, 2⟩, ⟨.symbol, ";", 3, 2, 13, 14, 3⟩, ⟨.eof, "", 3, 3, 14, 14, 3⟩], []⟩ := by
    rw [ofBytes_bytes]
    decide +kernel
  have faultless : (ofBytes (Text.bytes "# a\n:X ;; b\n\t;")).errors = [] := by rw [scan]
  have gaps := ofBytes_gaps valid faultless
  rw [scan] at gaps
  exact ⟨valid, faultless, gaps _ List.mem_cons_self, gaps _ (List.mem_cons_of_mem _ List.mem_cons_self)⟩

end Scan

end ErdSql
