import ErdSql.FileSet
import ErdSql.Proofs.Encoding

/-!
# Patterns and the names they match

A segment without a character of meaning matches itself and nothing else. The names of a place match the
segments of a pattern one by one, except that `**` takes any number of them.

* `FileSet.matches?_of_plain`: what a plain segment matches.
* `FileSet.Matches`: which names match the segments of a pattern.
* `FileSet.matchSegments_iff`: the test agrees with the relation.
* `FileSet.matchSegments_iff_pieces`: the test looks for a cut of the names into one piece for each
  segment.
* `FileSet.Matches.plain_prefix`: names start with the plain segments that the pattern starts with.
-/

namespace ErdSql

namespace Glob

/-! ### Plain patterns -/

/-- The pattern that some bytes are when all of them stand for themselves. -/
def plain (bs : List UInt8) : Glob :=
  bs.foldr (fun b g => consAtom (.byte b) g) []

lemma plain_encode_cons (c : Char) (cs : List Char) :
    plain (Text.encode (c :: cs)) = consChar c (plain (Text.encode cs)) := by
  rw [Text.encode_cons, plain, List.foldr_append]
  rfl

lemma plain_cons (b : UInt8) (bs : List UInt8) :
    plain (b :: bs) = [⟨false, (b :: bs).map .byte⟩] := by
  induction bs generalizing b with
  | nil => rfl
  | cons c bs ih =>
    show consAtom (.byte b) (plain (c :: bs)) = _
    rw [ih]
    rfl

/-- Characters without a meaning stand for their bytes. -/
lemma parse?_of_plain {cs : List Char} (h : ∀ c ∈ cs, c ≠ '*' ∧ c ≠ '?' ∧ c ≠ '[' ∧ c ≠ '\\') :
    parse? cs = some (plain (Text.encode cs)) := by
  induction cs with
  | nil =>
    rw [parse?]
    rfl
  | cons c cs ih =>
    obtain ⟨star, mark, bracket, escape⟩ := h c List.mem_cons_self
    rw [parse?]
    · rw [ih fun d hd => h d (List.mem_cons_of_mem c hd), Option.map_some, plain_encode_cons]
    · exact star
    · exact mark
    · exact fun same _ => escape same
    · exact fun _ _ same _ => escape same
    · exact bracket

/-- Atoms that are bytes take these bytes. -/
lemma advance?_bytes {bs name rest : List UInt8} :
    advance? (bs.map .byte) name = some rest ↔ name = bs ++ rest := by
  induction bs generalizing name with
  | nil =>
    show some name = some rest ↔ _
    simp
  | cons b bs ih =>
    cases name with
    | nil => simp [advance?, Atom.advance?]
    | cons c name =>
      by_cases same : c = b
      · have step : advance? ((b :: bs).map .byte) (c :: name) = advance? (bs.map .byte) name := by
          simp [advance?, Atom.advance?, same]
        rw [step, ih, same]
        simp
      · simp [advance?, Atom.advance?, same]

lemma isMatch_singleton {atoms : List Atom} {name : List UInt8} :
    isMatch [⟨false, atoms⟩] name = true ↔ advance? atoms name = some [] := by
  rw [isMatch]
  cases taken : advance? atoms name with
  | none => simp [taken]
  | some rest => cases rest <;> simp [taken, isMatch]

lemma isMatch_plain {bs name : List UInt8} : isMatch (plain bs) name = true ↔ name = bs := by
  cases bs with
  | nil =>
    show name.isEmpty = true ↔ _
    exact List.isEmpty_iff
  | cons b bs =>
    rw [plain_cons, isMatch_singleton, advance?_bytes, List.append_nil]

end Glob

namespace FileSet

/-- A segment without a character of meaning matches itself. -/
lemma matches?_of_plain {segment : String} (plain : hasMeta segment = false) (name : String) :
    Glob.matches? segment name = some true ↔ name = segment := by
  have chars : ∀ c ∈ segment.toList, c ≠ '*' ∧ c ≠ '?' ∧ c ≠ '[' ∧ c ≠ '\\' := by
    intro c hc
    have := List.any_eq_false.1 plain c hc
    simpa [and_assoc] using this
  rw [Glob.matches?, Glob.parse?_of_plain chars, Option.map_some, Option.some_inj, Glob.isMatch_plain]
  exact Text.bytes_inj

/-! ### Segments -/

/-- Names match the segments of a pattern: `**` stands for any names in a row, every other segment for
one name. -/
inductive Matches : List String → List String → Prop where
  | nil :
    Matches [] []
  | stars {segments names : List String} (front : List String) :
    Matches segments names →
    Matches ("**" :: segments) (front ++ names)
  | name {segment name : String} {segments names : List String} :
    segment ≠ "**" →
    Glob.matches? segment name = some true →
    Matches segments names →
    Matches (segment :: segments) (name :: names)

/-- The test of segments is exact. -/
lemma matchSegments_iff {segments names : List String} :
    matchSegments segments names = true ↔ Matches segments names := by
  induction segments generalizing names with
  | nil =>
    rw [matchSegments, List.isEmpty_iff]
    constructor
    · rintro rfl
      exact .nil
    · intro h
      cases h
      rfl
  | cons segment segments ih =>
    by_cases double : segment = "**"
    · rw [matchSegments.eq_def]
      dsimp only
      rw [if_pos (beq_iff_eq.2 double), List.any_eq_true, double]
      constructor
      · rintro ⟨i, -, rest⟩
        have whole := Matches.stars (names.take i) (ih.1 rest)
        rwa [List.take_append_drop] at whole
      · intro h
        cases h with
        | @stars _ names front rest =>
          refine ⟨front.length, by simp, ih.2 ?_⟩
          rwa [List.drop_left]
        | name ne => exact absurd rfl ne
    · rw [matchSegments.eq_def]
      dsimp only
      rw [if_neg (by simpa using double)]
      constructor
      · intro h
        cases names with
        | nil => cases h
        | cons name names =>
          rw [Bool.and_eq_true] at h
          refine .name double ?_ (ih.1 h.2)
          cases one : Glob.matches? segment name with
          | none => simp [one] at h
          | some matched => simpa [one] using h.1
      · intro h
        cases h with
        | stars => exact absurd rfl double
        | name _ one rest => simp [one, ih.2 rest]

instance (segments names : List String) : Decidable (Matches segments names) :=
  decidable_of_iff _ matchSegments_iff

/-- Names match the segments of a pattern exactly if they can be cut into pieces, one for each segment:
any piece for `**`, and for every other segment one name that it matches. -/
theorem matchSegments_iff_pieces {segments names : List String} :
    matchSegments segments names = true ↔ ∃ pieces : List (List String), pieces.flatten = names ∧
      List.Forall₂ (fun segment piece => segment ≠ "**" →
        ∃ name, piece = [name] ∧ Glob.matches? segment name = some true) segments pieces := by
  rw [matchSegments_iff]
  constructor
  · intro h
    induction h with
    | nil => exact ⟨[], rfl, .nil⟩
    | stars front _ ih =>
      obtain ⟨pieces, rfl, fit⟩ := ih
      exact ⟨front :: pieces, List.flatten_cons, .cons (fun ne => absurd rfl ne) fit⟩
    | @name _ name _ _ _ one _ ih =>
      obtain ⟨pieces, rfl, fit⟩ := ih
      exact ⟨[name] :: pieces, List.flatten_cons, .cons (fun _ => ⟨name, rfl, one⟩) fit⟩
  · rintro ⟨pieces, rfl, fit⟩
    induction fit with
    | nil => exact .nil
    | @cons segment piece _ _ first _ ih =>
      rw [List.flatten_cons]
      by_cases double : segment = "**"
      · subst double
        exact .stars piece ih
      · obtain ⟨name, rfl, one⟩ := first double
        exact .name double one ih

/-- Names start with the plain segments that the pattern starts with. -/
lemma Matches.plain_prefix {fixed segments names : List String}
    (plain : ∀ s ∈ fixed, hasMeta s = false) (h : Matches (fixed ++ segments) names) :
    fixed <+: names := by
  induction fixed generalizing names with
  | nil => exact List.nil_prefix
  | cons segment fixed ih =>
    have first := plain segment List.mem_cons_self
    cases h with
    | stars => exact absurd first (by decide)
    | name _ one rest =>
      rw [(matches?_of_plain first _).1 one]
      exact List.cons_prefix_cons.2 ⟨rfl, ih (fun s hs => plain s (List.mem_cons_of_mem _ hs)) rest⟩

end FileSet

end ErdSql
