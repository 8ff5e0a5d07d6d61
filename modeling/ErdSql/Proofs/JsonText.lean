import ErdSql.Json.Reader
import Mathlib.Data.Nat.Digits.Defs

/-!
# Reading what was written as JSON

A value that is written on one line is read as it was, as long as its numbers are whole. Each kind of value
has a lemma of its own, and the values inside an array or object come with theirs.

* `Json.Reader.string_text`: strings.
* `Json.Readable`: a value that is read as it was, with anything that may follow a value behind it.
* `Json.readable_arr`, `Json.readable_obj`: arrays and objects.
* `Json.read?_compact`: a readable value alone in a text.
-/

namespace ErdSql.Json

namespace Reader

/-! ### Strings -/

lemma unit?_hexDigits {n : Nat} (h : n < 0x10000) (rest : List Char) :
    unit? (Text.hexDigits 4 n ++ rest) = some n := by
  have digit : ∀ d < 16, Text.hexValue? (Nat.digitChar d) = some d := by decide
  have value (i : Nat) : Text.hexValue? (Nat.digitChar (n / Nat.pow 16 i % 16)) =
      some (n / Nat.pow 16 i % 16) := digit _ (Nat.mod_lt _ (by decide))
  have digits : Text.hexDigits 4 n = [3, 2, 1, 0].map fun i => Nat.digitChar (n / Nat.pow 16 i % 16) := rfl
  rw [unit?, digits, if_neg (by simp), List.take_left' (by rfl)]
  simp only [List.map_cons, List.map_nil, List.foldlM_cons, List.foldlM_nil, value, Option.map_some,
    Option.bind_eq_bind, Option.bind_some, Option.pure_def, Option.some.injEq]
  rw [show Nat.pow 16 3 = 4096 from rfl, show Nat.pow 16 2 = 256 from rfl,
    show Nat.pow 16 1 = 16 from rfl, show Nat.pow 16 0 = 1 from rfl]
  omega

/-- A character is read from its escape. -/
lemma stringBody_escapeChar (fuel : Nat) (c : Char) (rest : List Char) :
    stringBody (fuel + 1) (escapeChar c ++ rest) =
      (stringBody fuel rest).map fun (t, r) => (c :: t, r) := by
  unfold escapeChar
  split
  case h_8 quote backslash _ _ _ _ _ =>
    split
    · next special =>
      have small : c.toNat < 0x3000 := by
        simp only [Bool.or_eq_true, decide_eq_true_eq, beq_iff_eq] at special
        rcases special with ((((h | rfl) | rfl) | rfl) | rfl) | rfl
        · omega
        all_goals decide
      have unit := unit?_hexDigits (n := c.toNat) (by omega) rest
      have high : isHigh c.toNat = false := by
        rw [isHigh, Bool.and_eq_false_iff, decide_eq_false_iff_not]
        exact .inl (by omega)
      have low : isLow c.toNat = false := by
        rw [isLow, Bool.and_eq_false_iff, decide_eq_false_iff_not]
        exact .inl (by omega)
      have after : (Text.hexDigits 4 c.toNat ++ rest).drop 4 = rest := rfl
      simp only [List.cons_append, stringBody, unit, high, low, after, Bool.false_eq_true, if_false,
        Char.ofNat_toNat]
    · next plain =>
      have plain : (decide (c.toNat < 0x20) || c == '\\') = false := by
        simp only [Bool.or_eq_true, decide_eq_true_eq, beq_iff_eq, not_or] at plain
        simpa using ⟨Nat.le_of_not_lt plain.1.1.1.1.1, backslash⟩
      rw [List.singleton_append, stringBody]
      · simp only [plain, Bool.false_eq_true, if_false]
      all_goals simp_all
  all_goals rfl

/-- A text is read from its escapes. -/
lemma stringBody_text {s : List Char} {fuel : Nat} (h : s.length < fuel) (rest : List Char) :
    stringBody fuel (s.flatMap escapeChar ++ '"' :: rest) = some (s, rest) := by
  induction s generalizing fuel with
  | nil =>
    obtain ⟨fuel, rfl⟩ := Nat.exists_eq_succ_of_ne_zero (Nat.ne_zero_of_lt h)
    rfl
  | cons c s ih =>
    obtain ⟨fuel, rfl⟩ := Nat.exists_eq_succ_of_ne_zero (Nat.ne_zero_of_lt h)
    rw [List.flatMap_cons, List.append_assoc, stringBody_escapeChar,
      ih (Nat.lt_of_succ_lt_succ h)]
    rfl

lemma length_pos_escapeChar (c : Char) : 0 < (escapeChar c).length := by
  unfold escapeChar
  split
  case h_8 => split <;> simp
  all_goals simp

lemma string_text (s : String) (rest : List Char) :
    string.run (s.toList.flatMap escapeChar ++ '"' :: rest) = some (s, rest) := by
  have long (cs : List Char) : cs.length ≤ (cs.flatMap escapeChar).length := by
    induction cs with
    | nil => exact Nat.le_refl 0
    | cons c cs ih =>
      have := length_pos_escapeChar c
      rw [List.flatMap_cons, List.length_append, List.length_cons]
      omega
  have enough : s.toList.length < (s.toList.flatMap escapeChar ++ '"' :: rest).length + 1 := by
    have := long s.toList
    rw [List.length_append]
    omega
  have body := stringBody_text enough rest
  simp only [string, StateT.run_bind, StateT.run_get, Option.pure_def, Option.bind_eq_bind, Option.bind_some,
    body]
  simp

/-! ### Numbers -/

/-- What may follow a value. -/
def Follows (rest : List Char) : Prop :=
  ∀ c ∈ rest.head?, c = ',' ∨ c = ']' ∨ c = '\x7d'

lemma Follows.apart {rest : List Char} (h : Follows rest) {p : Char → Bool}
    (hp : (p ',' || p ']' || p '\x7d') = false) : ∀ c ∈ rest.head?, p c = false := by
  simp only [Bool.or_eq_false_iff] at hp
  intro c hc
  rcases h c hc with rfl | rfl | rfl
  · exact hp.1.1
  · exact hp.1.2
  · exact hp.2

lemma many_append {p : Char → Bool} {ds rest : List Char} (hd : ∀ c ∈ ds, p c = true)
    (hr : ∀ c ∈ rest.head?, p c = false) : (many p).run (ds ++ rest) = some (ds, rest) := by
  have taken : (ds ++ rest).takeWhile p = ds ∧ (ds ++ rest).dropWhile p = rest := by
    rw [List.takeWhile_append_of_pos hd, List.dropWhile_append_of_pos hd]
    cases rest with
    | nil => simp
    | cons c rest => simp [hr c rfl]
  simp [many, taken]

lemma optional_of_not_mem (choices : List Char) {rest : List Char}
    (h : ∀ c ∈ rest.head?, choices.contains c = false) :
    (optional choices).run rest = some ([], rest) := by
  cases rest with
  | nil => rfl
  | cons c rest =>
    have other := h c rfl
    simp [optional, -List.contains_eq_mem, other]

/-- The digits of a number do not start with zero, but for the number zero. -/
lemma head?_toDigits {n : Nat} (h : 0 < n) : (Nat.toDigits 10 n).head? ≠ some '0' := by
  induction n using Nat.strong_induction_on with
  | _ n ih =>
    rw [Nat.toDigits_eq_if (by decide)]
    split
    · simpa [Nat.digitChar_eq_zero] using h.ne'
    · have shorter := ih (n / 10) (by omega) (by omega)
      obtain ⟨d, ds, digits⟩ := List.exists_cons_of_ne_nil (Nat.toDigits_ne_nil (n := n / 10) (b := 10))
      rw [digits] at shorter ⊢
      exact shorter

/-- A whole number is read from its digits. -/
lemma number_int (n : Int) {rest : List Char} (h : Follows rest) :
    number.run ((toString n).toList ++ rest) = some (.int n, rest) := by
  have digits (m : Nat) : digits.run (Nat.toDigits 10 m ++ rest) = some (Nat.toDigits 10 m, rest) := by
    have all : ∀ c ∈ Nat.toDigits 10 m, c.isDigit = true := fun c hc =>
      Nat.isDigit_of_mem_toDigits (by decide) (by decide) hc
    simp [Reader.digits, many_append all (h.apart (by decide)), Nat.toDigits_ne_nil]
  have zeros (m : Nat) : ¬ ((Nat.toDigits 10 m).head? = some '0' ∧ 1 < (Nat.toDigits 10 m).length) := by
    rcases m.eq_zero_or_pos with rfl | pos
    · decide
    · simp [head?_toDigits pos]
  have value (m : Nat) : decimalValue (Nat.toDigits 10 m) = m :=
    (Nat.ofDigitChars_eq_foldl (b := 10) (l := Nat.toDigits 10 m)).symm.trans Nat.ofDigitChars_ten_toDigits
  have point := optional_of_not_mem ['.'] (h.apart (by decide))
  have mark := optional_of_not_mem ['e', 'E'] (h.apart (by decide))
  -- the digits behind the sign, if there is one
  have unsigned (m : Nat) {sign cs : List Char} (hs : (optional ['-']).run cs =
      some (sign, Nat.toDigits 10 m ++ rest)) :
      number.run cs = some (.int (if sign.isEmpty then (m : Int) else -(m : Int)), rest) := by
    simp [number, hs, digits, zeros, value, point, mark]
  rw [Int.toString_eq_repr, Int.repr_eq_if]
  split
  · next pos =>
    rw [Nat.toList_repr]
    have sign : (optional ['-']).run (Nat.toDigits 10 n.toNat ++ rest) =
        some ([], Nat.toDigits 10 n.toNat ++ rest) := by
      refine optional_of_not_mem _ fun c hc => ?_
      obtain ⟨d, ds, whole⟩ := List.exists_cons_of_ne_nil (Nat.toDigits_ne_nil (n := n.toNat) (b := 10))
      have digit : d.isDigit = true :=
        Nat.isDigit_of_mem_toDigits (b := 10) (n := n.toNat) (by decide) (by decide) (by simp [whole])
      rw [whole] at hc
      cases hc
      rw [List.contains_eq_mem, decide_eq_false_iff_not, List.mem_singleton]
      rintro rfl
      cases digit
    rw [unsigned _ sign]
    simp [pos]
  · next neg =>
    have sign : (optional ['-']).run (("-" ++ (-n).toNat.repr).toList ++ rest) =
        some (['-'], Nat.toDigits 10 (-n).toNat ++ rest) := by
      rw [String.toList_append, Nat.toList_repr]
      rfl
    rw [unsigned _ sign]
    simp only [List.isEmpty_cons, Bool.false_eq_true, if_false, Option.some.injEq, Prod.mk.injEq, and_true,
      Json.int.injEq]
    omega

/-! ### Values -/

lemma skipGap_cons {c : Char} (h : isGap c = false) (cs : List Char) :
    skipGap.run (c :: cs) = some ((), c :: cs) := by
  simp [skipGap, h]

lemma skipGap_of_follows {rest : List Char} (h : Follows rest) : skipGap.run rest = some ((), rest) := by
  cases rest with
  | nil => rfl
  | cons c cs => exact skipGap_cons (h.apart (by decide) c rfl) cs

end Reader

open Reader

/-- A value that is read as it was, with anything that may follow a value behind it. -/
structure Readable (j : Json) : Prop where
  start : ∃ c cs, j.compact.toList = c :: cs ∧ isGap c = false ∧ c ≠ ']'
  read : ∀ {fuel : Nat} {rest : List Char}, 2 * j.compact.toList.length ≤ fuel + 1 → Follows rest →
    (value (fuel + 1)).run (j.compact.toList ++ rest) = some (j, rest)

lemma toList_quote (s : String) : (quote s).toList = '"' :: (s.toList.flatMap escapeChar ++ ['"']) := by
  simp [quote]

lemma readable_str (s : String) : Readable (.str s) := by
  have text : (Json.str s).compact.toList = '"' :: (s.toList.flatMap escapeChar ++ ['"']) := by
    rw [compact, toList_quote]
  refine ⟨⟨_, _, text, rfl, by decide⟩, ?_⟩
  intro fuel rest _ _
  have body := string_text s rest
  simp [text, value, skipGap_cons, isGap, body]

lemma readable_bool (b : Bool) : Readable (.bool b) := by
  cases b with
  | true => exact ⟨⟨'t', ['r', 'u', 'e'], rfl, rfl, by decide⟩, fun _ _ => rfl⟩
  | false => exact ⟨⟨'f', ['a', 'l', 's', 'e'], rfl, rfl, by decide⟩, fun _ _ => rfl⟩

lemma readable_int (n : Int) : Readable (.int n) := by
  obtain ⟨c, cs, text, start⟩ : ∃ c cs, (toString n).toList = c :: cs ∧ (c.isDigit = true ∨ c = '-') := by
    rw [Int.toString_eq_repr, Int.repr_eq_if]
    split
    · obtain ⟨d, ds, whole⟩ := List.exists_cons_of_ne_nil (Nat.toDigits_ne_nil (n := n.toNat) (b := 10))
      have digit : d.isDigit = true :=
        Nat.isDigit_of_mem_toDigits (b := 10) (n := n.toNat) (by decide) (by decide) (by simp [whole])
      exact ⟨d, ds, Nat.toList_repr.trans whole, .inl digit⟩
    · exact ⟨'-', _, String.toList_append, .inr rfl⟩
  have other {d : Char} (h : (d.isDigit || d == '-') = false) : c ≠ d := by
    rintro rfl
    rcases start with digit | rfl
    · simp [digit] at h
    · simp at h
  have gap : isGap c = false := by simp [isGap, other]
  refine ⟨⟨c, cs, text, gap, other (by decide)⟩, ?_⟩
  intro fuel rest _ follows
  have whole : (value (fuel + 1)).run (c :: (cs ++ rest)) = Reader.number.run (c :: (cs ++ rest)) := by
    rw [value]
    simp only [StateT.run_bind, skipGap_cons gap, Option.bind_eq_bind, Option.bind_some, StateT.run_get,
      Option.pure_def]
    split
    all_goals simp_all
  rw [compact, text, List.cons_append, whole, ← List.cons_append, ← text, number_int n follows]

/-! ### Arrays and objects -/

section Composites

variable {fuel : Nat} {rest : List Char}

lemma follows_comma (rest : List Char) : Follows (',' :: rest) := by simp [Follows]

lemma follows_bracket (rest : List Char) : Follows (']' :: rest) := by simp [Follows]

lemma follows_brace (rest : List Char) : Follows ('\x7d' :: rest) := by simp [Follows]

lemma items_cons {j : Json} (h : Readable j) (enough : 2 * j.compact.toList.length ≤ fuel + 1) :
    (items (fuel + 2)).run (j.compact.toList ++ ',' :: rest) =
      ((items (fuel + 1)).run rest).map fun (js, left) => (j :: js, left) := by
  have first := h.read enough (follows_comma rest)
  have gap := skipGap_of_follows (follows_comma rest)
  rw [items]
  simp [first, gap, Option.map_eq_bind]

lemma items_singleton {j : Json} (h : Readable j) (enough : 2 * j.compact.toList.length ≤ fuel + 1) :
    (items (fuel + 2)).run (j.compact.toList ++ ']' :: rest) = some ([j], rest) := by
  have first := h.read enough (follows_bracket rest)
  have gap := skipGap_of_follows (follows_bracket rest)
  simp [items, first, gap]

lemma items_compact (rest : List Char) {j : Json} {js : List Json} (h : ∀ i ∈ j :: js, Readable i)
    (enough : 2 * (Text.join "," (compactItems (j :: js))).toList.length ≤ fuel + 1) :
    (items (fuel + 2)).run ((Text.join "," (compactItems (j :: js))).toList ++ ']' :: rest) =
      some (j :: js, rest) := by
  induction js generalizing fuel j with
  | nil => exact items_singleton (h j (by simp)) enough
  | cons i js ih =>
    have text : (Text.join "," (compactItems (j :: i :: js))).toList =
        j.compact.toList ++ ',' :: (Text.join "," (compactItems (i :: js))).toList := by
      simp [compactItems, Text.join]
    rw [text, List.length_append, List.length_cons] at enough
    obtain ⟨fuel, rfl⟩ : ∃ n, fuel = n + 1 := ⟨fuel - 1, by omega⟩
    have less : 2 * (Text.join "," (compactItems (i :: js))).toList.length ≤ fuel + 1 := by omega
    have others := ih (fun k hk => h k (List.mem_cons_of_mem j hk)) less
    rw [text, List.append_assoc, List.cons_append, items_cons (h j (by simp)) (by omega), others]
    rfl

lemma readable_arr {js : List Json} (h : ∀ j ∈ js, Readable j) : Readable (.arr js) := by
  have text : (Json.arr js).compact.toList =
      '[' :: ((Text.join "," (compactItems js)).toList ++ [']']) := by
    simp [compact]
  refine ⟨⟨_, _, text, rfl, by decide⟩, ?_⟩
  intro fuel rest enough _
  rw [text] at enough ⊢
  have opened (cs : List Char) := skipGap_cons (c := '[') rfl cs
  cases js with
  | nil =>
    have closed := skipGap_of_follows (follows_bracket rest)
    simp [value, opened, compactItems, Text.join, closed]
  | cons j js =>
    obtain ⟨c, cs, start, gap, ne⟩ := (h j (by simp)).start
    obtain ⟨ds, first⟩ : ∃ ds, (Text.join "," (compactItems (j :: js))).toList = c :: ds := by
      cases js <;> simp [compactItems, Text.join, start]
    rw [List.length_cons, List.length_append, List.length_singleton, first, List.length_cons] at enough
    obtain ⟨fuel, rfl⟩ : ∃ n, fuel = n + 2 := ⟨fuel - 2, by omega⟩
    have less : 2 * (Text.join "," (compactItems (j :: js))).toList.length ≤ fuel + 1 := by
      rw [first, List.length_cons]
      omega
    have all := items_compact rest h less
    rw [first] at all ⊢
    rw [value]
    simp only [List.cons_append, List.append_assoc, List.nil_append, StateT.run_bind, opened,
      Option.bind_eq_bind, Option.bind_some, StateT.run_get, Option.pure_def, StateT.run_set,
      skipGap_cons gap]
    simp_all

lemma word_singleton (c : Char) (cs : List Char) :
    (word (String.singleton c)).run (c :: cs) = some ((), cs) := by
  simp [word]

/-- What stands before the value of a member. -/
lemma members_key (fuel : Nat) (key : String) (cs : List Char) :
    (members (fuel + 1)).run ((quote key).toList ++ ':' :: cs) = (do
      let item ← value fuel
      skipGap
      match ← get with
      | ',' :: rest => do set rest; return (key, item) :: (← members fuel)
      | '\x7d' :: rest => do set rest; return [(key, item)]
      | _ => failure : Reader (List (String × Json))).run cs := by
  have gap := skipGap_cons (c := '"') rfl (key.toList.flatMap escapeChar ++ '"' :: ':' :: cs)
  have opening := word_singleton '"' (key.toList.flatMap escapeChar ++ '"' :: ':' :: cs)
  have text := string_text key (':' :: cs)
  have gap' := skipGap_cons (c := ':') rfl cs
  have colon := word_singleton ':' cs
  rw [toList_quote, List.cons_append, List.append_assoc, List.singleton_append, members]
  simp only [StateT.run_bind, gap, Option.bind_eq_bind, Option.bind_some]
  rw [show (word "\"").run _ = _ from opening]
  simp only [Option.bind_some, text, gap']
  rw [show (word ":").run _ = _ from colon]
  rfl

lemma members_cons {key : String} {j : Json} (h : Readable j)
    (enough : 2 * j.compact.toList.length ≤ fuel + 1) :
    (members (fuel + 2)).run ((quote key ++ ":" ++ j.compact).toList ++ ',' :: rest) =
      ((members (fuel + 1)).run rest).map fun (ms, left) => ((key, j) :: ms, left) := by
  have first := h.read enough (follows_comma rest)
  have gap := skipGap_of_follows (follows_comma rest)
  have opened := members_key (fuel + 1) key (j.compact.toList ++ ',' :: rest)
  simp [first, gap, Option.map_eq_bind, opened]

lemma members_singleton {key : String} {j : Json} (h : Readable j)
    (enough : 2 * j.compact.toList.length ≤ fuel + 1) :
    (members (fuel + 2)).run ((quote key ++ ":" ++ j.compact).toList ++ '\x7d' :: rest) =
      some ([(key, j)], rest) := by
  have first := h.read enough (follows_brace rest)
  have gap := skipGap_of_follows (follows_brace rest)
  have opened := members_key (fuel + 1) key (j.compact.toList ++ '\x7d' :: rest)
  simp [first, gap, opened]

lemma length_member (key : String) (j : Json) :
    j.compact.toList.length < (quote key ++ ":" ++ j.compact).toList.length := by
  rw [String.toList_append, String.toList_append, toList_quote, List.length_append, List.length_append,
    List.length_cons]
  omega

lemma members_compact (rest : List Char) {m : String × Json} {ms : List (String × Json)}
    (h : ∀ n ∈ m :: ms, Readable n.2)
    (enough : 2 * (Text.join "," (compactMembers (m :: ms))).toList.length ≤ fuel + 1) :
    (members (fuel + 2)).run ((Text.join "," (compactMembers (m :: ms))).toList ++ '\x7d' :: rest) =
      some (m :: ms, rest) := by
  induction ms generalizing fuel m with
  | nil =>
    obtain ⟨key, j⟩ := m
    have first : Readable j := h (key, j) (by simp)
    have text : Text.join "," (compactMembers [(key, j)]) = quote key ++ ":" ++ j.compact := by
      simp [compactMembers, Text.join]
    have size := length_member key j
    rw [text] at enough ⊢
    exact members_singleton first (by omega)
  | cons m' ms ih =>
    obtain ⟨key, j⟩ := m
    obtain ⟨key', j'⟩ := m'
    have first : Readable j := h (key, j) (by simp)
    have text : (Text.join "," (compactMembers ((key, j) :: (key', j') :: ms))).toList =
        (quote key ++ ":" ++ j.compact).toList ++
          ',' :: (Text.join "," (compactMembers ((key', j') :: ms))).toList := by
      simp [compactMembers, Text.join]
    have size := length_member key j
    rw [text, List.length_append, List.length_cons] at enough
    obtain ⟨fuel, rfl⟩ : ∃ n, fuel = n + 1 := ⟨fuel - 1, by omega⟩
    have less : 2 * (Text.join "," (compactMembers ((key', j') :: ms))).toList.length ≤ fuel + 1 := by
      omega
    have others := ih (fun n hn => h n (List.mem_cons_of_mem _ hn)) less
    rw [text, List.append_assoc, List.cons_append, members_cons first (by omega), others]
    rfl

lemma readable_obj {ms : List (String × Json)} (h : ∀ m ∈ ms, Readable m.2) : Readable (.obj ms) := by
  have text : (Json.obj ms).compact.toList =
      '\x7b' :: ((Text.join "," (compactMembers ms)).toList ++ ['\x7d']) := by
    simp [compact]
  refine ⟨⟨_, _, text, rfl, by decide⟩, ?_⟩
  intro fuel rest enough _
  rw [text] at enough ⊢
  have opened (cs : List Char) := skipGap_cons (c := '\x7b') rfl cs
  cases ms with
  | nil =>
    have closed := skipGap_of_follows (follows_brace rest)
    simp [value, opened, compactMembers, Text.join, closed]
  | cons m ms =>
    obtain ⟨ds, first⟩ : ∃ ds, (Text.join "," (compactMembers (m :: ms))).toList = '"' :: ds := by
      obtain ⟨key, j⟩ := m
      cases ms with
      | nil => simp [compactMembers, Text.join, toList_quote]
      | cons m ms =>
        obtain ⟨key', j'⟩ := m
        simp [compactMembers, Text.join, toList_quote]
    rw [List.length_cons, List.length_append, List.length_singleton] at enough
    have some : 1 ≤ (Text.join "," (compactMembers (m :: ms))).toList.length := by simp [first]
    obtain ⟨fuel, rfl⟩ : ∃ n, fuel = n + 2 := ⟨fuel - 2, by omega⟩
    have less : 2 * (Text.join "," (compactMembers (m :: ms))).toList.length ≤ fuel + 1 := by omega
    have all := members_compact rest h less
    have gap := skipGap_cons (c := '"') rfl (ds ++ '\x7d' :: rest)
    rw [first] at all ⊢
    rw [value]
    simp only [List.cons_append, List.append_assoc, List.nil_append, StateT.run_bind, opened,
      Option.bind_eq_bind, Option.bind_some, StateT.run_get, Option.pure_def, StateT.run_set, gap]
    simp_all

end Composites

/-- A readable value alone in a text is read as it was. -/
lemma read?_compact {j : Json} (h : Readable j) : read? j.compact.toList = some j := by
  have enough : 2 * j.compact.toList.length ≤ 2 * j.compact.toList.length + 1 + 1 := by omega
  have value : (value (2 * j.compact.toList.length + 2)).run (j.compact.toList ++ []) = some (j, []) :=
    h.read enough (by simp [Follows])
  rw [List.append_nil] at value
  have gap : skipGap.run [] = some ((), []) := rfl
  simp only [read?, document, StateT.run_bind, StateT.run_get, Option.pure_def, Option.bind_eq_bind,
    Option.bind_some, value, gap]
  rfl

end ErdSql.Json
