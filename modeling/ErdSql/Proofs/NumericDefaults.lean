import ErdSql.Proofs.KeyTargets
import Mathlib

/-!
# Defaults of numeric fields

The checks compare digit counts of a number as it is written. They agree with its value: a default is
reported on an integer type if it is no whole number, and on a decimal type with precision and scale if
the places of the type cannot hold it.

* `Numeral`: a number as written, and the rational number that it stands for.
* `Decimal.isInteger_iff`, `Decimal.wholeDigits_le_iff`, `Decimal.fractionDigits_le_iff`: what each digit
  count says of the value.
* `Check.numericProblem?_integer`, `Check.numericProblem?_decimal`: the law of each kind of type.
-/

namespace ErdSql

/-- The rational number that a coefficient with a scale stands for. -/
def Decimal.value (d : Decimal) : ℚ :=
  d.coefficient / 10 ^ d.scale

/-! ### Numerals -/

/-- A number as it is written: an optional minus, digits, and a fraction, which may be left out. -/
structure Numeral where
  negative : Bool
  whole : List (Fin 10)
  fraction : List (Fin 10)
  whole_ne : whole ≠ []

namespace Numeral

/-- Digits as characters. -/
def digitChars (ds : List (Fin 10)) : List Char :=
  ds.map fun d : Fin 10 => Nat.digitChar d.val

/-- The number that digits stand for, the first of them in the highest place. -/
def natural (ds : List (Fin 10)) : ℕ :=
  Nat.ofDigits 10 (ds.map Fin.val).reverse

variable (n : Numeral)

/-- The text of a number. -/
def text : String :=
  String.ofList ((if n.negative then ['-'] else []) ++ digitChars n.whole ++
    if n.fraction = [] then [] else '.' :: digitChars n.fraction)

/-- The number that is meant. -/
def value : ℚ :=
  (if n.negative then -1 else 1) * (natural n.whole + natural n.fraction / 10 ^ n.fraction.length)

/-- The number as a coefficient with a scale. -/
def decimal : Decimal :=
  ⟨(if n.negative then -1 else 1) * natural (n.whole ++ n.fraction), n.fraction.length⟩

lemma natural_append (ds es : List (Fin 10)) :
    natural (ds ++ es) = natural ds * 10 ^ es.length + natural es := by
  rw [natural, List.map_append, List.reverse_append, Nat.ofDigits_append, List.length_reverse,
    List.length_map, Nat.add_comm, Nat.mul_comm]
  rfl

lemma isDigit_of_mem_digitChars {ds : List (Fin 10)} : ∀ c ∈ digitChars ds, c.isDigit := by
  intro c hc
  obtain ⟨d, -, rfl⟩ := List.mem_map.1 hc
  have table : ∀ d : Fin 10, (Nat.digitChar d.val).isDigit := by decide
  exact table d

lemma digitsValue_digitChars (ds : List (Fin 10)) : Decimal.digitsValue (digitChars ds) = natural ds := by
  induction ds using List.reverseRecOn with
  | nil => rfl
  | append_singleton ds d ih =>
    have digit : (Nat.digitChar d.val).toNat - '0'.toNat = d.val := by decide +revert
    rw [Decimal.digitsValue, digitChars, List.map_append, List.foldl_append, natural_append]
    show 10 * Decimal.digitsValue (digitChars ds) + ((Nat.digitChar d.val).toNat - '0'.toNat) = _
    rw [ih, digit, Nat.mul_comm]
    simp [natural]

/-- Digits with a fraction are read up to the point and behind it. -/
lemma ofDigits?_digitChars {whole : List (Fin 10)} (ne : whole ≠ []) (fraction : List (Fin 10)) :
    Decimal.ofDigits? (digitChars whole ++ if fraction = [] then [] else '.' :: digitChars fraction) =
      some ⟨natural (whole ++ fraction), fraction.length⟩ := by
  have some_digits : (digitChars whole).isEmpty = false := by
    cases whole with
    | nil => exact absurd rfl ne
    | cons d ds => rfl
  cases fraction with
  | nil =>
    have span : (digitChars whole).span Char.isDigit = (digitChars whole, []) := by
      rw [List.span_eq_takeWhile_dropWhile, List.takeWhile_eq_self_iff.2 isDigit_of_mem_digitChars,
        List.dropWhile_eq_nil_iff.2 isDigit_of_mem_digitChars]
    rw [if_pos rfl, List.append_nil, List.append_nil, Decimal.ofDigits?, span]
    simp [some_digits, digitsValue_digitChars]
  | cons d ds =>
    have span : (digitChars whole ++ '.' :: digitChars (d :: ds)).span Char.isDigit =
        (digitChars whole, '.' :: digitChars (d :: ds)) := by
      rw [List.span_eq_takeWhile_dropWhile, List.takeWhile_append_of_pos isDigit_of_mem_digitChars,
        List.dropWhile_append_of_pos isDigit_of_mem_digitChars]
      simp
    have digits : (digitChars (d :: ds)).all Char.isDigit = true :=
      List.all_eq_true.2 isDigit_of_mem_digitChars
    have length : (digitChars (d :: ds)).length = (d :: ds).length := List.length_map _
    have joined : digitChars whole ++ digitChars (d :: ds) = digitChars (whole ++ d :: ds) :=
      List.map_append.symm
    rw [if_neg (List.cons_ne_nil d ds), Decimal.ofDigits?, span]
    show (if !(digitChars whole).isEmpty && !(digitChars (d :: ds)).isEmpty &&
      (digitChars (d :: ds)).all Char.isDigit then _ else _) = _
    rw [some_digits, digits, joined, digitsValue_digitChars, length]
    rfl

/-- The text of a number is read as that number. -/
lemma ofText?_text : Decimal.ofText? n.text = some n.decimal := by
  have read := ofDigits?_digitChars n.whole_ne n.fraction
  rw [text, Decimal.ofText?, String.toList_ofList, decimal]
  cases hn : n.negative with
  | true => simp [read]
  | false =>
    obtain ⟨d, ds, whole⟩ := List.exists_cons_of_ne_nil n.whole_ne
    have first : Nat.digitChar d.val ≠ '-' := by
      clear whole
      decide +revert
    simp only [Bool.false_eq_true, if_false, List.nil_append, one_mul]
    rw [← read, whole]
    simp [digitChars, first]

lemma value_decimal : n.decimal.value = n.value := by
  rw [Decimal.value, decimal, value, natural_append]
  have power : (10 : ℚ) ^ n.fraction.length ≠ 0 := by positivity
  push_cast
  field_simp

end Numeral

namespace Decimal
variable (d : Decimal)

lemma abs_value : |d.value| = d.coefficient.natAbs / 10 ^ d.scale := by
  rw [value, abs_div, Nat.cast_natAbs, Int.cast_abs]
  congr 1
  exact abs_of_pos (by positivity)

/-- A value times a power of ten is a whole number if the power divides the shifted coefficient. -/
lemma exists_mul_eq_int_iff (places : ℕ) :
    (∃ z : ℤ, d.value * 10 ^ places = z) ↔ 10 ^ d.scale ∣ d.coefficient.natAbs * 10 ^ places := by
  have power : (10 : ℚ) ^ d.scale ≠ 0 := by positivity
  have cleared (z : ℤ) : d.value * 10 ^ places = z ↔ d.coefficient * 10 ^ places = 10 ^ d.scale * z := by
    rw [value, div_mul_eq_mul_div, div_eq_iff power, mul_comm (z : ℚ)]
    norm_cast
  have abs : d.coefficient.natAbs * 10 ^ places = (d.coefficient * 10 ^ places).natAbs := by
    rw [Int.natAbs_mul, Int.natAbs_pow]
    rfl
  rw [abs, ← Int.natCast_dvd, exists_congr cleared, dvd_def]
  norm_cast

/-- A number is an integer if no digit behind the point counts. -/
lemma isInteger_iff : d.isInteger = true ↔ ∃ z : ℤ, d.value = z := by
  have whole := exists_mul_eq_int_iff d 0
  rw [pow_zero, mul_one, pow_zero, mul_one] at whole
  rw [whole, isInteger, beq_iff_eq, Nat.dvd_iff_mod_eq_zero]
  rfl

lemma digitCount_le_iff (m k : ℕ) : digitCount m ≤ k ↔ m < 10 ^ k := by
  induction k generalizing m with
  | zero =>
    unfold digitCount
    split <;> simp_all
  | succ k ih =>
    rw [digitCount]
    by_cases zero : m = 0
    · simp [zero]
    · rw [if_neg zero, Nat.succ_le_succ_iff, ih, Nat.div_lt_iff_lt_mul (by decide), pow_succ]

/-- The digits before the point fit a number of places if the value is below that power of ten. -/
lemma wholeDigits_le_iff (places : ℕ) : d.wholeDigits ≤ places ↔ |d.value| < 10 ^ places := by
  have power : 0 < 10 ^ d.scale := by positivity
  rw [wholeDigits, digitCount_le_iff, Nat.pow_eq, Nat.div_lt_iff_lt_mul power, abs_value,
    div_lt_iff₀ (by positivity)]
  norm_cast

lemma fractionLength_le_iff (m scale places : ℕ) :
    fractionLength m scale ≤ places ↔ 10 ^ scale ∣ m * 10 ^ places := by
  induction scale generalizing m with
  | zero => simp [fractionLength]
  | succ scale ih =>
    rw [fractionLength]
    by_cases last : m % 10 = 0
    · -- a trailing zero does not count
      obtain ⟨m, rfl⟩ := Nat.dvd_of_mod_eq_zero last
      rw [if_pos last, ih, Nat.mul_div_cancel_left m (by decide), pow_succ', Nat.mul_assoc,
        Nat.mul_dvd_mul_iff_left (by decide)]
    · rw [if_neg last]
      constructor
      · intro le
        exact (pow_dvd_pow 10 le).mul_left m
      · -- fewer places would leave a factor of ten in the digits
        intro dvd
        by_contra lt
        obtain ⟨more, length⟩ := Nat.exists_eq_add_of_lt (not_le.1 lt)
        rw [length, Nat.add_assoc, pow_add, Nat.mul_comm, Nat.mul_dvd_mul_iff_right (by positivity)] at dvd
        exact last (Nat.mod_eq_zero_of_dvd ((dvd_pow_self 10 more.succ_ne_zero).trans dvd))

/-- The digits behind the point fit a number of places if the value moved by them is a whole number. -/
lemma fractionDigits_le_iff (places : ℕ) :
    d.fractionDigits ≤ places ↔ ∃ z : ℤ, d.value * 10 ^ places = z := by
  rw [fractionDigits, fractionLength_le_iff, exists_mul_eq_int_iff]

/-- The whole part of a whole number is its value. -/
lemma wholePart_of_value_eq {z : ℤ} (whole : d.value = z) : d.wholePart = z := by
  have power : (10 : ℚ) ^ d.scale ≠ 0 := by positivity
  have coefficient : d.coefficient = z * 10 ^ d.scale := by
    rw [value, div_eq_iff power] at whole
    exact_mod_cast whole
  rw [wholePart, coefficient, Nat.pow_eq]
  push_cast
  exact Int.mul_tdiv_cancel z (by positivity)

end Decimal

/-! ### The rule -/

/-- A literal that writes a whole number. -/
def Literal.Writes (l : Literal) (z : ℤ) : Prop :=
  l.kind = .number ∧ ∃ n : Numeral, l.text = n.text ∧ n.value = z

namespace Check

open Schema

/-- Type arguments that give a precision, and a scale unless it is zero. -/
inductive Places : List Literal → ℕ → ℕ → Prop where
  | precision {a : Literal} {p : ℕ} : a.Writes p → Places [a] p 0
  | scaled {a b : Literal} {p s : ℕ} : a.Writes p → b.Writes s → Places [a, b] p s

section Rule
variable {args : List Literal} {category : TypeCategory} (n : Numeral)

/-- An argument below the limit of a signed word is read as the number that it writes. -/
lemma wholeArgument?_of_writes {i z : ℕ} {l : Literal} (at_ : args[i]? = some l) (writes : l.Writes z)
    (small : z < 2 ^ 63) : wholeArgument? args i = some (z : ℤ) := by
  obtain ⟨kind, m, text, value⟩ := writes
  rw [← m.value_decimal] at value
  have whole : m.decimal.isInteger = true := m.decimal.isInteger_iff.2 ⟨z, value⟩
  simp [wholeArgument?, at_, kind, text, m.ofText?_text, whole, m.decimal.wholePart_of_value_eq value,
    Word.ofInt_natCast small]

/-- An integer type takes the whole numbers. -/
lemma numericProblem?_integer (integer : category.isInteger = true) :
    numericProblem? category args n.text = none ↔ ∃ z : ℤ, n.value = z := by
  rw [← n.value_decimal, ← Decimal.isInteger_iff, numericProblem?, n.ofText?_text]
  dsimp only
  rw [if_pos integer]
  cases n.decimal.isInteger <;> simp

/-- A decimal type takes the numbers that its places hold. -/
lemma numericProblem?_decimal {p s : ℕ} (places : Places args p s) (le : s ≤ p) (small : p < 2 ^ 63) :
    numericProblem? .decimal args n.text = none ↔
      (∃ z : ℤ, n.value * 10 ^ s = z) ∧ |n.value| < 10 ^ (p - s) := by
  have precision : wholeArgument? args 0 = some (p : ℤ) := by
    cases places with
    | precision wp => exact wholeArgument?_of_writes rfl wp small
    | scaled wp ws => exact wholeArgument?_of_writes rfl wp small
  have scale : (wholeArgument? args 1).getD 0 = (s : ℤ) := by
    cases places with
    | precision wp => rfl
    | scaled wp ws => rw [wholeArgument?_of_writes rfl ws (le.trans_lt small), Option.getD_some]
  have word : Word.ofInt ((p : ℤ) - s) = ((p - s : ℕ) : ℤ) := by
    rw [← Nat.cast_sub le, Word.ofInt_natCast ((Nat.sub_le p s).trans_lt small)]
  rw [← n.value_decimal, ← Decimal.fractionDigits_le_iff, ← Decimal.wholeDigits_le_iff, numericProblem?,
    n.ofText?_text]
  dsimp only
  rw [if_neg (by decide), if_neg (by decide), precision, scale]
  dsimp only
  rw [word]
  simp

/-- Other numeric types take every number, and so does a decimal type without arguments. -/
lemma numericProblem?_other (other : category.isInteger = false) (free : category ≠ .decimal ∨ args = []) :
    numericProblem? category args n.text = none := by
  rw [numericProblem?, n.ofText?_text]
  dsimp only
  rw [other, if_neg Bool.false_ne_true]
  rcases free with free | rfl
  · simp [free]
  · simp [wholeArgument?]

end Rule

/-! ### The findings of a field -/

/-- The findings that one constraint of a field gives rise to by its default. -/
def mismatches (s : Schema) (e : Entity) (f : Field) (c : Constraint) : List Diagnostic :=
  match c.clause with
  | .default v =>
    (defaultProblem? s f v).toList.map fun problem =>
      (caution s Diagnostic.defaultMismatch
        ("field " ++ e.name ++ "." ++ f.name ++ ": DEFAULT " ++ v.text ++ " " ++ problem.message)
        c.span)
        |>.inEntity e.name |>.onField f.name
  | _ => []

lemma defaults_eq (s : Schema) :
    defaults s = perField s fun e f => f.constraints.flatMap (mismatches s e f) := by
  rw [defaults]
  congr 1
  funext e f
  apply congrArg (List.flatMap · f.constraints)
  funext c
  rw [mismatches]
  cases c.clause with
  | default v =>
    dsimp only
    cases defaultProblem? s f v <;> rfl
  | _ => rfl

lemma place_of_mem_mismatches {s : Schema} {e : Entity} {f : Field} {c : Constraint} {d : Diagnostic}
    (found : d ∈ mismatches s e f c) : d.entity = e.name ∧ d.field = f.name := by
  rw [mismatches] at found
  cases hc : c.clause with
  | default v =>
    rw [hc] at found
    obtain ⟨problem, -, rfl⟩ := List.mem_map.1 found
    exact ⟨rfl, rfl⟩
  | _ =>
    rw [hc] at found
    cases found

end Check

namespace Schema
variable {doc : Document} {e : Entity} {f : Field}

/-- A field of a document is reported for its own defaults, constraint by constraint. -/
lemma findings_defaultMismatch (he : e ∈ (ofDocument doc).1.entities) (hf : f ∈ e.fields) :
    Check.findings (ofDocument doc).1 Diagnostic.defaultMismatch e.name f.name =
      f.constraints.flatMap (Check.mismatches (ofDocument doc).1 e f) := by
  have field {x : Entity} {g : Field} : ∀ d ∈ g.constraints.flatMap (Check.mismatches (ofDocument doc).1 x g),
      d.entity = x.name ∧ d.field = g.name := by
    intro d hd
    obtain ⟨c, -, hd⟩ := List.mem_flatMap.1 hd
    exact Check.place_of_mem_mismatches hd
  have entity {x : Entity} : ∀ d ∈ x.fields.flatMap fun g =>
      g.constraints.flatMap (Check.mismatches (ofDocument doc).1 x g), d.entity = x.name := by
    intro d hd
    obtain ⟨g, -, hd⟩ := List.mem_flatMap.1 hd
    exact (field d hd).1
  rw [Check.findings, ← List.filter_filter, ← List.filter_filter, Check.filter_run_defaultMismatch,
    Check.defaults_eq, Check.perField,
    filter_flatMap_of_nodup (entity_names_nodup doc) (fun _ => entity) he]
  exact filter_flatMap_of_nodup (field_names_nodup doc e he) (fun _ d hd => (field d hd).2) hf

/-- A number that is the default of a field of a numeric base type is judged by that type alone. -/
lemma mismatches_eq_nil_iff {s : Schema} {c : Constraint} {category : TypeCategory}
    (base : f.type.binding = .base) (known : BaseType.category? f.type.name = some category)
    (numeric : category.toClass = .numeric) {text : String} {span : Span}
    (stated : c.clause = .default ⟨.number, text, span⟩) :
    Check.mismatches s e f c = [] ↔ Check.numericProblem? category f.type.args text = none := by
  have problem : Check.defaultProblem? s f ⟨.number, text, span⟩ =
      Check.numericProblem? category f.type.args text := by
    simp [Check.defaultProblem?, base, known, Check.baseProblem?, numeric]
  rw [Check.mismatches, stated]
  dsimp only
  rw [problem, List.map_eq_nil_iff, Option.toList_eq_nil_iff]

/-- Checks of numeric defaults are exact. The findings about the defaults of a field are those of its
constraints. A number is reported on an integer type exactly if it is no whole number, on a decimal type
with precision and scale exactly if the places of the type do not hold it, and else never. -/
theorem numeric_defaults_exact (doc : Document) (e : Entity) (he : e ∈ (ofDocument doc).1.entities)
    (f : Field) (hf : f ∈ e.fields) (base : f.type.binding = .base) (category : TypeCategory)
    (known : BaseType.category? f.type.name = some category) :
    Check.findings (ofDocument doc).1 Diagnostic.defaultMismatch e.name f.name =
        f.constraints.flatMap (Check.mismatches (ofDocument doc).1 e f) ∧
      ∀ c ∈ f.constraints, ∀ (n : Numeral) (span : Span), c.clause = .default ⟨.number, n.text, span⟩ →
        (category.isInteger = true →
          (Check.mismatches (ofDocument doc).1 e f c = [] ↔ ∃ z : ℤ, n.value = z)) ∧
        (category = .decimal → ∀ p s, Check.Places f.type.args p s → s ≤ p → p < 2 ^ 63 →
          (Check.mismatches (ofDocument doc).1 e f c = [] ↔
            (∃ z : ℤ, n.value * 10 ^ s = z) ∧ |n.value| < 10 ^ (p - s))) ∧
        (category.toClass = .numeric → category.isInteger = false →
          category ≠ .decimal ∨ f.type.args = [] → Check.mismatches (ofDocument doc).1 e f c = []) := by
  refine ⟨findings_defaultMismatch he hf, fun c _ n span stated => ⟨?_, ?_, ?_⟩⟩
  · intro integer
    have numeric : category.toClass = .numeric := by cases category <;> first | rfl | cases integer
    rw [mismatches_eq_nil_iff base known numeric stated]
    exact Check.numericProblem?_integer n integer
  · rintro rfl p s places le small
    rw [mismatches_eq_nil_iff base known rfl stated]
    exact Check.numericProblem?_decimal n places le small
  · intro numeric other free
    rw [mismatches_eq_nil_iff base known numeric stated]
    exact Check.numericProblem?_other n other free

/-- A block with a price in four places, two of them behind the point. -/
def tariff : Document :=
  Compilation.document "tariff.erd" (Text.bytes
    ":Tariff\n  INT $.id PK\n  DECIMAL(4, 2) $.price DEFAULT -012.50\n") {}

/-- The price of the block, with zeros on both sides that do not count. -/
def price : Numeral := ⟨true, [0, 1, 2], [5, 0], List.cons_ne_nil _ _⟩

/-- The price fits its places, so it is not reported. -/
theorem numeric_defaults_exact_tariff :
    ∃ e ∈ (ofDocument tariff).1.entities, ∃ f ∈ e.fields, f.name = "price" ∧ f.type.binding = .base ∧
      BaseType.category? f.type.name = some .decimal ∧ Check.Places f.type.args 4 2 ∧
      ∃ c ∈ f.constraints, (∃ span, c.clause = .default ⟨.number, price.text, span⟩) ∧
        ((∃ z : ℤ, price.value * 10 ^ 2 = z) ∧ |price.value| < 10 ^ (4 - 2)) ∧
        Check.mismatches (ofDocument tariff).1 e f c = [] := by
  have facts : ∃ e ∈ (ofDocument tariff).1.entities, ∃ f ∈ e.fields, f.name = "price" ∧
      f.type.binding = .base ∧ BaseType.category? f.type.name = some .decimal ∧
      (f.type.args.map fun a => (a.kind, a.text)) = [(.number, "4"), (.number, "2")] ∧
      ∃ c ∈ f.constraints, ∃ v ∈ f.default?, c.clause = .default v ∧ v.kind = .number ∧
        v.text = price.text := by
    rw [tariff, Compilation.document, Compilation.read_bytes]
    decide +kernel
  obtain ⟨e, he, f, hf, name, base, known, args, c, hc, ⟨_, _, span⟩, -, stated, rfl, rfl⟩ := facts
  have places : Check.Places f.type.args 4 2 := by
    obtain ⟨a, rest, eq, ha, args⟩ := List.map_eq_cons_iff.1 args
    obtain ⟨b, rest, rfl, hb, none⟩ := List.map_eq_cons_iff.1 args
    obtain rfl := List.map_eq_nil_iff.1 none
    rw [eq]
    refine .scaled ⟨congrArg Prod.fst ha, ⟨false, [4], [], List.cons_ne_nil _ _⟩, congrArg Prod.snd ha, ?_⟩
      ⟨congrArg Prod.fst hb, ⟨false, [2], [], List.cons_ne_nil _ _⟩, congrArg Prod.snd hb, ?_⟩ <;>
      simp [Numeral.value, Numeral.natural]
  have value : price.value = -25 / 2 := by norm_num [Numeral.value, Numeral.natural, price, Nat.ofDigits]
  have fits : (∃ z : ℤ, price.value * 10 ^ 2 = z) ∧ |price.value| < 10 ^ (4 - 2) := by
    rw [value]
    refine ⟨⟨-1250, by norm_num⟩, ?_⟩
    rw [abs_of_neg] <;> norm_num
  exact ⟨e, he, f, hf, name, base, known, places, c, hc, ⟨span, stated⟩, fits,
    (((numeric_defaults_exact tariff e he f hf base .decimal known).2 c hc price span stated).2.1 rfl 4 2
      places (by decide) (by decide)).2 fits⟩

end Schema

end ErdSql
