import ErdSql.Decimal
import ErdSql.Schema
import ErdSql.Uuid
import ErdSql.Word

/-!
# Defaults

Whether a default literal fits the type of its field. Calls always fit; names fit unless the type is
boolean or an enumeration.
-/

namespace ErdSql.Check

open Schema

/-- Why a default does not fit. -/
inductive DefaultProblem where
  | contradictsNotNull
  | listForScalar
  | notVariant (enum : String)
  | notBoolean
  | notNumeric
  | notNumber
  | notInteger
  | tooPrecise (precision scale : Int)
  | notString
  | tooLong (length : Int)
  | notUuid
  deriving DecidableEq, Inhabited

/-- The wording of a problem. -/
def DefaultProblem.message : DefaultProblem → String
  | contradictsNotNull => "contradicts NOT NULL"
  | listForScalar => "is a list but the field is scalar"
  | notVariant enum => "is not a variant of " ++ enum
  | notBoolean => "is not a boolean"
  | notNumeric => "is not numeric"
  | notNumber => "is not a number"
  | notInteger => "is not an integer"
  | tooPrecise precision scale =>
    "does not fit precision " ++ toString precision ++ ", scale " ++ toString scale
  | notString => "is not a string"
  | tooLong length => "is longer than " ++ toString length ++ " characters"
  | notUuid => "is not a valid UUID"

/-- Whether a text is a word for a truth value. -/
def isTruthWord (s : String) : Bool :=
  ["true", "false", "t", "f", "yes", "no", "on", "off"].contains (Text.lower s)

/-- The type argument at a position, if it is a whole number. -/
def wholeArgument? (args : List Literal) (i : Nat) : Option Int := do
  let a ← args[i]?
  guard (a.kind == .number)
  let d ← Decimal.ofText? a.text
  guard d.isInteger
  return Word.ofInt d.wholePart

/-- Why a number does not fit a numeric type: an integer type needs a whole number, a decimal type
with precision and scale needs few enough digits on both sides of the point. -/
def numericProblem? (category : TypeCategory) (args : List Literal) (text : String) :
    Option DefaultProblem :=
  match Decimal.ofText? text with
  | none => some .notNumber
  | some d =>
    if category.isInteger then if d.isInteger then none else some .notInteger
    else if category != .decimal then none
    else match wholeArgument? args 0 with
      | none => none
      | some precision =>
        let scale := (wholeArgument? args 1).getD 0
        if d.fractionDigits > scale || d.wholeDigits > Word.ofInt (precision - scale) then
          some (.tooPrecise precision scale)
        else none

/-- Why a string does not fit a text type: types with a length need a string no longer than it. -/
def lengthProblem? (category : TypeCategory) (args : List Literal) (value : String) :
    Option DefaultProblem :=
  if category != .varchar && category != .char then none
  else match wholeArgument? args 0 with
    | none => none
    | some n => if (value.length : Int) > n then some (.tooLong n) else none

/-- Why a number or string does not fit a base type. -/
def baseProblem? (category : TypeCategory) (args : List Literal) (v : Literal) :
    Option DefaultProblem :=
  match category.toClass with
  | .numeric => if v.kind != .number then some .notNumeric else numericProblem? category args v.text
  | .text | .json =>
    if v.kind != .string then some .notString else lengthProblem? category args v.value
  | .uuid =>
    if v.kind != .string then some .notString
    else if Uuid.isValid v.value then none
    else some .notUuid
  | .temporal => if v.kind != .string then some .notString else none
  | .boolean =>
    if v.kind == .number && v.text != "0" && v.text != "1" then some .notBoolean
    else if v.kind == .string && !isTruthWord v.value then some .notBoolean
    else none
  | _ => none

/-- Why a literal does not fit an enumeration: it must be one of the labels and not a number. -/
def enumProblem? (e : Enum) (v : Literal) : Option DefaultProblem :=
  if v.kind == .number || !e.hasVariant v.value then some (.notVariant e.name) else none

/-- Why a default does not fit its field. -/
def defaultProblem? (s : Schema) (f : Field) (v : Literal) : Option DefaultProblem :=
  match v.kind with
  | .call => none
  | .null => if f.carries .notNull then some .contradictsNotNull else none
  | .list => if f.cardinality == .scalar then some .listForScalar else none
  | kind =>
    match f.type.binding with
    | .enum id =>
      match s.enum? id with
      | some e => enumProblem? e v
      | none => none
    | .base =>
      match BaseType.category? f.type.name with
      | none => none
      | some category =>
        if kind == .identifier then
          if category.toClass == .boolean && !isTruthWord v.text then some .notBoolean else none
        else baseProblem? category f.type.args v
    | _ => none

end ErdSql.Check
