/-!
# YAML values

Scalars, sequences and mappings with their kinds and the lines where they start. A reference to a named
value keeps the value that it stands for.
-/

namespace ErdSql

namespace Yaml

/-- The kinds of values. -/
inductive Tag where
  | null
  | bool
  | int
  | float
  | timestamp
  | str
  | merge
  | seq
  | map
  /-- A kind that has no meaning here and is only known by its name. -/
  | other (name : String)
  deriving DecidableEq, Inhabited

/-- The short name of a kind. -/
def Tag.name : Tag → String
  | null => "!!null"
  | bool => "!!bool"
  | int => "!!int"
  | float => "!!float"
  | timestamp => "!!timestamp"
  | str => "!!str"
  | merge => "!!merge"
  | seq => "!!seq"
  | map => "!!map"
  | other name => name

/-- The kind with a short name. -/
def Tag.ofName (name : String) : Tag :=
  ([null, bool, int, float, timestamp, str, merge, seq, map].find? (·.name == name)).getD (other name)

end Yaml

/-- A YAML value and the line where it starts. -/
inductive Yaml where
  | scalar (line : Nat) (tag : Yaml.Tag) (value : String)
  | seq (line : Nat) (tag : Yaml.Tag) (items : List Yaml)
  | map (line : Nat) (tag : Yaml.Tag) (entries : List (Yaml × Yaml))
  | reference (line : Nat) (name : String) (target : Yaml)
  deriving Inhabited

namespace Yaml

/-- The kind of a value. -/
def tag : Yaml → Tag
  | scalar _ tag _ => tag
  | seq _ tag _ => tag
  | map _ tag _ => tag
  | reference _ _ target => target.tag

/-- The line where a value starts. -/
def line : Yaml → Nat
  | scalar n _ _ => n
  | seq n _ _ => n
  | map n _ _ => n
  | reference n _ _ => n

/-- The text of a scalar or the name that a reference uses, empty for all else. -/
def text : Yaml → String
  | scalar _ _ value => value
  | seq _ _ _ => ""
  | map _ _ _ => ""
  | reference _ name _ => name

/-- The value that a reference stands for in the end. -/
def target : Yaml → Yaml
  | reference _ _ value => value.target
  | value => value

end Yaml

end ErdSql
